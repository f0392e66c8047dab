import Enc28j60.App.Loop

/-!
# Enc28j60.App.Runs

The rules for whole runs of the application side.

An assertion about runs is shown to be kept by each part of the loop, and holds
of every reachable configuration by the loop rule (`Kept.sound`).  Most of them
say nothing about the clock, the timeout list and the other things `core`
leaves out; for those (`Quiet`) ten updates are left to look at, and the
functions of `timeouts.c` and `mqtt.c` are walked through here, once.

The last section runs the firmware on given inputs.
-/

namespace Enc28j60.App

open Res

variable {G I : App → Prop}

/-! ## parts of the loop -/

/-- `I`, at a point of the loop: no callback is hanging. -/
def Live (I : App → Prop) (s : App) : Prop := I s ∧ s.hung = false

theorem env_hung {s s' : App} (h : Env s s') : s'.hung = s.hung := by
  cases h <;> rfl

theorem env_myConn {s s' : App} (h : Env s s') : s'.myConn = s.myConn := by
  cases h <;> rfl

theorem stable_live (hI : Stable Env G I) : Stable Env G (Live I) where
  env s s' hr hs := ⟨hI.env s s' hr hs.1, by rw [env_hung hr]; exact hs.2⟩
  guard s hs := hI.guard s hs.1

/-- Nothing beside the loop changes `myConn`. -/
theorem stable_myConn (hI : Stable Env G I) (φ : Connection_State → Prop) :
    Stable Env G fun s => Live I s ∧ φ s.myConn where
  env s s' hr hs := ⟨(stable_live hI).env s s' hr hs.1, by rw [env_myConn hr]; exact hs.2⟩
  guard s hs := hI.guard s hs.1.1

/-- A part of the loop that starts and ends with `I`. -/
abbrev Keeps (G I : App → Prop) (p : Prog Unit) : Prop := Triple Env G (Live I) p fun _ => Live I

theorem Keeps.seq {p q : Prog Unit} (hp : Keeps G I p) (hq : Keeps G I q) :
    Keeps G I (p >>= fun _ => q) :=
  Triple.bind hp fun _ => hq

theorem keeps_pure (hI : Stable Env G I) : Keeps G I (pure ()) :=
  Triple.pure (Q := fun _ => Live I) (stable_live hI)

theorem triple_modify {P Q : App → Prop} {f : App → App} (hP : Stable Env G P)
    (hQ : Stable Env G Q) (h : ∀ s, P s → Q (f s)) : Triple Env G P (modify f) fun _ => Q :=
  Triple.modify hP (fun _ => hQ) h

/-- A call that returns leaves no callback hanging. -/
theorem triple_call {P : App → Prop} {f : App → App} (hP : Stable Env G P) (hI : Stable Env G I)
    (h : ∀ s, P s → I (f s)) : Triple Env G P (call f) fun _ => Live I := by
  have hact : Triple Env G P (act fun s => ((f s).hung, f s))
      fun hung s => I s ∧ s.hung = hung := by
    refine Triple.act hP (fun hung => ⟨?_, fun s hs => hI.guard s hs.1⟩) fun s hs => ⟨h s hs, rfl⟩
    exact fun s s' hr hs => ⟨hI.env s s' hr hs.1, by rw [env_hung hr]; exact hs.2⟩
  unfold call
  refine Triple.bind hact fun hung => ?_
  cases hung with
  | true => exact (Triple.stuck hI).conseq (fun s hs => hs.1) fun _ _ h => h
  | false => exact keeps_pure hI

/-- A loop timer, for an assertion `P` that is known once the counter is due and
`M` that is known once it is reset. -/
theorem triple_loopTimer {P M : App → Prop} {due : App → Bool} {reset : Clock → Clock}
    {c : CyclicTimer} (hI : Stable Env G I) (hP : Stable Env G P) (hM : Stable Env G M)
    (hdue : ∀ s, I s → due s = true → P s)
    (hreset : ∀ s, P s → M { s with clock := reset s.clock })
    (hcall : ∀ s, M s → I (loopCall c s)) : Keeps G I (loopTimer due reset c) := by
  have hL := stable_live hI
  have hread : Triple Env G (Live I) (gets due) fun run s => Live I s ∧ (run = true → P s) := by
    refine Triple.gets hL (fun run => ⟨?_, fun s hs => hL.guard s hs.1⟩) fun s hs =>
      ⟨hs, hdue s hs.1⟩
    exact fun s s' hr hs => ⟨hL.env s s' hr hs.1, fun h => hP.env s s' hr (hs.2 h)⟩
  unfold loopTimer
  refine Triple.bind hread fun run => ?_
  cases run with
  | false => exact (keeps_pure hI).conseq (fun s hs => hs.1) fun _ _ h => h
  | true =>
      refine Triple.conseq ?_ (fun s hs => hs.2 rfl) fun _ _ h => h
      exact Triple.bind (triple_modify hP hM hreset) fun _ => triple_call hM hI hcall

/-- `sys_check_timeouts`, with what `P` says of the time it read. -/
theorem keeps_check {P : BitVec 32 → App → Prop} (hI : Stable Env G I)
    (hP : ∀ now, Stable Env G fun s => I s ∧ P now s) (hread : ∀ s, I s → P s.clock.millisec s)
    (hround : ∀ now s, Live I s → P now s →
      I (checkTimeout now s).2 ∧ P now (checkTimeout now s).2)
    (fuel : Nat) : Keeps G I (sys_check_timeouts fuel) := by
  have hL : ∀ now hung, Stable Env G fun s => (I s ∧ P now s) ∧ s.hung = hung := fun now hung =>
    { env := fun s s' hr hs => ⟨(hP now).env s s' hr hs.1, by rw [env_hung hr]; exact hs.2⟩
      guard := fun s hs => (hP now).guard s hs.1 }
  unfold sys_check_timeouts
  refine Triple.bind (M := fun now s => (I s ∧ P now s) ∧ s.hung = false)
    (Triple.gets (stable_live hI) (fun now => hL now false) fun s hs =>
      ⟨⟨hs.1, hread s hs.1⟩, hs.2⟩) fun now => ?_
  refine Triple.pollWhile (hL now false) (stable_live hI) ?_ fuel
  unfold checkRound
  refine Triple.bind (M := fun r s => (I s ∧ P now s) ∧ s.hung = r.2)
    (Triple.act (hL now false) (fun r => hL now r.2) fun s hs =>
      ⟨hround now s ⟨hs.1.1, hs.2⟩ hs.1.2, rfl⟩) fun ⟨again, hung⟩ => ?_
  cases hung with
  | true => exact Triple.stuck (hL now true)
  | false =>
      have hend : Stable Env G fun s =>
          if again then (I s ∧ P now s) ∧ s.hung = false else Live I s := by
        cases again with
        | true => exact hL now false
        | false => exact stable_live hI
      refine (Triple.pure (Q := fun (again : Bool) s =>
        if again then (I s ∧ P now s) ∧ s.hung = false else Live I s) hend).conseq
        (fun s hs => ?_) fun _ _ h => h
      split
      · exact hs
      · exact ⟨hs.1.1, hs.2⟩

/-- The same, when a round keeps `I` whatever time was read. -/
theorem keeps_checkRounds (hI : Stable Env G I)
    (hround : ∀ now s, Live I s → I (checkTimeout now s).2) (fuel : Nat) :
    Keeps G I (sys_check_timeouts fuel) :=
  keeps_check (P := fun _ _ => True) hI
    (fun _ => ⟨fun s s' hr hs => ⟨hI.env s s' hr hs.1, trivial⟩, fun s hs => hI.guard s hs.1⟩)
    (fun _ _ => trivial) (fun now s hs _ => ⟨hround now s hs, trivial⟩) fuel

/-- `sys_timeouts_init`, for an assertion that does not count the timeouts. -/
theorem keeps_startTimers (hI : Stable Env G I)
    (harm : ∀ msecs c s, I s → I (sys_timeout msecs (.lwip_cyclic_timer c) s))
    (cs : List CyclicTimer) : Keeps G I (startTimers cs) := by
  have hL := stable_live hI
  induction cs with
  | nil => exact keeps_pure hI
  | cons c cs ih =>
      exact Keeps.seq (triple_modify hL hL fun s hs => ⟨harm _ c s hs.1, hs.2⟩) ih

/-- The states that try to connect. -/
def Retrying (s : App) : Prop := s.myConn = .DNS_IP_OBTAINED ∨ s.myConn = .MQTT_DISCONNECTED

theorem hung_startUp (s : App) : (startUp s).hung = s.hung := by
  unfold startUp
  split
  · rfl
  · rfl

/-- An attempt to connect: on a client that is not disconnected, one that fails,
and one that is under way. -/
theorem connect_eq (s : App) :
    s.client.conn_state ≠ .TCP_DISCONNECTED ∧
      connect s = { s with attempts := s.attempts ++ [s.clock.ticks] } ∨
    s.client.conn_state = .TCP_DISCONNECTED ∧
      connect s = { s with
        attempts := s.attempts ++ [s.clock.ticks]
        client := { keep_alive := 60, callbacks := s.client.callbacks } } ∨
    s.client.conn_state = .TCP_DISCONNECTED ∧
      let t := tcp_timer_needed { s with
        attempts := s.attempts ++ [s.clock.ticks]
        client := { conn := true, keep_alive := 60, callbacks := s.client.callbacks } }
      connect s = { t with
        client := { t.client with conn_state := .TCP_CONNECTING }
        myConn := .MQTT_CONNECTING, bSubscribed := false, subscribed := [] } := by
  unfold connect mqtt_client_connect
  dsimp only
  by_cases hstate : s.client.conn_state = .TCP_DISCONNECTED
  · rw [if_neg (not_not.mpr hstate)]
    by_cases hok : s.net.connectResult = .ERR_OK
    · rw [if_pos hok, if_pos rfl]
      exact .inr (.inr ⟨hstate, rfl⟩)
    · rw [if_neg hok, if_neg hok]
      exact .inr (.inl ⟨hstate, rfl⟩)
  · rw [if_pos hstate]
    exact .inl ⟨hstate, rfl⟩

theorem hung_connect (s : App) : (connect s).hung = s.hung := by
  rcases connect_eq s with ⟨_, h⟩ | ⟨_, h⟩ | ⟨_, h⟩ <;> rw [h]
  unfold tcp_timer_needed
  split
  · rfl
  · rfl

theorem hung_subscribe (s : App) : (subscribe s).hung = s.hung := by
  unfold subscribe
  split
  · rfl
  · rfl

theorem triple_reconnect (hI : Stable Env G I)
    (hrecord : ∀ s, I s → I (record s))
    (hconnect : ∀ s, Live I s → Retrying s → I (connect s)) :
    Triple Env G (fun s => Live I s ∧ Retrying s) reconnect fun _ => Live I := by
  have hR : Stable Env G fun s => Live I s ∧ Retrying s :=
    stable_myConn hI fun c => c = .DNS_IP_OBTAINED ∨ c = .MQTT_DISCONNECTED
  unfold reconnect
  refine Triple.bind (M := fun _ s => Live I s ∧ Retrying s)
    (Triple.gets hR (fun _ => hR) fun s hs => hs) fun elapsed => ?_
  split
  · refine Triple.bind (triple_modify hR hR fun s hs => ⟨⟨hrecord s hs.1.1, hs.1.2⟩, hs.2⟩)
      fun _ => triple_modify hR (stable_live hI) fun s hs => ⟨hconnect s hs.1 hs.2, ?_⟩
    rw [hung_connect]
    exact hs.1.2
  · exact (keeps_pure hI).conseq (fun s hs => hs.1) fun _ _ h => h

theorem keeps_inputAll (hI : Stable Env G I) (h : ∀ p s, Live I s → I (input p s))
    (ps : List Packet) : Keeps G I (inputAll ps) := by
  induction ps with
  | nil => exact keeps_pure hI
  | cons p ps ih =>
      exact Keeps.seq (triple_call (stable_live hI) hI (h p)) ih

/-! ## the loop -/

/-- What the loop does besides its timers keeps `I`. -/
structure Kept (G I : App → Prop) : Prop where
  stable : Stable Env G I
  place : ∀ s p, I s → I { s with at_ := p }
  startUp : ∀ s, Live I s → s.myConn = .START_UP → I (startUp s)
  reconnect : Triple Env G (fun s => Live I s ∧ Retrying s) reconnect fun _ => Live I
  mqttTimer : ∀ s, I s → I { s with clock := { s.clock with u32MqttCounter := 0 } }
  publish : ∀ s, Live I s → s.myConn = .MQTT_CONNECTED → I (publish s)
  subscribe : ∀ s, Live I s → s.myConn = .MQTT_CONNECTED → I (subscribe s)
  input : ∀ p s, Live I s → I (input p s)

namespace Kept

theorem publishDue (h : Kept G I) :
    Triple Env G (fun s => Live I s ∧ s.myConn = .MQTT_CONNECTED) publishDue
      fun _ s => Live I s ∧ s.myConn = .MQTT_CONNECTED := by
  have hC := stable_myConn h.stable (· = .MQTT_CONNECTED)
  unfold App.publishDue
  refine Triple.bind (M := fun _ s => Live I s ∧ s.myConn = .MQTT_CONNECTED)
    (Triple.gets hC (fun _ => hC) fun s hs => hs) fun due => ?_
  split
  · exact Triple.bind (triple_modify hC hC fun s hs => ⟨⟨h.mqttTimer s hs.1.1, hs.1.2⟩, hs.2⟩)
      fun _ => triple_modify hC hC fun s hs => ⟨⟨h.publish s hs.1 hs.2, hs.1.2⟩, hs.2⟩
  · exact Triple.pure (Q := fun _ s => Live I s ∧ s.myConn = .MQTT_CONNECTED) hC

theorem stateSwitch (h : Kept G I) : Keeps G I stateSwitch := by
  have hI := stable_live h.stable
  have hC : ∀ c, Stable Env G fun s => Live I s ∧ s.myConn = c := fun c =>
    stable_myConn h.stable (· = c)
  have hdone : ∀ c, Triple Env G (fun s => Live I s ∧ s.myConn = c) (pure ())
      fun _ => Live I := fun c =>
    (keeps_pure h.stable).conseq (fun s hs => hs.1) fun _ _ h => h
  unfold App.stateSwitch
  refine Triple.bind (M := fun c s => Live I s ∧ s.myConn = c)
    (Triple.act hI hC fun s hs => ⟨⟨h.place s _ hs.1, hs.2⟩, rfl⟩) fun c => ?_
  cases c with
  | START_UP =>
      refine triple_modify (hC _) hI fun s hs => ⟨h.startUp s hs.1 hs.2, ?_⟩
      rw [hung_startUp]
      exact hs.1.2
  | DHCP_IP_RECEIVED => exact hdone _
  | DNS_IP_OBTAINED =>
      exact h.reconnect.conseq (fun s hs => ⟨hs.1, .inl hs.2⟩) fun _ _ h => h
  | MQTT_CONNECTING => exact hdone _
  | MQTT_CONNECTED =>
      refine Triple.bind h.publishDue fun _ =>
        triple_modify (hC _) hI fun s hs => ⟨h.subscribe s hs.1 hs.2, ?_⟩
      rw [hung_subscribe]
      exact hs.1.2
  | MQTT_DISCONNECTED =>
      exact h.reconnect.conseq (fun s hs => ⟨hs.1, .inr hs.2⟩) fun _ _ h => h

theorem netInput (h : Kept G I) : Keeps G I netInput :=
  Triple.bind (M := fun _ => Live I)
    (Triple.gets (stable_live h.stable) (fun _ => stable_live h.stable) fun _ hs => hs) fun ps =>
      keeps_inputAll h.stable h.input ps

theorem loopBody (h : Kept G I) (hfine : Keeps G I fineTimer) (hcoarse : Keeps G I coarseTimer)
    (hdns : Keeps G I dnsTimer) (hetharp : Keeps G I etharpTimer)
    (hcheck : ∀ fuel, Keeps G I (sys_check_timeouts fuel)) (fuel : Nat) :
    Keeps G I (loopBody fuel) :=
  have hI := stable_live h.stable
  hfine.seq <| hcoarse.seq <| hdns.seq <| hetharp.seq <| (hcheck fuel).seq <|
    Keeps.seq (triple_modify hI hI fun s hs => ⟨h.place s _ hs.1, hs.2⟩) <|
      h.stateSwitch.seq h.netInput

end Kept

/-- What one round of the loop keeps holds of every configuration the firmware
reaches, if it holds when `lwip_init` is done. -/
theorem sound {pool : Nat} {c : Ctl App} {s : App} (hI : Stable Env G I)
    (hboot : ∀ word net, wp Env G lwip_init (fun _ => Live I) (initial pool word net))
    (hbody : ∀ fuel, Keeps G I (loopBody fuel)) (h : Reachable pool (c, s)) :
    Loop.Inv Env G (Live I) (c, s) := by
  obtain ⟨fuel, word, net, hsteps⟩ := h
  have hstart : Loop.Inv Env G (Live I) (.run lwip_init, initial pool word net) := hboot word net
  exact Loop.sound (stable_live hI) (hbody fuel) hstart hsteps

/-! ## walking through lwIP -/

theorem thenRun_rule {f g : App → App} {s : App} (hf : ∀ s, I s → I (f s))
    (hg : ∀ s, I s → I (g s)) (hs : I s) : I (thenRun f g s) := by
  unfold thenRun
  split
  · exact hf s hs
  · exact hg _ (hf s hs)

/-- What TCP can do to the client's connection keeps `I`. -/
structure OnEvents (I : App → Prop) : Prop where
  watch : ∀ t w s, I s → I (watch t w s)
  closed : ∀ reason s, I s → reason ≠ MQTT_CONNECT_ACCEPTED → I (mqtt_close reason s)
  accepted : ∀ s, I s → s.client.conn_state = .MQTT_CONNECTING → I (accepted s)
  published : ∀ (len : BitVec 16) left s, I s → receiving s → s.client.remaining = none →
    I (received len left (announce (left + len.setWidth 32) s))
  continued : ∀ (len : BitVec 16) left s, I s → receiving s → s.client.remaining = some left →
    I (received len (left - len.setWidth 32) s)

namespace OnEvents

theorem message (h : OnEvents I) {frame : Frame} {s : App} (hs : I s) (hrecv : receiving s)
    (hfits : frame.fits s.client.remaining = true) :
    I (mqtt_message_received frame s).2 ∧ receiving (mqtt_message_received frame s).2 := by
  cases frame with
  | connack code =>
      simp only [mqtt_message_received]
      split
      · rename_i hconnecting
        split
        · refine ⟨h.accepted s hs hconnecting, ?_⟩
          rw [accepted_eq]
          exact ⟨hrecv.1, .inr rfl⟩
        · exact ⟨hs, hrecv⟩
      · exact ⟨hs, hrecv⟩
  | publish len left =>
      have hnone : s.client.remaining = none := Option.isNone_iff_eq_none.mp hfits
      exact ⟨h.published len left s hs hrecv hnone, hrecv⟩
  | payload len =>
      cases hleft : s.client.remaining with
      | none =>
          rw [hleft] at hfits
          cases hfits
      | some left =>
          simp only [mqtt_message_received, hleft]
          exact ⟨h.continued len left s hs hrecv hleft, hrecv⟩
  | malformed => exact ⟨hs, hrecv⟩
  | other => exact ⟨hs, hrecv⟩

theorem parse (h : OnEvents I) (frames : List Frame) {s : App} (hs : I s) (hrecv : receiving s) :
    I (mqtt_parse_incoming frames s).2 := by
  induction frames generalizing s with
  | nil => exact hs
  | cons frame next ih =>
      simp only [mqtt_parse_incoming]
      split
      · rename_i hfits
        obtain ⟨hmessage, hrecv'⟩ := h.message hs hrecv hfits
        split
        · exact hmessage
        · exact ih hmessage hrecv'
      · exact ih hs hrecv

theorem recv (h : OnEvents I) (frames : List Frame) {s : App} (hs : I s) (hrecv : receiving s) :
    I (mqtt_tcp_recv_cb frames s) := by
  unfold mqtt_tcp_recv_cb
  refine thenRun_rule (fun s hs => ?_) (fun s hs => ?_) (h.parse frames hs hrecv)
  · split
    · rename_i hres
      exact h.closed _ s hs hres
    · exact hs
  · unfold resetWatchdog
    split
    · exact h.watch _ _ s hs
    · exact hs

theorem tcpEvent (h : OnEvents I) (e : TcpEvent) {s : App} (hs : I s) : I (tcpEvent e s) := by
  cases e with
  | recv frames =>
      simp only [App.tcpEvent]
      split
      · rename_i hrecv
        exact h.recv frames hs hrecv
      · exact hs
  | fin =>
      simp only [App.tcpEvent]
      split
      · exact h.closed _ s hs (by decide)
      · exact hs
  | sent =>
      simp only [App.tcpEvent, mqtt_tcp_sent_cb]
      split
      · split
        · exact h.watch _ _ s hs
        · exact hs
      · exact hs
  | err =>
      simp only [App.tcpEvent]
      split
      · -- the pcb is forgotten before `mqtt_close` would forget it
        exact h.closed MQTT_CONNECT_DISCONNECTED s hs (by decide)
      · exact hs

theorem tcpEvents (h : OnEvents I) (es : List TcpEvent) {s : App} (hs : I s) :
    I (tcpEvents es s) := by
  induction es generalizing s with
  | nil => exact hs
  | cons e next ih => exact thenRun_rule (fun s hs => h.tcpEvent e hs) (fun s hs => ih hs) hs

theorem keepAlive (h : OnEvents I) {s : App} (hs : I s) : I (keepAlive s) := by
  unfold App.keepAlive
  dsimp only
  split
  · exact h.watch _ _ s hs
  · exact h.watch _ _ s hs

/-- The client's own timer. -/
theorem mqtt_cyclic_timer (h : OnEvents I)
    (hrearm : ∀ s, I s → I (sys_timeout 5000 .mqtt_cyclic_timer s)) {s : App} (hs : I s) :
    I (mqtt_cyclic_timer s) := by
  unfold App.mqtt_cyclic_timer
  split
  · have hwatch := h.watch (s.client.cyclic_tick + 1) s.client.server_watchdog s hs
    dsimp only
    split
    · exact h.closed _ _ hwatch (by decide)
    · exact hrearm _ hwatch
  · split
    · have hwatch := h.watch s.client.cyclic_tick (s.client.server_watchdog + 1) s hs
      dsimp only
      split
      · exact thenRun_rule (fun s hs => h.closed _ s hs (by decide)) (fun s hs => h.keepAlive hs)
          hwatch
      · exact hrearm _ (h.keepAlive hwatch)
    · exact hrearm s hs
  · exact hs

end OnEvents

/-! ## what lwIP leaves alone -/

/-- The clock, and the history of the attempts to connect. -/
def beside (s : App) : Clock × BitVec 32 × List Nat × List Nat :=
  (s.clock, s.lastReconnectAttempt, s.recorded, s.attempts)

theorem events_beside (b : Clock × BitVec 32 × List Nat × List Nat) :
    OnEvents fun s => beside s = b where
  watch _ _ _ hs := hs
  closed _ _ hs _ := by
    rw [mqtt_close_eq]
    exact hs
  accepted _ hs _ := by
    rw [accepted_eq]
    exact hs
  published _ _ _ hs _ _ := hs
  continued _ _ _ hs _ _ := hs

theorem beside_handler (c : CyclicTimer) (s : App) : beside (c.handler s) = beside s := by
  obtain ⟨_, _, _, _, hcalled⟩ := handler_eq c s
  rw [hcalled]
  rfl

theorem beside_call (handler : Handler) (s : App) : beside (handler.call s) = beside s := by
  have hevents := events_beside (beside s)
  cases handler with
  | lwip_cyclic_timer c => exact beside_handler c { s with calls := s.calls.fromTimeout c }
  | tcpip_tcp_timer =>
      refine thenRun_rule (I := fun s' => beside s' = beside s)
        (fun s hs => hevents.tcpEvents _ hs) (fun s hs => ?_) rfl
      unfold restartTcpTimer
      split
      · exact hs
      · exact hs
  | mqtt_cyclic_timer => exact hevents.mqtt_cyclic_timer (fun s hs => hs) rfl

theorem beside_checkTimeout (now : BitVec 32) (s : App) :
    beside (checkTimeout now s).2 = beside s := by
  unfold checkTimeout
  split
  · rfl
  · rename_i e next _
    split
    · rfl
    · exact beside_call e.handler { s with timers := s.timers.pop e.time next }

theorem beside_input (p : Packet) (s : App) : beside (input p s) = beside s := by
  cases p with
  | dns ipaddr =>
      obtain ⟨_, _, _, _, hfound⟩ := dns_call_found_eq ipaddr s
      show beside (dns_call_found ipaddr s) = beside s
      rw [hfound]
      rfl
  | synAck =>
      simp only [input]
      split
      · rfl
      · rfl
  | tcp e => exact (events_beside (beside s)).tcpEvent e rfl
  | other => rfl

/-! ## assertions about the connection -/

/-- The state less the clocks, the timeout list, the oracle and the counters. -/
def core (s : App) : App :=
  { s with
    clock := {}, timers := { free := 0 }, net := {}, at_ := .elsewhere
    lastReconnectAttempt := 0, recorded := [], attempts := [], calls := {}
    client := { s.client with cyclic_tick := 0, server_watchdog := 0, keep_alive := 0 } }

/-- How an attempt to connect can end. -/
theorem connect_cases (s : App) :
    s.client.conn_state ≠ .TCP_DISCONNECTED ∧ core (connect s) = core s ∨
    s.client.conn_state = .TCP_DISCONNECTED ∧
      core (connect s) = core { s with client := { callbacks := s.client.callbacks } } ∨
    s.client.conn_state = .TCP_DISCONNECTED ∧
      core (connect s) = core { s with
        client :=
          { conn := true, conn_state := .TCP_CONNECTING, callbacks := s.client.callbacks }
        myConn := .MQTT_CONNECTING, bSubscribed := false, subscribed := [] } := by
  rcases connect_eq s with ⟨hstate, h⟩ | ⟨hstate, h⟩ | ⟨hstate, h⟩
  · exact .inl ⟨hstate, by rw [h]; rfl⟩
  · exact .inr (.inl ⟨hstate, by rw [h]; rfl⟩)
  · refine .inr (.inr ⟨hstate, ?_⟩)
    rw [h]
    unfold tcp_timer_needed
    split
    · rfl
    · rfl

/-- An assertion about `core`, and the updates that can change it. -/
structure Quiet (I : App → Prop) : Prop where
  core : ∀ s, I (core s) ↔ I s
  start : ∀ pool word net, I (initial pool word net)
  answered : ∀ ipaddr s, I s → I (dns_call_found ipaddr s)
  closed : ∀ reason s, I s → reason ≠ MQTT_CONNECT_ACCEPTED → I (mqtt_close reason s)
  accepted : ∀ s, I s → s.client.conn_state = .MQTT_CONNECTING → I (accepted s)
  published : ∀ (len : BitVec 16) left s, I s → receiving s → s.client.remaining = none →
    I (received len left (announce (left + len.setWidth 32) s))
  continued : ∀ (len : BitVec 16) left s, I s → receiving s → s.client.remaining = some left →
    I (received len (left - len.setWidth 32) s)
  connected : ∀ s, I s → s.client.conn_state = .TCP_CONNECTING → I (mqtt_tcp_connect_cb s)
  startUp : ∀ s, Live I s → s.myConn = .START_UP → I (startUp s)
  connect : ∀ s, Live I s → Retrying s → I (connect s)
  publish : ∀ s, Live I s → s.myConn = .MQTT_CONNECTED → I (publish s)
  subscribe : ∀ s, Live I s → s.myConn = .MQTT_CONNECTED → I (subscribe s)

namespace Quiet

/-- What `core` leaves out may change. -/
theorem frame (h : Quiet I) {s s' : App} (hs : I s) (hcore : App.core s' = App.core s) : I s' := by
  rw [← h.core, hcore, h.core]
  exact hs

theorem events (h : Quiet I) : OnEvents I where
  watch _ _ _ hs := h.frame hs rfl
  closed := h.closed
  accepted := h.accepted
  published := h.published
  continued := h.continued

theorem handler (h : Quiet I) (c : CyclicTimer) {s : App} (hs : I s) : I (c.handler s) := by
  cases c with
  | dns_tmr =>
      show I (dns_tmr s)
      unfold dns_tmr
      split
      · exact h.answered none s hs
      · exact hs
  | ip_reass_tmr => exact hs
  | etharp_tmr => exact hs
  | dhcp_coarse_tmr => exact hs
  | dhcp_fine_tmr => exact hs

theorem call (h : Quiet I) (handler : Handler) {s : App} (hs : I s) : I (handler.call s) := by
  cases handler with
  | lwip_cyclic_timer c =>
      have hcalled : I { s with calls := s.calls.fromTimeout c } := h.frame hs rfl
      exact h.frame (h.handler c hcalled) rfl
  | tcpip_tcp_timer =>
      refine thenRun_rule (fun s hs => h.events.tcpEvents _ hs) (fun s hs => ?_) hs
      unfold restartTcpTimer
      split
      · exact h.frame hs rfl
      · exact h.frame hs rfl
  | mqtt_cyclic_timer => exact h.events.mqtt_cyclic_timer (fun s hs => h.frame hs rfl) hs

theorem checkTimeout (h : Quiet I) (now : BitVec 32) {s : App} (hs : I s) :
    I (checkTimeout now s).2 := by
  unfold App.checkTimeout
  split
  · exact hs
  · split
    · exact hs
    · exact h.call _ (h.frame hs rfl)

theorem input (h : Quiet I) (p : Packet) {s : App} (hs : I s) : I (input p s) := by
  cases p with
  | dns ipaddr => exact h.answered ipaddr s hs
  | synAck =>
      simp only [App.input]
      split
      · rename_i hsyn
        exact h.connected s hs hsyn.2
      · exact hs
  | tcp e => exact h.events.tcpEvent e hs
  | other => exact hs

theorem stable (h : Quiet I) : Stable Env I I where
  env s s' hr hs := by
    cases hr with
    | tick => exact h.frame hs rfl
    | net n => exact h.frame hs rfl
  guard _ hs := hs

theorem kept (h : Quiet I) : Kept I I where
  stable := h.stable
  place _ _ hs := h.frame hs rfl
  startUp := h.startUp
  reconnect := triple_reconnect h.stable (fun _ hs => h.frame hs rfl) h.connect
  mqttTimer _ hs := h.frame hs rfl
  publish := h.publish
  subscribe := h.subscribe
  input p _ hs := h.input p hs.1

theorem keeps_loopTimer (h : Quiet I) (due : App → Bool) (reset : Clock → Clock)
    (c : CyclicTimer) : Keeps I I (loopTimer due reset c) :=
  triple_loopTimer h.stable h.stable h.stable (fun _ hs _ => hs) (fun _ hs => h.frame hs rfl)
    fun _ hs => h.handler c (h.frame hs rfl)

theorem keeps_check (h : Quiet I) (fuel : Nat) : Keeps I I (sys_check_timeouts fuel) :=
  keeps_checkRounds h.stable (fun now _ hs => h.checkTimeout now hs.1) fuel

theorem inv (h : Quiet I) {pool : Nat} {c : Ctl App} {s : App} (hc : Reachable pool (c, s)) :
    Loop.Inv Env I (Live I) (c, s) := by
  refine sound h.stable (fun word net => ?_) (fun fuel => ?_) hc
  · exact keeps_startTimers h.stable (fun _ _ _ hs => h.frame hs rfl) _ _
      ⟨h.start pool word net, rfl⟩
  · exact h.kept.loopBody (h.keeps_loopTimer _ _ _) (h.keeps_loopTimer _ _ _)
      (h.keeps_loopTimer _ _ _) (h.keeps_loopTimer _ _ _) h.keeps_check fuel

/-- **A quiet assertion holds of every reachable state.** -/
theorem holds (h : Quiet I) {pool : Nat} {c : Ctl App} {s : App} (hc : Reachable pool (c, s)) :
    I s :=
  Loop.Inv.guard (stable_live h.stable) (h.inv hc)

end Quiet

/-! ## given inputs -/

/-- One entry of a script. -/
inductive Input where
  | tick
  | net (n : Net)
  /-- The loop body, with nothing beside it. -/
  | round

def perform (fuel : Nat) : List Input → App → Option App
  | [], s => some s
  | .tick :: next, s => perform fuel next (App.tick s)
  | .net n :: next, s => perform fuel next { s with net := n }
  | .round :: next, s => (run (loopBody fuel) s).bind fun r => perform fuel next r.2

/-- The state at the head of the loop when the script has been played. -/
def play (fuel pool : Nat) (word : IpAddr) (script : List Input) : Option App :=
  (run lwip_init (initial pool word {})).bind fun r => perform fuel script r.2

theorem steps_of_perform {fuel : Nat} {script : List Input} {s s' : App}
    (h : perform fuel script s = some s') :
    Loop.Steps Env (loopBody fuel) (.head, s) (.head, s') := by
  induction script generalizing s with
  | nil =>
      obtain rfl : s = s' := Option.some.inj h
      exact .refl
  | cons e next ih =>
      cases e with
      | tick => exact .head (.env .tick) (ih h)
      | net n => exact .head (.env (.net n)) (ih h)
      | round =>
          obtain ⟨⟨u, t⟩, hrun, hnext⟩ := Option.bind_eq_some_iff.mp h
          exact .head .enter ((Loop.steps_of_run Env _ hrun).trans (ih hnext))

theorem steps_of_play {fuel pool : Nat} {word : IpAddr} {script : List Input} {s : App}
    (h : play fuel pool word script = some s) :
    Loop.Steps Env (loopBody fuel) (.run lwip_init, initial pool word {}) (.head, s) := by
  obtain ⟨⟨u, t⟩, hrun, hnext⟩ := Option.bind_eq_some_iff.mp h
  exact (Loop.steps_of_run Env _ hrun).trans (steps_of_perform hnext)

/-- A script shows a state at the head of the loop. -/
theorem exists_of_play {φ : App → Bool} (fuel pool : Nat) (word : IpAddr) (script : List Input)
    (h : (play fuel pool word script).any φ = true) :
    ∃ s, Reachable pool (.head, s) ∧ φ s = true := by
  obtain ⟨s, hs, hφ⟩ := (Option.any_eq_true _ _).mp h
  exact ⟨s, ⟨fuel, word, {}, steps_of_play hs⟩, hφ⟩

/-- A script and `n` actions of the next round show a state inside the body. -/
theorem exists_of_advance {φ : App → Bool} (fuel pool n : Nat) (word : IpAddr)
    (script : List Input)
    (h : (play fuel pool word script).any
      (fun s => φ (advance n (loopBody fuel, s)).2) = true) :
    ∃ p s, Reachable pool (.run p, s) ∧ φ s = true := by
  obtain ⟨s, hs, hφ⟩ := (Option.any_eq_true _ _).mp h
  refine ⟨(advance n (loopBody fuel, s)).1, (advance n (loopBody fuel, s)).2, ?_, hφ⟩
  refine ⟨fuel, word, {}, ((steps_of_play hs).tail .enter).trans ?_⟩
  exact Loop.steps_of_steps _ (steps_advance Env n (loopBody fuel, s))

/-- A round with a tick after `n` of its actions. -/
def tickedRound (fuel n : Nat) (s : App) : Option App :=
  let c := advance n (loopBody fuel, s)
  (run c.1 (tick c.2)).map Prod.snd

theorem steps_of_tickedRound {fuel n : Nat} {s s' : App} (h : tickedRound fuel n s = some s') :
    Loop.Steps Env (loopBody fuel) (.head, s) (.head, s') := by
  obtain ⟨⟨u, t⟩, hrun, rfl⟩ := Option.map_eq_some_iff.mp h
  have hadvance := Loop.steps_of_steps (loopBody fuel) (steps_advance Env n (loopBody fuel, s))
  exact .head .enter ((hadvance.tail (.env .tick)).trans (Loop.steps_of_run Env _ hrun))

/-- A script, such a round and another script show a state at the head of the loop. -/
theorem exists_of_ticked {φ : App → Bool} (fuel pool n : Nat) (word : IpAddr)
    (script next : List Input)
    (h : (((play fuel pool word script).bind (tickedRound fuel n)).bind
      (perform fuel next)).any φ = true) :
    ∃ s, Reachable pool (.head, s) ∧ φ s = true := by
  obtain ⟨s, hs, hφ⟩ := (Option.any_eq_true _ _).mp h
  obtain ⟨t, ht, hnext⟩ := Option.bind_eq_some_iff.mp hs
  obtain ⟨r, hplay, hround⟩ := Option.bind_eq_some_iff.mp ht
  refine ⟨s, ⟨fuel, word, {}, ?_⟩, hφ⟩
  exact ((steps_of_play hplay).trans (steps_of_tickedRound hround)).trans (steps_of_perform hnext)

/-- More than three seconds, and an attempt to connect. -/
def toAttempt : List Input :=
  [.tick, .tick, .tick, .tick, .tick, .tick, .tick, .net {}, .round]

/-- From power-on to the first attempt to connect. -/
def toConnecting : List Input :=
  [.net { dhcp_supplied_address := true }, .round,
    .net { packets := [.dns (some 0x0a000001)] }, .round] ++ toAttempt

/-- The broker accepts, and the application subscribes. -/
def toSubscribed : List Input :=
  [.net { packets := [.synAck, .tcp (.recv [.connack 0])] }, .round, .net {}, .round]

end Enc28j60.App
