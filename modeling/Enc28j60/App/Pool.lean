import Enc28j60.App.Runs

/-!
# Enc28j60.App.Pool

The pool behind `sys_timeout`.

This configuration gives it one element for each timer of the core stack.  The
five cyclic timers hold theirs for ever, and the TCP timer runs whenever there is
a connection (`Filled`), so the client's timer, which is only ever started on a
connection, never finds one.
-/

namespace Enc28j60.App

open Deadlines Res

/-! ## the configuration -/

def LWIP_TCP : Nat := 1
def IP_REASSEMBLY : Nat := 1
def LWIP_ARP : Nat := 1
def LWIP_DHCP : Nat := 1
def LWIP_ACD : Nat := 0
def LWIP_IGMP : Nat := 0
def LWIP_DNS : Nat := 1

/-- The default of `opt.h`, which `lwipopts.h` leaves. -/
def MEMP_NUM_SYS_TIMEOUT : Nat :=
  LWIP_TCP + IP_REASSEMBLY + LWIP_ARP + 2 * LWIP_DHCP + LWIP_ACD + LWIP_IGMP + LWIP_DNS

/-! ## what is asked for -/

/-- The application waits for the broker's answer, or has it. -/
def Connecting (s : App) : Prop := s.myConn = .MQTT_CONNECTING ∨ s.myConn = .MQTT_CONNECTED

/-- Each request has found an element, and the client's timer is pending on a
connection. -/
structure Provided (s : App) : Prop where
  granted : ∀ r ∈ s.timers.requests, r.2 = true
  keepAlive : Connecting s → .mqtt_cyclic_timer ∈ handlers s.timers.next_timeout

/-! ## the pool -/

/-- The pending handlers are `hs`, the rest of the pool is free, and so far only
the client's requests were dropped. -/
structure Filled (t : Timers) (hs : List Handler) : Prop where
  pending : (handlers t.next_timeout).Perm hs
  size : hs.length + t.free = MEMP_NUM_SYS_TIMEOUT
  requests : ∀ r ∈ t.requests, r.2 = true ↔ r.1 ≠ .mqtt_cyclic_timer

namespace Filled

variable {t : Timers} {hs hs' : List Handler} {h : Handler} {a : BitVec 32}

theorem perm (hf : Filled t hs) (hperm : hs.Perm hs') : Filled t hs' where
  pending := hf.pending.trans hperm
  size := hperm.length_eq ▸ hf.size
  requests := hf.requests

/-- There is room for a timer of the core. -/
theorem grant (hf : Filled t hs) (hroom : hs.length < MEMP_NUM_SYS_TIMEOUT)
    (hcore : h ≠ .mqtt_cyclic_timer) : Filled (t.sys_timeout_abs a h) (h :: hs) := by
  have hsize := hf.size
  have hfree : t.free ≠ 0 := by omega
  unfold Timers.sys_timeout_abs
  rw [if_neg hfree]
  refine ⟨(handlers_insert _ _).trans (hf.pending.cons h), ?_, ?_⟩
  · rw [List.length_cons]
    dsimp only
    omega
  · intro r hr
    rcases List.mem_append.mp hr with hr | hr
    · exact hf.requests r hr
    · rw [List.mem_singleton.mp hr]
      exact iff_of_true rfl hcore

/-- The pool is empty, and a request of the client is dropped. -/
theorem drop (hf : Filled t hs) (hfull : hs.length = MEMP_NUM_SYS_TIMEOUT) :
    Filled (t.sys_timeout_abs a .mqtt_cyclic_timer) hs := by
  have hsize := hf.size
  have hfree : t.free = 0 := by omega
  unfold Timers.sys_timeout_abs
  rw [if_pos hfree]
  refine ⟨hf.pending, hsize, ?_⟩
  intro r hr
  rcases List.mem_append.mp hr with hr | hr
  · exact hf.requests r hr
  · rw [List.mem_singleton.mp hr]
    exact iff_of_false nofun fun hne => hne rfl

/-- The head of the list is taken off. -/
theorem pop {due : BitVec 32} {next : List Timeout} (hf : Filled t (h :: hs))
    (hlist : t.next_timeout = ⟨due, h⟩ :: next) : Filled (t.pop due next) hs where
  pending := by
    have hpending := hf.pending
    rw [hlist] at hpending
    exact hpending.cons_inv
  size := by
    have hsize := hf.size
    rw [List.length_cons] at hsize
    show hs.length + (t.free + 1) = _
    omega
  requests := hf.requests

/-- A pending handler is one of `hs`. -/
theorem head {due : BitVec 32} {next : List Timeout} (hf : Filled t hs)
    (hlist : t.next_timeout = ⟨due, h⟩ :: next) : h ∈ hs := by
  refine hf.pending.subset ?_
  rw [hlist]
  exact List.mem_cons_self

/-- There is no request of the client to take back. -/
theorem untimeout (hf : Filled t hs) (hnone : .mqtt_cyclic_timer ∉ hs) :
    t.sys_untimeout .mqtt_cyclic_timer = t := by
  unfold Timers.sys_untimeout
  rw [if_neg]
  intro hany
  obtain ⟨e, he, heq⟩ := List.any_eq_true.mp hany
  refine hnone (hf.pending.subset ?_)
  rw [← of_decide_eq_true heq]
  exact List.mem_map_of_mem he

end Filled

/-! ## the pending timers -/

/-- The cyclic timers `cs`, and the TCP timer when it is active. -/
def running (cs : List CyclicTimer) (tcp : Bool) : List Handler :=
  cs.map .lwip_cyclic_timer ++ if tcp then [.tcpip_tcp_timer] else []

theorem not_mem_running (cs : List CyclicTimer) (tcp : Bool) :
    .mqtt_cyclic_timer ∉ running cs tcp := by
  unfold running
  cases tcp <;> simp

theorem length_running (cs : List CyclicTimer) (tcp : Bool) :
    (running cs tcp).length = cs.length + if tcp then 1 else 0 := by
  unfold running
  cases tcp <;> simp

/-- The TCP timer runs whenever there is a connection. -/
structure Pooled (cs : List CyclicTimer) (s : App) : Prop where
  filled : Filled s.timers (running cs s.timers.tcpip_tcp_timer_active)
  active : s.client.conn = true → s.timers.tcpip_tcp_timer_active = true

/-- What is true even when a callback hangs in the middle of a timer: only the
client's requests were dropped, and its timer is not pending. -/
structure Guarded (s : App) : Prop where
  requests : ∀ r ∈ s.timers.requests, r.2 = true ↔ r.1 ≠ .mqtt_cyclic_timer
  absent : .mqtt_cyclic_timer ∉ handlers s.timers.next_timeout

/-- With the cyclic timers `cs` started. -/
def Started (cs : List CyclicTimer) (s : App) : Prop :=
  Guarded s ∧ (s.hung = false → Pooled cs s)

theorem Filled.guarded {s : App} {hs : List Handler} (hf : Filled s.timers hs)
    (hnone : .mqtt_cyclic_timer ∉ hs) : Guarded s :=
  ⟨hf.requests, fun hmem => hnone (hf.pending.subset hmem)⟩

theorem Pooled.started {cs : List CyclicTimer} {s : App} (hs : Pooled cs s) : Started cs s :=
  ⟨hs.filled.guarded (not_mem_running _ _), fun _ => hs⟩

/-- The timer list and the connection have not changed. -/
theorem Pooled.same {cs : List CyclicTimer} {s s' : App} (hs : Pooled cs s)
    (htimers : s'.timers = s.timers) (hconn : s'.client.conn = s.client.conn) : Pooled cs s' := by
  refine ⟨?_, ?_⟩
  · rw [htimers]
    exact hs.filled
  · rw [htimers, hconn]
    exact hs.active

theorem events_pooled (cs : List CyclicTimer) : OnEvents (Pooled cs) where
  watch _ _ _ hs := hs.same rfl rfl
  closed _ s hs _ := by
    have htimers := hs.filled.untimeout (not_mem_running _ _)
    rw [mqtt_close_eq, htimers]
    exact ⟨hs.filled, nofun⟩
  accepted _ hs _ := by
    rw [accepted_eq]
    exact hs.same rfl rfl
  published _ _ _ hs _ _ := hs.same rfl rfl
  continued _ _ _ hs _ _ := hs.same rfl rfl

/-- A query that ends changes neither. -/
theorem pooled_answered {cs : List CyclicTimer} (ipaddr : Option IpAddr) {s : App}
    (hs : Pooled cs s) : Pooled cs (dns_call_found ipaddr s) := by
  obtain ⟨_, _, _, _, hfound⟩ := dns_call_found_eq ipaddr s
  rw [hfound]
  exact hs.same rfl rfl

/-- The TCP timer is started, from a list of five at most. -/
theorem pooled_armTcp {cs : List CyclicTimer} {s : App} (hcs : cs.length = 5)
    (hf : Filled s.timers (running cs false)) (hactive : s.timers.tcpip_tcp_timer_active = true) :
    Pooled cs (sys_timeout 250 .tcpip_tcp_timer s) := by
  have hroom : (running cs false).length < MEMP_NUM_SYS_TIMEOUT := by
    rw [length_running, hcs]
    decide
  have hgrant := hf.grant (a := s.clock.millisec + 250) hroom
    (h := .tcpip_tcp_timer) nofun
  have hstill : (sys_timeout 250 .tcpip_tcp_timer s).timers.tcpip_tcp_timer_active = true :=
    (sys_timeout_abs_active _ _ _).trans hactive
  refine ⟨?_, fun _ => hstill⟩
  rw [hstill]
  refine hgrant.perm ?_
  unfold running
  rw [if_neg nofun, List.append_nil, if_pos rfl]
  exact (List.perm_append_singleton _ _).symm

theorem pooled_needed {cs : List CyclicTimer} {s : App} (hcs : cs.length = 5)
    (hf : Filled s.timers (running cs s.timers.tcpip_tcp_timer_active))
    (hconn : s.client.conn = true) : Pooled cs (tcp_timer_needed s) := by
  unfold tcp_timer_needed
  cases hactive : s.timers.tcpip_tcp_timer_active with
  | true =>
      rw [if_neg (by simp)]
      rw [hactive] at hf
      exact ⟨by rw [hactive]; exact hf, fun _ => hactive⟩
  | false =>
      have hpcbs : pcbs s = true := by simp [pcbs, hconn]
      rw [if_pos ⟨nofun, hpcbs⟩]
      rw [hactive] at hf
      exact pooled_armTcp hcs ⟨hf.pending, hf.size, hf.requests⟩ rfl

theorem pooled_connect {cs : List CyclicTimer} {s : App} (hcs : cs.length = 5)
    (hs : Pooled cs s) : Pooled cs (connect s) := by
  rcases connect_eq s with ⟨_, h⟩ | ⟨_, h⟩ | ⟨_, h⟩ <;> rw [h]
  · exact hs.same rfl rfl
  · exact ⟨hs.filled, nofun⟩
  · have hneeded := pooled_needed (s := { s with
      attempts := s.attempts ++ [s.clock.ticks]
      client := { conn := true, keep_alive := 60, callbacks := s.client.callbacks } })
      hcs hs.filled rfl
    exact hneeded.same rfl rfl

/-- The client's timer is requested on a connection, when the pool is empty. -/
theorem pooled_connected {cs : List CyclicTimer} {s : App} (hcs : cs.length = 5)
    (hs : Pooled cs s) (hconn : s.client.conn = true) : Pooled cs (mqtt_tcp_connect_cb s) := by
  have hactive := hs.active hconn
  have hfilled := hs.filled
  have hfull : (running cs s.timers.tcpip_tcp_timer_active).length = MEMP_NUM_SYS_TIMEOUT := by
    rw [length_running, hactive, hcs]
    rfl
  have hdrop := hfilled.drop (a := s.clock.millisec + 5000) hfull
  have hstill := sys_timeout_abs_active (s.clock.millisec + 5000) .mqtt_cyclic_timer s.timers
  refine ⟨?_, fun _ => hstill.trans hactive⟩
  rw [← hstill] at hdrop
  exact hdrop

/-- A cyclic timer gives its element back before it runs, and has it again. -/
theorem pooled_cyclic {cs : List CyclicTimer} {s : App} {c : CyclicTimer} {t : BitVec 32}
    {next : List Timeout} (hcs : cs.length = 5) (hs : Pooled cs s)
    (hlist : s.timers.next_timeout = ⟨t, .lwip_cyclic_timer c⟩ :: next) :
    Pooled cs (lwip_cyclic_timer c { s with timers := s.timers.pop t next }) := by
  have hmem := hs.filled.head hlist
  have hperm := List.perm_cons_erase hmem
  have hpopped := (hs.filled.perm hperm).pop hlist
  have hroom : ((running cs s.timers.tcpip_tcp_timer_active).erase
      (.lwip_cyclic_timer c)).length < MEMP_NUM_SYS_TIMEOUT := by
    have hlen := length_running cs s.timers.tcpip_tcp_timer_active
    have hpos := List.length_pos_of_mem hmem
    rw [List.length_erase_of_mem hmem, hlen, hcs]
    split <;> decide
  unfold lwip_cyclic_timer
  dsimp only
  obtain ⟨_, _, _, _, hcalled⟩ := handler_eq c
    { s with timers := s.timers.pop t next, calls := s.calls.fromTimeout c }
  rw [hcalled]
  refine ⟨?_, ?_⟩
  · rw [sys_timeout_abs_active]
    exact (hpopped.grant (h := .lwip_cyclic_timer c) hroom nofun).perm hperm.symm
  · rw [sys_timeout_abs_active]
    exact hs.active

/-- While `tcp_tmr` runs, the TCP timer is active and not pending. -/
structure InTcpTimer (cs : List CyclicTimer) (s : App) : Prop where
  filled : Filled s.timers (running cs false)
  active : s.timers.tcpip_tcp_timer_active = true

theorem events_inTcpTimer (cs : List CyclicTimer) : OnEvents (InTcpTimer cs) where
  watch _ _ _ hs := ⟨hs.filled, hs.active⟩
  closed _ s hs _ := by
    have htimers := hs.filled.untimeout (not_mem_running _ _)
    rw [mqtt_close_eq, htimers]
    exact ⟨hs.filled, hs.active⟩
  accepted _ hs _ := by
    rw [accepted_eq]
    exact ⟨hs.filled, hs.active⟩
  published _ _ _ hs _ _ := ⟨hs.filled, hs.active⟩
  continued _ _ _ hs _ _ := ⟨hs.filled, hs.active⟩

theorem started_tcpTimer {cs : List CyclicTimer} {s : App} (hcs : cs.length = 5)
    (hs : InTcpTimer cs s) : Started cs (tcpip_tcp_timer s) := by
  have hevents := (events_inTcpTimer cs).tcpEvents s.net.tmrEvents hs
  unfold tcpip_tcp_timer thenRun
  split
  · rename_i hhung
    exact ⟨hevents.filled.guarded (not_mem_running _ _), fun hlive =>
      Bool.noConfusion (hlive.symm.trans hhung)⟩
  · refine Pooled.started ?_
    unfold restartTcpTimer
    split
    · exact pooled_armTcp hcs hevents.filled hevents.active
    · rename_i hpcbs
      have hconn : (tcpEvents s.net.tmrEvents s).client.conn = false := by
        unfold pcbs at hpcbs
        rw [Bool.not_eq_true, Bool.or_eq_false_iff] at hpcbs
        exact hpcbs.1
      exact ⟨⟨hevents.filled.pending, hevents.filled.size, hevents.filled.requests⟩,
        fun h => Bool.noConfusion (h.symm.trans hconn)⟩

theorem started_checkTimeout {cs : List CyclicTimer} {now : BitVec 32} {s : App}
    (hcs : cs.length = 5) (hs : Pooled cs s) : Started cs (checkTimeout now s).2 := by
  unfold checkTimeout
  split
  · exact hs.started
  · rename_i e next hlist
    split
    · exact hs.started
    · obtain ⟨t, h⟩ := e
      have hmem := hs.filled.head hlist
      cases h with
      | lwip_cyclic_timer c => exact (pooled_cyclic hcs hs hlist).started
      | tcpip_tcp_timer =>
          have hactive : s.timers.tcpip_tcp_timer_active = true := by
            by_contra hoff
            rw [Bool.not_eq_true] at hoff
            rw [hoff] at hmem
            simp [running] at hmem
          have hfilled := hs.filled
          rw [hactive] at hfilled
          have hperm : (running cs true).Perm (.tcpip_tcp_timer :: running cs false) := by
            unfold running
            rw [if_pos rfl, if_neg nofun, List.append_nil]
            exact List.perm_append_singleton _ _
          have hpopped := (hfilled.perm hperm).pop hlist
          exact started_tcpTimer hcs ⟨hpopped, hactive⟩
      | mqtt_cyclic_timer => exact absurd hmem (not_mem_running _ _)

/-! ## runs -/

theorem Started.pooled {cs : List CyclicTimer} {s : App} (hs : Live (Started cs) s) :
    Pooled cs s :=
  hs.1.2 hs.2

theorem Started.same {cs : List CyclicTimer} {s s' : App} (hs : Started cs s)
    (htimers : s'.timers = s.timers) (hconn : s'.client.conn = s.client.conn)
    (hhung : s'.hung = s.hung) : Started cs s' := by
  refine ⟨?_, fun h => (hs.2 (hhung.symm.trans h)).same htimers hconn⟩
  obtain ⟨hrequests, habsent⟩ := hs.1
  rw [← htimers] at hrequests habsent
  exact ⟨hrequests, habsent⟩

theorem stable_started (cs : List CyclicTimer) : Stable Env Guarded (Started cs) where
  env s s' hr hs := by
    cases hr with
    | tick => exact hs.same rfl rfl rfl
    | net n => exact hs.same rfl rfl rfl
  guard _ hs := hs.1

theorem started_input {cs : List CyclicTimer} (hcs : cs.length = 5) (p : Packet) {s : App}
    (hs : Pooled cs s) : Started cs (input p s) := by
  cases p with
  | dns ipaddr => exact (pooled_answered ipaddr hs).started
  | synAck =>
      simp only [input]
      split
      · rename_i hsyn
        exact (pooled_connected hcs hs hsyn.1).started
      · exact hs.started
  | tcp e => exact ((events_pooled cs).tcpEvent e hs).started
  | other => exact hs.started

theorem kept_started {cs : List CyclicTimer} (hcs : cs.length = 5) :
    Kept Guarded (Started cs) where
  stable := stable_started cs
  place _ _ hs := hs.same rfl rfl rfl
  startUp s hs _ := by
    unfold startUp
    split
    · exact hs.1.same rfl rfl rfl
    · exact hs.1
  reconnect := triple_reconnect (stable_started cs) (fun _ hs => hs.same rfl rfl rfl)
    fun _ hs _ => (pooled_connect hcs (Started.pooled hs)).started
  mqttTimer _ hs := hs.same rfl rfl rfl
  publish _ hs _ := hs.1.same rfl rfl rfl
  subscribe s hs _ := by
    unfold subscribe
    split
    · exact hs.1.same rfl rfl rfl
    · exact hs.1
  input p _ hs := started_input hcs p (Started.pooled hs)

theorem keeps_timer {cs : List CyclicTimer} (due : App → Bool) (reset : Clock → Clock)
    (c : CyclicTimer) : Keeps Guarded (Started cs) (loopTimer due reset c) := by
  refine triple_loopTimer (stable_started cs) (stable_started cs) (stable_started cs)
    (fun _ hs _ => hs) (fun _ hs => hs.same rfl rfl rfl) fun s hs => ?_
  obtain ⟨_, _, _, _, hcalled⟩ := handler_eq c { s with calls := s.calls.fromLoop c }
  unfold loopCall
  rw [hcalled]
  exact hs.same rfl rfl rfl

theorem keeps_timeouts {cs : List CyclicTimer} (hcs : cs.length = 5) (fuel : Nat) :
    Keeps Guarded (Started cs) (sys_check_timeouts fuel) :=
  keeps_checkRounds (stable_started cs)
    (fun _ _ hs => started_checkTimeout hcs (Started.pooled hs)) fuel

/-- `sys_timeouts_init` finds an element for each of its timers. -/
theorem triple_start (started : List CyclicTimer) (cs : List CyclicTimer)
    (hlen : started.length + cs.length = 5) :
    Triple Env Guarded (Live (Started started)) (startTimers cs)
      fun _ => Live (Started (cs.reverse ++ started)) := by
  induction cs generalizing started with
  | nil => exact keeps_pure (stable_started started)
  | cons c cs ih =>
      rw [List.length_cons] at hlen
      have hnext := ih (c :: started) (by rw [List.length_cons]; omega)
      rw [List.reverse_cons, List.append_assoc, List.singleton_append]
      refine Triple.bind (triple_modify (stable_live (stable_started _))
        (stable_live (stable_started (c :: started))) fun s hs => ⟨?_, hs.2⟩) fun _ => hnext
      refine Pooled.started ?_
      have hpooled := Started.pooled hs
      have hroom : (running started s.timers.tcpip_tcp_timer_active).length <
          MEMP_NUM_SYS_TIMEOUT := by
        rw [length_running]
        unfold MEMP_NUM_SYS_TIMEOUT LWIP_TCP IP_REASSEMBLY LWIP_ARP LWIP_DHCP LWIP_ACD LWIP_IGMP
          LWIP_DNS
        split <;> omega
      have hgrant := hpooled.filled.grant (h := .lwip_cyclic_timer c)
        (a := s.clock.millisec + BitVec.ofNat 32 c.interval_ms) hroom nofun
      have hstill := sys_timeout_abs_active (s.clock.millisec + BitVec.ofNat 32 c.interval_ms)
        (.lwip_cyclic_timer c) s.timers
      refine ⟨?_, fun h => hstill.trans (hpooled.active h)⟩
      rw [← hstill] at hgrant
      exact hgrant

theorem guarded_of_reachable {c : Ctl App} {s : App}
    (h : Reachable MEMP_NUM_SYS_TIMEOUT (c, s)) : Guarded s := by
  have hcs : (lwip_cyclic_timers.reverse ++ []).length = 5 := rfl
  refine Loop.Inv.guard (stable_live (stable_started (lwip_cyclic_timers.reverse ++ [])))
    (sound (stable_started (lwip_cyclic_timers.reverse ++ [])) (fun word net => ?_)
      (fun fuel => ?_) h)
  · have hfilled : Filled (initial MEMP_NUM_SYS_TIMEOUT word net).timers (running [] false) :=
      ⟨.refl _, rfl, nofun⟩
    have hpooled : Pooled [] (initial MEMP_NUM_SYS_TIMEOUT word net) := ⟨hfilled, nofun⟩
    exact triple_start [] lwip_cyclic_timers rfl _ ⟨hpooled.started, rfl⟩
  · exact (kept_started hcs).loopBody (keeps_timer _ _ _) (keeps_timer _ _ _) (keeps_timer _ _ _)
      (keeps_timer _ _ _) (keeps_timeouts hcs) fuel

/-! ## the result -/

/-- In every state the firmware reaches, the pool has provided for all requests
exactly if the client has made none and there is no connection for it to watch. -/
theorem provided_iff {c : Ctl App} {s : App} (h : Reachable MEMP_NUM_SYS_TIMEOUT (c, s)) :
    Provided s ↔
      (∀ r ∈ s.timers.requests, r.1 ≠ .mqtt_cyclic_timer) ∧ ¬Connecting s := by
  obtain ⟨hrequests, habsent⟩ := guarded_of_reachable h
  constructor
  · intro hp
    exact ⟨fun r hr => (hrequests r hr).mp (hp.granted r hr), fun hc => habsent (hp.keepAlive hc)⟩
  · rintro ⟨hnone, hc⟩
    exact ⟨fun r hr => (hrequests r hr).mpr (hnone r hr), fun hconn => absurd hconn hc⟩

/-- Waiting for DNS, with the five cyclic timers running. -/
theorem provided_startUp : ∃ s, Reachable MEMP_NUM_SYS_TIMEOUT (.head, s) ∧
    s.timers.requests.length = 6 ∧ Provided s := by
  obtain ⟨s, hs, hφ⟩ := exists_of_play
    (φ := fun s => s.timers.requests.length = 6 ∧
      (∀ r ∈ s.timers.requests, r.1 ≠ .mqtt_cyclic_timer) ∧ s.myConn = .DHCP_IP_RECEIVED)
    10 MEMP_NUM_SYS_TIMEOUT 0x20018000
    [.net { dhcp_supplied_address := true }, .tick, .round] (by decide +kernel)
  obtain ⟨hlen, hnone, hc⟩ := of_decide_eq_true hφ
  refine ⟨s, hs, hlen, (provided_iff hs).mpr ⟨hnone, ?_⟩⟩
  rintro (h | h) <;> rw [hc] at h <;> cases h

/-- A connection: the client's timer is requested, and dropped. -/
theorem not_provided_connection : ∃ s, Reachable MEMP_NUM_SYS_TIMEOUT (.head, s) ∧
    s.myConn = .MQTT_CONNECTED ∧ (.mqtt_cyclic_timer, false) ∈ s.timers.requests ∧
      ¬Provided s := by
  obtain ⟨s, hs, hφ⟩ := exists_of_play
    (φ := fun s => s.myConn = .MQTT_CONNECTED ∧
      (.mqtt_cyclic_timer, false) ∈ s.timers.requests)
    10 MEMP_NUM_SYS_TIMEOUT 0x20018000 (toConnecting ++ toSubscribed) (by decide +kernel)
  obtain ⟨hc, hdropped⟩ := of_decide_eq_true hφ
  exact ⟨s, hs, hc, hdropped, fun hp => Bool.noConfusion (hp.granted _ hdropped)⟩

end Enc28j60.App
