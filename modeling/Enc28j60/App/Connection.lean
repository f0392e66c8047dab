import Enc28j60.App.Broker

/-!
# Enc28j60.App.Connection

Two state machines: `myConn` of `main.c` and `conn_state` of `mqtt.c`.  The
connection callback and the assignment after `mqtt_client_connect` keep them in
step (`InStep`) as long as the callback knows the status it is called with; any
other status ends in its `while (1)`.

The second part is the flag `bSubscribed`, which is set before the request it
stands for.
-/

namespace Enc28j60.App

/-! ## agreement -/

/-- `ipObtained` has been given the broker's address. -/
def BrokerKnown (s : App) : Prop := ∃ o ∈ s.dns.outcomes, o.recorded = true

/-- The application and the client agree, and a new attempt is enabled when
there is no connection. -/
structure Agree (s : App) : Prop where
  connected : s.myConn = .MQTT_CONNECTED ↔ s.client.conn_state = .MQTT_CONNECTED
  connecting : s.myConn = .MQTT_CONNECTING ↔
    s.client.conn_state = .TCP_CONNECTING ∨ s.client.conn_state = .MQTT_CONNECTING
  idle : s.myConn ≠ .MQTT_CONNECTED → s.myConn ≠ .MQTT_CONNECTING → Retrying s

/-- What the claim asks of a state: the callback has always returned, the two
machines agree at the head of the switch, and no request was made to a client
that is not connected. -/
structure Coordinated (s : App) : Prop where
  returns : s.hung = false
  agree : s.at_ = .switch → BrokerKnown s → Agree s
  requests : s.misused = false

/-- The state of `mqtt.c` for a state of `main.c`. -/
def Matches : Connection_State → ClientState → Prop
  | .MQTT_CONNECTED, st => st = .MQTT_CONNECTED
  | .MQTT_CONNECTING, st => st = .TCP_CONNECTING ∨ st = .MQTT_CONNECTING
  | _, st => st = .TCP_DISCONNECTED

/-- What holds of every state. -/
structure InStep (c : Connection_State) (st : ClientState) (statuses : List Status)
    (hung misused : Bool) : Prop where
  hung_iff : hung = false ↔ ∀ r ∈ statuses, Handled r
  matched : hung = false → Matches c st
  requests : misused = false

def Coupled (s : App) : Prop :=
  InPhase s ∧ InStep s.myConn s.client.conn_state s.statuses s.hung s.misused

theorem matches_disconnected {c : Connection_State} {status : Status}
    (hstatus : status ≠ MQTT_CONNECT_ACCEPTED) (h : Handled status) :
    Matches (c.after status) .TCP_DISCONNECTED := by
  obtain rfl := h.resolve_left hstatus
  rfl

namespace InStep

variable {c c' : Connection_State} {st st' : ClientState} {rs : List Status} {b m : Bool}

/-- A callback with a status other than acceptance, on a client that is disconnected by then. -/
theorem close {r : Status} (h : InStep c st rs b m) (hr : r ≠ MQTT_CONNECT_ACCEPTED) :
    InStep (c.after r) .TCP_DISCONNECTED (rs ++ [r]) (b || ¬Handled r) m where
  hung_iff := by
    rw [Bool.or_eq_false_iff, h.hung_iff, List.forall_mem_append, List.forall_mem_singleton]
    simp
  matched hlive := by
    rw [Bool.or_eq_false_iff] at hlive
    exact matches_disconnected hr (by simpa using hlive.2)
  requests := h.requests

theorem accept (h : InStep c st rs b m) :
    InStep .MQTT_CONNECTED .MQTT_CONNECTED (rs ++ [MQTT_CONNECT_ACCEPTED]) b m where
  hung_iff := by
    rw [h.hung_iff, List.forall_mem_append, List.forall_mem_singleton]
    exact ⟨fun hrs => ⟨hrs, .inl rfl⟩, And.left⟩
  matched _ := rfl
  requests := h.requests

/-- Both machines move, without a callback. -/
theorem move (h : InStep c st rs b m) (hmatch : Matches c st → Matches c' st') :
    InStep c' st' rs b m where
  hung_iff := h.hung_iff
  matched hlive := hmatch (h.matched hlive)
  requests := h.requests

end InStep

theorem coupled_answered (ipaddr : Option IpAddr) {s : App} (hs : Coupled s) :
    Coupled (dns_call_found ipaddr s) := by
  refine ⟨inPhase_answered ipaddr hs.1, ?_⟩
  unfold dns_call_found
  split
  · rename_i name hquery
    have hphase : InPhase s := hs.1
    unfold InPhase at hphase
    rw [hquery] at hphase
    obtain ⟨rfl, hst, _⟩ := hphase.of_query
    have hmoved : InStep .DNS_IP_OBTAINED s.client.conn_state s.statuses s.hung s.misused :=
      hs.2.move fun _ => hst
    unfold ipObtained
    rw [if_pos rfl]
    cases ipaddr with
    | none => exact hmoved
    | some ip => exact hmoved
  · exact hs.2

theorem coupled_closed {reason : Status} {s : App} (hs : Coupled s)
    (hreason : reason ≠ MQTT_CONNECT_ACCEPTED) : Coupled (mqtt_close reason s) := by
  refine ⟨inPhase_closed reason hs.1, ?_⟩
  rw [mqtt_close_eq]
  dsimp only
  by_cases hst : s.client.conn_state = .TCP_DISCONNECTED
  · have hnot := not_not.mpr hst
    rw [if_neg hnot, if_neg hnot, if_neg hnot, ← hst]
    exact hs.2
  · rw [if_pos hst, if_pos hst, if_pos hst]
    exact hs.2.close hreason

theorem coupled_startUp {s : App} (hs : Coupled s) (hc : s.myConn = .START_UP) :
    Coupled (startUp s) := by
  refine ⟨inPhase_startUp hs.1 hc, ?_⟩
  unfold startUp
  split
  · refine hs.2.move fun h => ?_
    rw [hc] at h
    exact h
  · exact hs.2

theorem coupled_connect {s : App} (hs : Coupled s) (hr : Retrying s) : Coupled (connect s) := by
  refine ⟨inPhase_connect hs.1 hr, ?_⟩
  show InStep (core (connect s)).myConn (core (connect s)).client.conn_state
    (core (connect s)).statuses (core (connect s)).hung (core (connect s)).misused
  rcases connect_cases s with ⟨_, h⟩ | ⟨hst, h⟩ | ⟨_, h⟩ <;> rw [h]
  · exact hs.2
  · refine hs.2.move fun h => ?_
    rw [hst] at h
    exact h
  · exact hs.2.move fun _ => .inl rfl

/-- In `MQTT_CONNECTED` the client is connected. -/
theorem connected_of_coupled {s : App} (hs : Live Coupled s) (hc : s.myConn = .MQTT_CONNECTED) :
    s.client.conn_state = .MQTT_CONNECTED := by
  have hmatch := hs.1.2.matched hs.2
  rw [hc] at hmatch
  exact hmatch

theorem quiet_coupled : Quiet Coupled where
  core _ := .rfl
  start _ _ _ :=
    ⟨.fresh, ⟨⟨fun _ _ h => absurd h List.not_mem_nil, fun _ => rfl⟩, fun _ => rfl, rfl⟩⟩
  answered ipaddr _ hs := coupled_answered ipaddr hs
  closed _ _ hs hreason := coupled_closed hs hreason
  accepted s hs hst := by
    refine ⟨quiet_inPhase.accepted s hs.1 hst, ?_⟩
    rw [accepted_eq]
    exact hs.2.accept
  published _ _ _ hs _ _ := hs
  continued _ _ _ hs _ _ := hs
  connected s hs hst := by
    refine ⟨quiet_inPhase.connected s hs.1 hst, hs.2.move fun h => ?_⟩
    show Matches s.myConn .MQTT_CONNECTING
    rw [hst] at h
    cases hc : s.myConn <;> simp_all [Matches]
  startUp _ hs hc := coupled_startUp hs.1 hc
  connect _ hs hr := coupled_connect hs.1 hr
  publish s hs hc := by
    have hst := connected_of_coupled hs hc
    refine ⟨hs.1.1, hs.1.2.hung_iff, hs.1.2.matched, ?_⟩
    simp [publish, mqtt_publish, request, hs.1.2.requests, hst]
  subscribe s hs hc := by
    have hst := connected_of_coupled hs hc
    refine ⟨quiet_inPhase.subscribe s ⟨hs.1.1, hs.2⟩ hc, ?_⟩
    unfold subscribe
    split
    · refine ⟨hs.1.2.hung_iff, hs.1.2.matched, ?_⟩
      simp [mqtt_subscribe, mqtt_set_inpub_callback, request, hs.1.2.requests, hst]
    · exact hs.1.2

theorem agree_of_coupled {s : App} (hs : Live Coupled s) (hknown : BrokerKnown s) : Agree s := by
  have hmatch := hs.1.2.matched hs.2
  obtain ⟨o, ho, hrec⟩ := hknown
  have hphase : InPhase s := hs.1.1
  have hpast := hphase.of_recorded ho hrec
  cases hc : s.myConn with
  | START_UP => exact absurd hc hpast.1
  | DHCP_IP_RECEIVED => exact absurd hc hpast.2
  | DNS_IP_OBTAINED =>
      rw [hc] at hmatch
      have hst : s.client.conn_state = .TCP_DISCONNECTED := hmatch
      exact ⟨by simp [hc, hst], by simp [hc, hst], fun _ _ => .inl hc⟩
  | MQTT_CONNECTING =>
      rw [hc] at hmatch
      refine ⟨?_, ⟨fun _ => hmatch, fun _ => hc⟩, fun _ h => absurd hc h⟩
      rw [hc]
      rcases hmatch with h | h <;> rw [h] <;> simp
  | MQTT_CONNECTED =>
      rw [hc] at hmatch
      have hst : s.client.conn_state = .MQTT_CONNECTED := hmatch
      exact ⟨by simp [hc, hst], by simp [hc, hst], fun h _ => absurd hc h⟩
  | MQTT_DISCONNECTED =>
      rw [hc] at hmatch
      have hst : s.client.conn_state = .TCP_DISCONNECTED := hmatch
      exact ⟨by simp [hc, hst], by simp [hc, hst], fun _ _ => .inr hc⟩

/-- In every state the firmware reaches, the two machines are coordinated exactly
if the client has only reported acceptance and disconnection so far: no refusal
code of the broker, and no timeout. -/
theorem coordinated_iff {pool : Nat} {c : Ctl App} {s : App} (h : Reachable pool (c, s)) :
    Coordinated s ↔ ∀ r ∈ s.statuses, Handled r := by
  have hs : Coupled s := quiet_coupled.holds h
  rw [← hs.2.hung_iff]
  constructor
  · exact fun hco => hco.returns
  · exact fun hlive => ⟨hlive, fun _ hknown => agree_of_coupled ⟨hs, hlive⟩ hknown, hs.2.requests⟩

/-- The broker accepts, and closes the connection later. -/
theorem coordinated_disconnected :
    ∃ s, Reachable 6 (.head, s) ∧ s.myConn = .MQTT_DISCONNECTED ∧ Coordinated s := by
  obtain ⟨s, hs, hφ⟩ := exists_of_play
    (φ := fun s => s.myConn = .MQTT_DISCONNECTED ∧ s.statuses = [0, 256])
    10 6 0x20018000
    (toConnecting ++
      [.net { packets := [.synAck, .tcp (.recv [.connack 0])] }, .round,
        .net { packets := [.tcp .fin] }, .round])
    (by decide +kernel)
  obtain ⟨hc, hr⟩ := of_decide_eq_true hφ
  refine ⟨s, hs, hc, (coordinated_iff hs).mpr ?_⟩
  rw [hr]
  exact List.forall_mem_cons.mpr ⟨.inl rfl, List.forall_mem_singleton.mpr (.inr rfl)⟩

/-- The broker refuses with code 5, "not authorized", and the callback never
returns. -/
theorem not_coordinated_refused :
    ∃ p s, Reachable 6 (.run p, s) ∧ s.statuses = [5] ∧ s.hung = true ∧ ¬Coordinated s := by
  obtain ⟨p, s, hs, hφ⟩ := exists_of_advance (φ := fun s => s.statuses = [5] ∧ s.hung = true)
    10 6 100 0x20018000
    (toConnecting ++ [.net { packets := [.synAck, .tcp (.recv [.connack 5])] }])
    (by decide +kernel)
  obtain ⟨hr, hhung⟩ := of_decide_eq_true hφ
  refine ⟨p, s, hs, hr, hhung, fun hco => ?_⟩
  exact Bool.noConfusion (hhung.symm.trans hco.returns)

/-! ## the subscription flag -/

/-- What the claim asks of a state with a connection. -/
structure Subscribed (s : App) : Prop where
  flag : s.bSubscribed = true → .ERR_OK ∈ s.subscribed
  /-- A request that failed is made again. -/
  retried : ∀ e, s.subscribed.getLast? = some e → e ≠ .ERR_OK → s.bSubscribed = false
  /-- So is one that was not made on this connection. -/
  fresh : s.subscribed = [] → s.bSubscribed = false

/-- The flag counts the requests of a connection. -/
def OneRequest (s : App) : Prop :=
  if s.bSubscribed then ∃ e, s.subscribed = [e] else s.subscribed = []

theorem oneRequest_subscribe {s : App} (hs : OneRequest s) : OneRequest (subscribe s) := by
  unfold subscribe
  split
  · rename_i hflag
    unfold OneRequest at hs
    rw [hflag] at hs
    have hnone : s.subscribed = [] := hs
    refine ⟨(mqtt_subscribe (mqtt_set_inpub_callback { s with bSubscribed := true })).1, ?_⟩
    dsimp only
    rw [hnone]
    rfl
  · exact hs

theorem quiet_oneRequest : Quiet OneRequest where
  core _ := .rfl
  start _ _ _ := rfl
  answered ipaddr s hs := by
    unfold dns_call_found ipObtained
    split
    · split
      · cases ipaddr with
        | none => exact hs
        | some ip => exact hs
      · exact hs
    · exact hs
  closed _ s hs _ := by
    rw [mqtt_close_eq]
    exact hs
  accepted s hs _ := by
    rw [accepted_eq]
    exact hs
  published _ _ _ hs _ _ := hs
  continued _ _ _ hs _ _ := hs
  connected _ hs _ := hs
  startUp s hs _ := by
    unfold startUp
    split
    · exact hs.1
    · exact hs.1
  connect s hs _ := by
    show OneRequest (core (connect s))
    rcases connect_cases s with ⟨_, h⟩ | ⟨_, h⟩ | ⟨_, h⟩ <;> rw [h]
    · exact hs.1
    · exact hs.1
    · exact rfl
  publish _ hs _ := hs.1
  subscribe _ hs _ := oneRequest_subscribe hs.1

/-- In every state the firmware reaches, the flag is right exactly if no request
of this connection has failed. -/
theorem subscribed_iff {pool : Nat} {c : Ctl App} {s : App} (h : Reachable pool (c, s)) :
    Subscribed s ↔ ∀ e ∈ s.subscribed, e = .ERR_OK := by
  have hs : OneRequest s := quiet_oneRequest.holds h
  unfold OneRequest at hs
  cases hflag : s.bSubscribed with
  | false =>
      rw [hflag] at hs
      have hnone : s.subscribed = [] := hs
      refine iff_of_true ⟨fun h => ?_, fun _ _ _ => hflag, fun _ => hflag⟩ ?_
      · rw [hflag] at h
        cases h
      · rw [hnone]
        exact fun e he => absurd he List.not_mem_nil
  | true =>
      rw [hflag] at hs
      obtain ⟨e, he⟩ : ∃ e, s.subscribed = [e] := hs
      rw [he, List.forall_mem_singleton]
      constructor
      · intro hsub
        have hmem := hsub.flag hflag
        rw [he, List.mem_singleton] at hmem
        exact hmem.symm
      · rintro rfl
        refine ⟨fun _ => ?_, fun e' he' hne => ?_, fun hnil => ?_⟩
        · rw [he]
          exact List.mem_singleton_self _
        · rw [he] at he'
          exact absurd (Option.some.inj he').symm hne
        · rw [he] at hnil
          cases hnil

/-- The request is accepted. -/
theorem subscribed_accepted :
    ∃ s, Reachable 6 (.head, s) ∧ s.myConn = .MQTT_CONNECTED ∧ s.bSubscribed = true ∧
      Subscribed s := by
  obtain ⟨s, hs, hφ⟩ := exists_of_play
    (φ := fun s => (s.myConn = .MQTT_CONNECTED ∧ s.bSubscribed = true) ∧
      ∀ e ∈ s.subscribed, e = .ERR_OK)
    10 6 0x20018000
    (toConnecting ++ toSubscribed)
    (by decide +kernel)
  obtain ⟨⟨hc, hflag⟩, he⟩ := of_decide_eq_true hφ
  exact ⟨s, hs, hc, hflag, (subscribed_iff hs).mpr he⟩

/-- No memory for the request; the flag says that it was made. -/
theorem not_subscribed_mem :
    ∃ s, Reachable 6 (.head, s) ∧ s.myConn = .MQTT_CONNECTED ∧ s.bSubscribed = true ∧
      s.subscribed = [.ERR_MEM] ∧ ¬Subscribed s := by
  obtain ⟨s, hs, hφ⟩ := exists_of_play
    (φ := fun s => s.myConn = .MQTT_CONNECTED ∧ s.bSubscribed = true ∧ s.subscribed = [.ERR_MEM])
    10 6 0x20018000
    (toConnecting ++
      [.net { packets := [.synAck, .tcp (.recv [.connack 0])] }, .round,
        .net { subscribeResult := .ERR_MEM }, .round])
    (by decide +kernel)
  obtain ⟨hc, hflag, he⟩ := of_decide_eq_true hφ
  refine ⟨s, hs, hc, hflag, he, fun hsub => ?_⟩
  have hok := hsub.flag hflag
  rw [he] at hok
  cases List.mem_singleton.mp hok

end Enc28j60.App
