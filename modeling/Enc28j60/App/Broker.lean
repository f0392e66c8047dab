import Enc28j60.App.Runs

/-!
# Enc28j60.App.Broker

The address of the broker: one call of `dns_gethostbyname`, whose result the
state machine does not look at, and the callback `ipObtained`, which does not
look at its argument.

A run is in one of four phases (`Phase`).  Two of them are dead ends: the query
was never started, and nothing will start it again; or it ended without an
address, and `mqttBroker.ip` holds what is stored at address 0.
-/

namespace Enc28j60.App

/-! ## what is asked for -/

/-- The state machine is past the resolution. -/
def PastDns (c : Connection_State) : Prop := c ≠ .START_UP ∧ c ≠ .DHCP_IP_RECEIVED

/-- The address an outcome delivers. -/
def DnsOutcome.address : DnsOutcome → Option IpAddr
  | returned err addr => if err = .ERR_OK then some addr else none
  | called ipaddr => ipaddr

/-- `ipObtained` was given an address. -/
def DnsOutcome.recorded : DnsOutcome → Bool
  | returned _ _ => false
  | called ipaddr => ipaddr.isSome

/-- The outcomes the code is written for: a query under way, and its answer. -/
def DnsOutcome.expected : DnsOutcome → Bool
  | returned err _ => err = .ERR_INPROGRESS
  | called ipaddr => ipaddr.isSome

/-- The addresses DNS has delivered. -/
def delivered (s : App) : List IpAddr := s.dns.outcomes.filterMap DnsOutcome.address

/-- The resolution of the broker's name is in order. -/
structure Resolved (s : App) : Prop where
  nullFree : s.nullRead = false
  broker : PastDns s.myConn → s.brokerIp ∈ delivered s
  /-- A resolution that has ended recorded an address or will be started again. -/
  retried : s.dns.query = none → ∀ o, s.dns.outcomes.getLast? = some o →
    o.recorded = true ∨ s.myConn = .START_UP

/-! ## the phases of a run -/

/-- Where the resolution is, in terms of the fields it depends on. -/
inductive Phase :
    Connection_State → ClientState → Option String → List DnsOutcome → IpAddr → Bool → Prop
  | fresh {ip} : Phase .START_UP .TCP_DISCONNECTED none [] ip false
  | waiting {ip a} :
      Phase .DHCP_IP_RECEIVED .TCP_DISCONNECTED (some mqttBrokerName)
        [.returned .ERR_INPROGRESS a] ip false
  | dropped {ip a err} (h : err ≠ .ERR_INPROGRESS) :
      Phase .DHCP_IP_RECEIVED .TCP_DISCONNECTED none [.returned err a] ip false
  | answered {c st ip a} (h : PastDns c) :
      Phase c st none [.returned .ERR_INPROGRESS a, .called (some ip)] ip false
  | failed {c st ip a} (h : PastDns c) :
      Phase c st none [.returned .ERR_INPROGRESS a, .called none] ip true

/-- The phase of a state. -/
def InPhase (s : App) : Prop :=
  Phase s.myConn s.client.conn_state s.dns.query s.dns.outcomes s.brokerIp s.nullRead

namespace Phase

variable {c c' : Connection_State} {st st' : ClientState} {q : Option String}
  {os : List DnsOutcome} {ip : IpAddr} {b : Bool}

/-- Before the resolution is over the client is disconnected. -/
theorem past (h : Phase c st q os ip b) (hst : st ≠ .TCP_DISCONNECTED ∨ PastDns c) :
    PastDns c ∧ q = none := by
  cases h with
  | fresh => exact hst.elim (absurd rfl) fun hp => absurd rfl hp.1
  | waiting => exact hst.elim (absurd rfl) fun hp => absurd rfl hp.2
  | dropped _ => exact hst.elim (absurd rfl) fun hp => absurd rfl hp.2
  | answered hp => exact ⟨hp, rfl⟩
  | failed hp => exact ⟨hp, rfl⟩

/-- Once it is over, the connection may change. -/
theorem move (h : Phase c st q os ip b) (hpast : PastDns c) (hpast' : PastDns c') :
    Phase c' st' q os ip b := by
  cases h with
  | fresh => exact absurd rfl hpast.1
  | waiting => exact absurd rfl hpast.2
  | dropped _ => exact absurd rfl hpast.2
  | answered _ => exact .answered hpast'
  | failed _ => exact .failed hpast'

/-- There is a query only while the state machine waits for it. -/
theorem of_query {name : String} (h : Phase c st (some name) os ip b) :
    name = mqttBrokerName ∧ st = .TCP_DISCONNECTED ∧ b = false ∧
      ∃ a, os = [.returned .ERR_INPROGRESS a] := by
  cases h with
  | waiting => exact ⟨rfl, rfl, rfl, _, rfl⟩

/-- An address is recorded only in the last phase. -/
theorem of_recorded {o : DnsOutcome} (h : Phase c st q os ip b) (ho : o ∈ os)
    (hrec : o.recorded = true) : PastDns c := by
  cases h with
  | fresh => exact absurd ho List.not_mem_nil
  | waiting =>
      rw [List.mem_singleton.mp ho] at hrec
      cases hrec
  | dropped _ =>
      rw [List.mem_singleton.mp ho] at hrec
      cases hrec
  | answered hp => exact hp
  | failed hp => exact hp

theorem of_startUp (h : Phase .START_UP st q os ip b) :
    st = .TCP_DISCONNECTED ∧ q = none ∧ os = [] ∧ b = false := by
  cases h with
  | fresh => exact ⟨rfl, rfl, rfl, rfl⟩
  | answered hp => exact absurd rfl hp.1
  | failed hp => exact absurd rfl hp.1

end Phase

theorem pastDns_after {c : Connection_State} (status : Status) (h : PastDns c) :
    PastDns (c.after status) := by
  unfold Connection_State.after
  split
  · exact ⟨nofun, nofun⟩
  · split
    · exact ⟨nofun, nofun⟩
    · exact h

theorem pastDns_of_retrying {s : App} (h : Retrying s) : PastDns s.myConn := by
  rcases h with h | h <;> rw [h] <;> exact ⟨nofun, nofun⟩

theorem inPhase_answered (ipaddr : Option IpAddr) {s : App} (hs : InPhase s) :
    InPhase (dns_call_found ipaddr s) := by
  unfold dns_call_found
  split
  · rename_i name hquery
    unfold InPhase at hs
    rw [hquery] at hs
    obtain ⟨rfl, _, hread, a, hos⟩ := hs.of_query
    unfold ipObtained
    rw [if_pos rfl, hos]
    cases ipaddr with
    | none => exact .failed ⟨nofun, nofun⟩
    | some ip =>
        unfold InPhase
        dsimp only
        rw [hread]
        exact .answered ⟨nofun, nofun⟩
  · exact hs

theorem inPhase_closed (reason : Status) {s : App} (hs : InPhase s) :
    InPhase (mqtt_close reason s) := by
  rw [mqtt_close_eq]
  unfold InPhase
  dsimp only
  by_cases hst : s.client.conn_state = .TCP_DISCONNECTED
  · rw [if_neg (not_not.mpr hst), ← hst]
    exact hs
  · obtain ⟨hpast, _⟩ := Phase.past hs (.inl hst)
    rw [if_pos hst]
    exact Phase.move hs hpast (pastDns_after reason hpast)

theorem inPhase_startUp {s : App} (hs : InPhase s) (hc : s.myConn = .START_UP) :
    InPhase (startUp s) := by
  unfold startUp
  split
  · unfold InPhase at hs
    rw [hc] at hs
    obtain ⟨hst, hq, hos, hread⟩ := hs.of_startUp
    unfold InPhase dns_gethostbyname
    dsimp only
    rw [hst, hq, hos, hread]
    by_cases hres : s.net.dnsResult.1 = .ERR_INPROGRESS
    · rw [if_pos hres, hres]
      exact .waiting
    · rw [if_neg hres]
      exact .dropped hres
  · exact hs

theorem inPhase_connect {s : App} (hs : InPhase s) (hr : Retrying s) : InPhase (connect s) := by
  have hpast := pastDns_of_retrying hr
  show InPhase (core (connect s))
  rcases connect_cases s with ⟨_, h⟩ | ⟨_, h⟩ | ⟨_, h⟩ <;> rw [h]
  · exact hs
  · exact Phase.move hs hpast hpast
  · exact Phase.move hs hpast ⟨nofun, nofun⟩

theorem quiet_inPhase : Quiet InPhase where
  core _ := .rfl
  start _ _ _ := .fresh
  answered ipaddr _ hs := inPhase_answered ipaddr hs
  closed reason _ hs _ := inPhase_closed reason hs
  accepted s hs hst := by
    have hpast := Phase.past hs (.inl (by rw [hst]; nofun))
    rw [accepted_eq]
    exact Phase.move hs hpast.1 ⟨nofun, nofun⟩
  published _ _ _ hs _ _ := hs
  continued _ _ _ hs _ _ := hs
  connected s hs hst := by
    have hpast := Phase.past hs (.inl (by rw [hst]; nofun))
    exact Phase.move hs hpast.1 hpast.1
  startUp _ hs hc := inPhase_startUp hs.1 hc
  connect _ hs hr := inPhase_connect hs.1 hr
  publish _ hs _ := hs.1
  subscribe s hs _ := by
    unfold subscribe
    split
    · exact hs.1
    · exact hs.1

/-! ## the result -/

/-- In every state the firmware reaches, the resolution is in order exactly if
each outcome so far is `ERR_INPROGRESS` or a callback with an address. -/
theorem resolved_iff {pool : Nat} {c : Ctl App} {s : App} (h : Reachable pool (c, s)) :
    Resolved s ↔ ∀ o ∈ s.dns.outcomes, o.expected = true := by
  have hs : InPhase s := quiet_inPhase.holds h
  unfold InPhase at hs
  generalize hc : s.myConn = conn at hs
  generalize hst : s.client.conn_state = st at hs
  generalize hq : s.dns.query = q at hs
  generalize hos : s.dns.outcomes = os at hs
  generalize hip : s.brokerIp = ip at hs
  generalize hread : s.nullRead = b at hs
  cases hs with
  | fresh =>
      refine iff_of_true ⟨hread, fun hp => absurd hc hp.1, fun _ _ _ => .inr hc⟩ ?_
      exact fun o ho => absurd ho List.not_mem_nil
  | waiting =>
      refine iff_of_true ⟨hread, fun hp => absurd hc hp.2, fun hnone => ?_⟩ ?_
      · rw [hq] at hnone
        cases hnone
      · intro o ho
        rw [List.mem_singleton.mp ho]
        rfl
  | @dropped _ a err herr =>
      -- the query was never started, and `DHCP_IP_RECEIVED` does not start it
      refine iff_of_false (fun hr => ?_) fun hexp => ?_
      · rcases hr.retried hq (.returned err a) (by rw [hos]; rfl) with hrec | hstart
        · cases hrec
        · rw [hc] at hstart
          cases hstart
      · exact herr (of_decide_eq_true (hexp _ (List.mem_singleton_self _)))
  | answered _ =>
      refine iff_of_true ⟨hread, fun _ => ?_, fun _ o ho => .inl ?_⟩ ?_
      · simp [delivered, hos, hip, DnsOutcome.address]
      · rw [hos] at ho
        obtain rfl := Option.some.inj ho
        rfl
      · simp [DnsOutcome.expected]
  | failed _ =>
      refine iff_of_false (fun hr => ?_) fun hexp => ?_
      · exact Bool.noConfusion (hread.symm.trans hr.nullFree)
      · exact Bool.noConfusion (hexp (.called none) (by simp))

/-- An answer with an address. -/
theorem resolved_answered :
    ∃ s, Reachable 6 (.head, s) ∧ s.brokerIp = 0x0a000001 ∧ Resolved s := by
  obtain ⟨s, hs, hφ⟩ := exists_of_play
    (φ := fun s => s.brokerIp = 0x0a000001 ∧ ∀ o ∈ s.dns.outcomes, o.expected = true)
    10 6 0x20018000
    [.net { dhcp_supplied_address := true }, .round,
      .net { packets := [.dns (some 0x0a000001)] }, .round]
    (by decide +kernel)
  obtain ⟨hip, hexp⟩ := of_decide_eq_true hφ
  exact ⟨s, hs, hip, (resolved_iff hs).mpr hexp⟩

/-- An answer without one: `ipObtained` reads through `NULL`, and the broker's
address becomes the first word of the vector table, the top of the stack. -/
theorem not_resolved_refused :
    ∃ s, Reachable 6 (.head, s) ∧ s.nullRead = true ∧ s.brokerIp = 0x20018000 ∧ ¬Resolved s := by
  obtain ⟨s, hs, hφ⟩ := exists_of_play (φ := fun s => s.nullRead ∧ s.brokerIp = 0x20018000)
    10 6 0x20018000
    [.net { dhcp_supplied_address := true }, .round, .net { packets := [.dns none] }, .round]
    (by decide +kernel)
  obtain ⟨hread, hip⟩ := of_decide_eq_true hφ
  refine ⟨s, hs, hread, hip, fun hr => ?_⟩
  exact Bool.noConfusion (hread.symm.trans hr.nullFree)

end Enc28j60.App
