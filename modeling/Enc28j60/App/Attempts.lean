import Enc28j60.App.Runs

/-!
# Enc28j60.App.Attempts

How far apart the attempts to connect are.

The main loop records an attempt in `lastReconnectAttempt` and then makes it; the
limit is measured from the record (`AtRest`, `MayRetry`, `Pending` are the phases
of `reconnect`).  `sys_now()` wraps, and can only show too little: the limit holds
for ever.  A tick between the record and the call is counted towards it.
-/

namespace Enc28j60.App

open Deadlines Res

/-! ## what is asked for -/

/-- More than three seconds pass between two consecutive calls of
`mqtt_client_connect`. -/
def Spaced (s : App) : Prop := s.attempts.IsChain fun t t' => 3000 < 500 * (t' - t)

/-! ## the phases of an attempt -/

/-- The history is that of `log`, and of the records `pending` besides. -/
structure Logged (log : List Attempt) (pending recorded attempts : List Nat) : Prop where
  recorded : recorded = log.map Attempt.recorded ++ pending
  attempts : attempts = log.map Attempt.made

/-- `sys_now()` is the time since TIM2 was started, modulo `2 ^ 32`. -/
def Shown (s : App) : Prop := s.clock.millisec = BitVec.ofNat 32 (500 * s.clock.ticks)

/-- Each attempt that was recorded has been made. -/
def AtRest (s : App) : Prop :=
  Shown s ∧ ∃ log, Logged log [] s.recorded s.attempts ∧
    Limited 3000 500 s.clock.ticks s.lastReconnectAttempt log

/-- The limit was found to have passed. -/
def MayRetry (s : App) : Prop :=
  Shown s ∧ ∃ log, Logged log [] s.recorded s.attempts ∧ Ready 3000 500 s.clock.ticks log

/-- An attempt is recorded and not made. -/
def Pending (s : App) : Prop :=
  Shown s ∧ ∃ log r, Logged log [r] s.recorded s.attempts ∧ Ready 3000 500 r log ∧
    r ≤ s.clock.ticks ∧ s.lastReconnectAttempt = BitVec.ofNat 32 (500 * r)

/-- What is true in all of them. -/
def Traced (s : App) : Prop :=
  ∃ log pending, Logged log pending s.recorded s.attempts ∧
    log.IsChain (Attempt.Follows 3000 500)

theorem AtRest.same {s s' : App} (hs : AtRest s) (h : beside s' = beside s) : AtRest s' := by
  simp only [beside, Prod.mk.injEq] at h
  obtain ⟨hclock, hlast, hrecorded, hattempts⟩ := h
  unfold AtRest Shown
  rw [hclock, hlast, hrecorded, hattempts]
  exact hs

theorem shown_tick {s : App} (h : Shown s) : Shown (tick s) := by
  unfold Shown at h
  show s.clock.millisec + 500 = BitVec.ofNat 32 (500 * (s.clock.ticks + 1))
  rw [h, Nat.mul_succ, BitVec.ofNat_add]
  rfl

theorem stable_atRest : Stable Env Traced AtRest where
  env s s' hr hs := by
    cases hr with
    | tick =>
        obtain ⟨hshown, log, hlog, hlimited⟩ := hs
        exact ⟨shown_tick hshown, log, hlog, hlimited.mono (Nat.le_succ _)⟩
    | net n => exact hs
  guard _ hs := by
    obtain ⟨_, log, hlog, hlimited⟩ := hs
    exact ⟨log, [], hlog, hlimited.spaced⟩

theorem stable_mayRetry : Stable Env Traced MayRetry where
  env s s' hr hs := by
    cases hr with
    | tick =>
        obtain ⟨hshown, log, hlog, hready⟩ := hs
        exact ⟨shown_tick hshown, log, hlog, hready.mono (Nat.le_succ _)⟩
    | net n => exact hs
  guard _ hs := by
    obtain ⟨_, log, hlog, hready⟩ := hs
    exact ⟨log, [], hlog, hready.spaced⟩

theorem stable_pending : Stable Env Traced Pending where
  env s s' hr hs := by
    cases hr with
    | tick =>
        obtain ⟨hshown, log, r, hlog, hready, hr, hlast⟩ := hs
        exact ⟨shown_tick hshown, log, r, hlog, hready, hr.trans (Nat.le_succ _), hlast⟩
    | net n => exact hs
  guard _ hs := by
    obtain ⟨_, log, r, hlog, hready, _⟩ := hs
    exact ⟨log, [r], hlog, hready.spaced⟩

/-- The first read of the clock. -/
theorem mayRetry_of_elapsed {s : App} (hs : AtRest s)
    (h : 3000 < s.clock.millisec - s.lastReconnectAttempt) : MayRetry s := by
  obtain ⟨hshown, log, hlog, hlimited⟩ := hs
  refine ⟨hshown, log, hlog, hlimited.ready ?_⟩
  rw [hshown] at h
  exact BitVec.lt_def.mp h

/-- The second, however much later it is. -/
theorem pending_record {s : App} (hs : MayRetry s) : Pending (record s) := by
  obtain ⟨hshown, log, hlog, hready⟩ := hs
  refine ⟨hshown, log, s.clock.ticks, ⟨?_, hlog.attempts⟩, hready, Nat.le_refl _, hshown⟩
  show s.recorded ++ [s.clock.ticks] = _
  rw [hlog.recorded, List.append_nil]

/-- The call. -/
theorem atRest_connect {s : App} (hs : Pending s) : AtRest (connect s) := by
  obtain ⟨hshown, log, r, hlog, hready, hr, hlast⟩ := hs
  have hattempt := hready.attempt (a := ⟨r, s.clock.ticks, hr⟩) (w := 32)
  have hmade : AtRest { s with attempts := s.attempts ++ [s.clock.ticks] } := by
    refine ⟨hshown, log ++ [⟨r, s.clock.ticks, hr⟩], ⟨?_, ?_⟩, ?_⟩
    · rw [List.map_append, List.append_nil]
      exact hlog.recorded
    · rw [List.map_append, ← hlog.attempts]
      rfl
    · rw [← hlast] at hattempt
      exact hattempt
  refine hmade.same ?_
  rcases connect_eq s with ⟨_, h⟩ | ⟨_, h⟩ | ⟨_, h⟩ <;> rw [h]
  · rfl
  · unfold tcp_timer_needed
    split
    · rfl
    · rfl

/-! ## runs -/

theorem triple_reconnect_atRest :
    Triple Env Traced (Live AtRest) reconnect fun _ => Live AtRest := by
  have hR := stable_live stable_atRest
  have hM := stable_live stable_mayRetry
  have hP := stable_live stable_pending
  unfold reconnect
  refine Triple.bind (M := fun elapsed s => Live AtRest s ∧ (3000 < elapsed → MayRetry s))
    (Triple.gets hR (fun elapsed => ?_) fun s hs => ⟨hs, mayRetry_of_elapsed hs.1⟩)
    fun elapsed => ?_
  · exact
      { env := fun s s' hr hs =>
          ⟨hR.env s s' hr hs.1, fun h => stable_mayRetry.env s s' hr (hs.2 h)⟩
        guard := fun s hs => hR.guard s hs.1 }
  · split
    · rename_i helapsed
      have hdo : Triple Env Traced (Live MayRetry)
          (modify record >>= fun _ => modify connect) fun _ => Live AtRest :=
        Triple.bind (triple_modify hM hP fun s hs => ⟨pending_record hs.1, hs.2⟩) fun _ =>
          triple_modify hP hR fun s hs =>
            ⟨atRest_connect hs.1, (hung_connect s).trans hs.2⟩
      exact hdo.conseq (fun s hs => ⟨hs.2 helapsed, hs.1.2⟩) fun _ _ h => h
    · exact (keeps_pure stable_atRest).conseq (fun s hs => hs.1) fun _ _ h => h

theorem kept_atRest : Kept Traced AtRest where
  stable := stable_atRest
  place _ _ hs := hs
  startUp s hs _ := by
    unfold startUp
    split
    · exact hs.1
    · exact hs.1
  reconnect := triple_reconnect_atRest.conseq (fun _ hs => hs.1) fun _ _ h => h
  mqttTimer _ hs := hs
  publish _ hs _ := hs.1
  subscribe s hs _ := by
    unfold subscribe
    split
    · exact hs.1
    · exact hs.1
  input p s hs := hs.1.same (beside_input p s)

/-- A loop timer that leaves `sys_now()` alone. -/
theorem keeps_loopTimer_atRest {due : App → Bool} {reset : Clock → Clock} {c : CyclicTimer}
    (hclock : ∀ k, (reset k).millisec = k.millisec ∧ (reset k).ticks = k.ticks) :
    Keeps Traced AtRest (loopTimer due reset c) := by
  refine triple_loopTimer stable_atRest stable_atRest stable_atRest (fun _ hs _ => hs)
    (fun s hs => ?_) fun s hs => hs.same (beside_handler c { s with calls := s.calls.fromLoop c })
  obtain ⟨hmillisec, hticks⟩ := hclock s.clock
  unfold AtRest Shown
  dsimp only
  rw [hmillisec, hticks]
  exact hs

theorem atRest_initial (pool : Nat) (word : IpAddr) (net : Net) : AtRest (initial pool word net) :=
  ⟨rfl, [], ⟨rfl, rfl⟩, .nil, nofun, nofun⟩

theorem traced_of_reachable {pool : Nat} {c : Ctl App} {s : App} (h : Reachable pool (c, s)) :
    Traced s := by
  refine Loop.Inv.guard (stable_live stable_atRest)
    (sound stable_atRest (fun word net => ?_) (fun fuel => ?_) h)
  · exact keeps_startTimers stable_atRest (fun _ _ _ hs => hs) _ _
      ⟨atRest_initial pool word net, rfl⟩
  · exact kept_atRest.loopBody (keeps_loopTimer_atRest fun _ => ⟨rfl, rfl⟩)
      (keeps_loopTimer_atRest fun _ => ⟨rfl, rfl⟩) (keeps_loopTimer_atRest fun _ => ⟨rfl, rfl⟩)
      (keeps_loopTimer_atRest fun _ => ⟨rfl, rfl⟩)
      (keeps_checkRounds stable_atRest fun now s hs => hs.1.same (beside_checkTimeout now s)) fuel

/-! ## the result -/

/-- In every state the firmware reaches, more than three seconds have passed from
the record of an attempt to the next call, and none is called before its record:
two consecutive calls are more than three seconds apart, less the ticks between
the record and the first of them. -/
theorem spaced_of_reachable {pool : Nat} {c : Ctl App} {s : App} (h : Reachable pool (c, s))
    {i : Nat} (hi : i + 1 < s.attempts.length) :
    ∃ r, s.recorded[i]? = some r ∧ r ≤ s.attempts[i] ∧ s.attempts[i] ≤ s.attempts[i + 1] ∧
      3000 < 500 * (s.attempts[i + 1] - r) := by
  obtain ⟨log, pending, hlog, hchain⟩ := traced_of_reachable h
  have hlen : i + 1 < log.length := by
    rw [hlog.attempts, List.length_map] at hi
    exact hi
  have hrecorded : s.recorded[i]? = some log[i].recorded := by
    rw [hlog.recorded, List.getElem?_append_left (by rw [List.length_map]; omega),
      List.getElem?_map, List.getElem?_eq_getElem (by omega)]
    rfl
  have hmade : s.attempts[i] = log[i].made ∧ s.attempts[i + 1] = log[i + 1].made := by
    simp [hlog.attempts]
  obtain ⟨horder, hspaced⟩ := (hchain.getElem i hlen).made
  rw [hmade.1, hmade.2]
  exact ⟨_, hrecorded, log[i].le, horder, hspaced⟩

/-- The broker is known, and there is no route to it. -/
def noRoute : List Input :=
  [.net { dhcp_supplied_address := true }, .round,
    .net { packets := [.dns (some 0x0a000001)], connectResult := .ERR_RTE }, .round,
    .net { connectResult := .ERR_RTE }]

def ticks (n : Nat) : List Input := List.replicate n .tick

/-- Two attempts that fail at once. -/
theorem spaced_failed : ∃ s, Reachable 6 (.head, s) ∧ ∃ h : 1 < s.attempts.length,
    ∃ r, s.recorded[0]? = some r ∧ r ≤ s.attempts[0] ∧ s.attempts[0] ≤ s.attempts[1] ∧
      3000 < 500 * (s.attempts[1] - r) := by
  obtain ⟨s, hs, hφ⟩ := exists_of_play (φ := fun s => s.attempts = [7, 14])
    10 6 0x20018000 (noRoute ++ ticks 7 ++ [.round] ++ ticks 7 ++ [.round]) (by decide +kernel)
  have hlen : 1 < s.attempts.length := by
    rw [of_decide_eq_true hφ]
    decide
  exact ⟨s, hs, hlen, spaced_of_reachable hs hlen⟩

/-- A tick falls between the record, at 3500 ms, and the first call, at 4000 ms;
the second call is at 7000 ms. -/
theorem not_spaced_tick : ∃ s, Reachable 6 (.head, s) ∧ s.attempts = [8, 14] ∧ ¬Spaced s := by
  obtain ⟨s, hs, hφ⟩ := exists_of_ticked (φ := fun s => s.attempts = [8, 14])
    10 6 20 0x20018000 (noRoute ++ ticks 7) (ticks 6 ++ [.round]) (by decide +kernel)
  have hattempts : s.attempts = [8, 14] := of_decide_eq_true hφ
  refine ⟨s, hs, hattempts, fun hspaced => ?_⟩
  unfold Spaced at hspaced
  rw [hattempts] at hspaced
  exact absurd (List.isChain_pair.mp hspaced) (by decide)

end Enc28j60.App
