import Enc28j60.App.Runs

/-!
# Enc28j60.App.Rates

How often the protocol timers run.

Two drivers call the same handlers: the main loop, from the counters of the TIM2
handler (`Ticked`), and lwIP's own timeouts (`Paced`).  Each alone keeps the
rate, `k` calls in no less than `k` intervals; together they make up to two calls
in an interval.
-/

namespace Enc28j60.App

open Deadlines Res

/-! ## the main loop -/

/-- The counter behind the loop's own calls of a handler. -/
def counter (k : Clock) : CyclicTimer → Nat
  | .ip_reass_tmr => 0
  | .etharp_tmr => k.timerForEtharp.toNat
  | .dhcp_coarse_tmr => k.u32CoarseTimer.toNat
  | .dhcp_fine_tmr => k.u32FinerTimer.toNat
  | .dns_tmr => k.timeForDns.toNat

/-- The interval of a handler in ticks. -/
def CyclicTimer.ticks (c : CyclicTimer) : Nat := c.interval_ms / 500

/-- A tick adds at most one to each counter. -/
theorem counter_tick (s : App) (c : CyclicTimer) :
    counter (tick s).clock c ≤ counter s.clock c + 1 := by
  have hle : ∀ {w : Nat} (x : BitVec w), (x + 1).toNat ≤ x.toNat + 1 := fun x => by
    rw [BitVec.toNat_add]
    exact (Nat.mod_le _ _).trans (Nat.add_le_add_left (Nat.mod_le _ _) _)
  cases c with
  | ip_reass_tmr => exact Nat.zero_le _
  | etharp_tmr => exact hle _
  | dhcp_coarse_tmr => exact hle _
  | dhcp_fine_tmr => exact hle _
  | dns_tmr => exact hle _

/-- What the loop's calls have to do with the ticks. -/
structure Ticked (k : Clock) (loop : CyclicTimer → Nat) : Prop where
  clock : k.millisec = BitVec.ofNat 32 (500 * k.ticks)
  calls : ∀ c, c.ticks * loop c + counter k c ≤ k.ticks

theorem Ticked.tick {s : App} {loop : CyclicTimer → Nat} (h : Ticked s.clock loop) :
    Ticked (tick s).clock loop where
  clock := by
    show s.clock.millisec + 500 = BitVec.ofNat 32 (500 * (s.clock.ticks + 1))
    rw [h.clock, Nat.mul_succ, BitVec.ofNat_add]
    rfl
  calls c := by
    have hcalls := h.calls c
    have hcounter := counter_tick s c
    show _ ≤ s.clock.ticks + 1
    omega

/-! ## the timeouts -/

/-- The pending timeouts of the cyclic timers, which have made `calls` calls. -/
structure Paced (us : List Timeout) (calls : CyclicTimer → Nat) (now : Nat) : Prop where
  pending : ∀ e ∈ us, ∀ c, e.handler = .lwip_cyclic_timer c →
    Periodic c.interval_ms (calls c) now e.time
  single : ∀ c, (handlers us).count (.lwip_cyclic_timer c) ≤ 1
  called : ∀ c, c.interval_ms * calls c ≤ now

namespace Paced

variable {us us' : List Timeout} {calls : CyclicTimer → Nat} {now later : Nat} {e : Timeout}

theorem mono (h : Paced us calls now) (hle : now ≤ later) : Paced us calls later where
  pending e he c hc := (h.pending e he c hc).mono hle
  single := h.single
  called c := (h.called c).trans hle

/-- One more; for a cyclic timer, the only one. -/
theorem insert (h : Paced us calls now)
    (he : ∀ c, e.handler = .lwip_cyclic_timer c →
      Periodic c.interval_ms (calls c) now e.time ∧
        (handlers us).count (.lwip_cyclic_timer c) = 0) :
    Paced (Deadlines.insert e us) calls now where
  pending u hu c hc := by
    rcases mem_insert.mp hu with rfl | hu
    · exact (he c hc).1
    · exact h.pending u hu c hc
  single c := by
    rw [(handlers_insert e us).count_eq, List.count_cons]
    by_cases hc : e.handler = .lwip_cyclic_timer c
    · rw [(he c hc).2]
      split <;> omega
    · rw [if_neg (by simpa using hc)]
      exact h.single c
  called := h.called

end Paced

/-! ## both -/

/-- The clock has not gone half a turn, with room for one interval. -/
def Near (s : App) : Prop := elapsed s + 60000 ≤ 2 ^ 31

/-- Each driver keeps the rate. -/
structure Rated (s : App) : Prop where
  ticked : Ticked s.clock s.calls.loop
  dnsOff : s.enableDns = false → s.calls.loop .dns_tmr = 0
  paced : Near s → Paced s.timers.next_timeout s.calls.timeouts (elapsed s)

namespace Rated

variable {s s' : App}

/-- Nothing has changed but what the rates do not depend on. -/
theorem same (hs : Rated s) (hclock : s'.clock = s.clock)
    (hlist : s'.timers.next_timeout = s.timers.next_timeout) (hcalls : s'.calls = s.calls)
    (hdns : s'.enableDns = s.enableDns) : Rated s' where
  ticked := by
    rw [hclock, hcalls]
    exact hs.ticked
  dnsOff h := by
    rw [hcalls]
    exact hs.dnsOff (hdns.symm.trans h)
  paced h := by
    unfold Near elapsed at h
    unfold elapsed
    rw [hclock] at h ⊢
    rw [hlist, hcalls]
    exact hs.paced h

end Rated

/-- The time `sys_check_timeouts` works with: a reading of the clock. -/
def Reading (now : BitVec 32) (s : App) : Prop := ∃ n, now = BitVec.ofNat 32 n ∧ n ≤ elapsed s

theorem stable_rated : Stable Env Rated Rated where
  env s s' hr hs := by
    cases hr with
    | tick =>
        refine ⟨hs.ticked.tick, hs.dnsOff, fun hnear => ?_⟩
        have hle : elapsed s ≤ elapsed (tick s) :=
          Nat.mul_le_mul_left _ (Nat.le_succ s.clock.ticks)
        exact (hs.paced ((Nat.add_le_add_right hle _).trans hnear)).mono hle
    | net n => exact hs.same rfl rfl rfl rfl
  guard _ hs := hs

/-- What is known once the counter of `c` is due; no tick makes it untrue. -/
def Due (c : CyclicTimer) (s : App) : Prop :=
  Rated s ∧ c.ticks * (s.calls.loop c + 1) ≤ s.clock.ticks ∧
    (c = .dns_tmr → s.enableDns = true)

/-- And once the counter is reset. -/
def Reset (c : CyclicTimer) (s : App) : Prop :=
  Rated s ∧ c.ticks * (s.calls.loop c + 1) + counter s.clock c ≤ s.clock.ticks ∧
    (c = .dns_tmr → s.enableDns = true)

theorem stable_due (c : CyclicTimer) : Stable Env Rated (Due c) where
  env s s' hr hs := by
    refine ⟨stable_rated.env s s' hr hs.1, ?_⟩
    cases hr with
    | tick => exact ⟨hs.2.1.trans (Nat.le_succ _), hs.2.2⟩
    | net n => exact hs.2
  guard _ hs := hs.1

theorem stable_reset (c : CyclicTimer) : Stable Env Rated (Reset c) where
  env s s' hr hs := by
    refine ⟨stable_rated.env s s' hr hs.1, ?_⟩
    cases hr with
    | tick =>
        have hcounter := counter_tick s c
        have hcalls := hs.2.1
        refine ⟨?_, hs.2.2⟩
        show _ ≤ s.clock.ticks + 1
        exact Nat.le_trans (Nat.add_le_add_left hcounter _) (Nat.succ_le_succ hcalls)
    | net n => exact hs.2
  guard _ hs := hs.1

/-- A loop timer whose limit is the interval in ticks. -/
theorem keeps_loopTimer {due : App → Bool} {reset : Clock → Clock} {c : CyclicTimer}
    (hdue : ∀ s, due s = true → c.ticks ≤ counter s.clock c ∧ (c = .dns_tmr → s.enableDns = true))
    (hzero : ∀ k, counter (reset k) c = 0)
    (hother : ∀ k c', c' ≠ c → counter (reset k) c' = counter k c')
    (hclock : ∀ k, (reset k).millisec = k.millisec ∧ (reset k).ticks = k.ticks) :
    Keeps Rated Rated (loopTimer due reset c) := by
  refine triple_loopTimer stable_rated (stable_due c) (stable_reset c) (fun s hs h => ?_)
    (fun s hs => ?_) fun s hs => ?_
  · have hcalls := hs.ticked.calls c
    refine ⟨hs, ?_, (hdue s h).2⟩
    have hlimit := (hdue s h).1
    rw [Nat.mul_succ]
    omega
  · obtain ⟨hrated, hcalls, hdns⟩ := hs
    obtain ⟨hmillisec, hticks⟩ := hclock s.clock
    have hreset : c.ticks * (s.calls.loop c + 1) + counter (reset s.clock) c ≤
        (reset s.clock).ticks := by
      rw [hzero, hticks]
      exact hcalls
    refine ⟨⟨⟨?_, fun c' => ?_⟩, hrated.dnsOff, fun hnear => ?_⟩, hreset, hdns⟩
    · show (reset s.clock).millisec = BitVec.ofNat 32 (500 * (reset s.clock).ticks)
      rw [hmillisec, hticks]
      exact hrated.ticked.clock
    · show c'.ticks * s.calls.loop c' + counter (reset s.clock) c' ≤ (reset s.clock).ticks
      by_cases hc : c' = c
      · rw [hc]
        rw [Nat.mul_succ] at hreset
        omega
      · rw [hother s.clock c' hc, hticks]
        exact hrated.ticked.calls c'
    · unfold Near elapsed at hnear
      unfold elapsed
      dsimp only at hnear ⊢
      rw [hticks] at hnear ⊢
      exact hrated.paced hnear
  · obtain ⟨hrated, hcalls, hdns⟩ := hs
    obtain ⟨_, _, _, _, hcalled⟩ := handler_eq c { s with calls := s.calls.fromLoop c }
    unfold loopCall
    rw [hcalled]
    refine Rated.same (s := { s with calls := s.calls.fromLoop c }) ⟨⟨hrated.ticked.clock, ?_⟩, ?_,
      hrated.paced⟩ rfl rfl rfl rfl
    · intro c'
      show c'.ticks * (if c' = c then s.calls.loop c' + 1 else s.calls.loop c') + _ ≤ _
      split
      · rename_i heq
        rw [heq]
        exact hcalls
      · exact hrated.ticked.calls c'
    · intro hoff
      show (if CyclicTimer.dns_tmr = c then s.calls.loop .dns_tmr + 1 else s.calls.loop .dns_tmr) = 0
      rw [if_neg fun heq => Bool.noConfusion (hoff.symm.trans (hdns heq.symm))]
      exact hrated.dnsOff hoff

/-- The calls of a handler. -/
def called (s : App) (c : CyclicTimer) : Nat := s.calls.loop c + s.calls.timeouts c

end Enc28j60.App
