import Mathlib.Data.Nat.Bitwise
import Mathlib.Data.BitVec
import Mathlib.Tactic.Ring

/-!
# Enc28j60.Lib.Base128

Numbers in bytes of seven bits, the lowest first; the top bit of a byte says that
there is another one.

`decode` reads a number from the front of a list and also accepts numbers that are
longer than they need to be; `decode_encode` is the round trip.  `value` is what a
reader has after some of the bytes, one step of which is `value_append_singleton`.
-/

namespace Base128

/-- The top bit. -/
def more (b : BitVec 8) : Bool := 128 ≤ b.toNat

def encode (n : Nat) : List (BitVec 8) :=
  if n < 128 then [BitVec.ofNat 8 n] else BitVec.ofNat 8 (n % 128 + 128) :: encode (n / 128)
termination_by n
decreasing_by omega

/-- The number at the front, and what is behind it. -/
def decode : List (BitVec 8) → Option (Nat × List (BitVec 8))
  | [] => none
  | b :: bs =>
      if more b then (decode bs).map fun r => (b.toNat - 128 + 128 * r.1, r.2)
      else some (b.toNat, bs)

theorem decode_encode (n : Nat) (rest : List (BitVec 8)) :
    decode (encode n ++ rest) = some (n, rest) := by
  induction n using Nat.strongRecOn with
  | ind n ih =>
      rw [encode]
      split
      · rename_i h
        have hbyte : (BitVec.ofNat 8 n).toNat = n := by simp; omega
        simp [decode, more, hbyte]
        omega
      · rename_i h
        have hbyte : (BitVec.ofNat 8 (n % 128 + 128)).toNat = n % 128 + 128 := by simp; omega
        simp [decode, more, hbyte, ih (n / 128) (by omega)]
        omega

/-- Bytes behind a number do not change it. -/
theorem decode_append {bs rest : List (BitVec 8)} {n : Nat} (h : decode bs = some (n, rest))
    (behind : List (BitVec 8)) : decode (bs ++ behind) = some (n, rest ++ behind) := by
  induction bs generalizing n with
  | nil => simp [decode] at h
  | cons b bs ih =>
      rw [decode] at h
      rw [List.cons_append, decode]
      split at h
      · obtain ⟨⟨m, tail⟩, hm, heq⟩ := Option.map_eq_some_iff.mp h
        obtain ⟨rfl, rfl⟩ := Prod.mk.injEq _ _ _ _ ▸ heq
        rw [if_pos ‹_›, ih hm]
        rfl
      · rw [if_neg ‹_›]
        obtain ⟨rfl, rfl⟩ := Prod.mk.injEq _ _ _ _ ▸ Option.some.inj h
        rfl

/-- A byte for each seven bits. -/
theorem length_encode_le {n k : Nat} (h : n < 128 ^ (k + 1)) : (encode n).length ≤ k + 1 := by
  induction k generalizing n with
  | zero =>
      rw [encode, if_pos (by simpa using h)]
      simp
  | succ k ih =>
      rw [encode]
      split
      · simp
      · have := ih (n := n / 128) (by rw [Nat.pow_succ] at h; omega)
        simp
        omega

/-! ## one byte after the other -/

/-- What the bytes so far contribute. -/
def value : List (BitVec 8) → Nat
  | [] => 0
  | b :: bs => b.toNat % 128 + 128 * value bs

theorem value_append_singleton (bs : List (BitVec 8)) (b : BitVec 8) :
    value (bs ++ [b]) = value bs + b.toNat % 128 * 128 ^ bs.length := by
  induction bs with
  | nil => simp [value]
  | cons c bs ih =>
      rw [List.cons_append, value, ih, value, List.length_cons, Nat.pow_succ]
      ring

theorem value_lt (bs : List (BitVec 8)) : value bs < 128 ^ bs.length := by
  induction bs with
  | nil => simp [value]
  | cons b bs ih =>
      have := Nat.mod_lt b.toNat (show 0 < 128 by omega)
      rw [value, List.length_cons, Nat.pow_succ]
      omega

/-- A number and nothing behind it: all bytes but the last have the top bit. -/
theorem decode_eq_some_nil {bs : List (BitVec 8)} {n : Nat} (h : decode bs = some (n, [])) :
    ∃ front last, bs = front ++ [last] ∧ (∀ b ∈ front, more b) ∧ more last = false ∧
      n = value bs := by
  induction bs generalizing n with
  | nil => simp [decode] at h
  | cons b bs ih =>
      have hlt := b.isLt
      rw [decode] at h
      by_cases hb : more b
      · rw [if_pos hb] at h
        obtain ⟨⟨m, rest⟩, hm, heq⟩ := Option.map_eq_some_iff.mp h
        obtain ⟨rfl, rfl⟩ := Prod.mk.injEq _ _ _ _ ▸ heq
        obtain ⟨front, last, rfl, hfront, hlast, rfl⟩ := ih hm
        refine ⟨b :: front, last, rfl, by simpa [hb] using hfront, hlast, ?_⟩
        simp only [more, decide_eq_true_eq] at hb
        simp only [value]
        omega
      · rw [if_neg hb] at h
        simp only [Option.some.injEq, Prod.mk.injEq] at h
        obtain ⟨rfl, rfl⟩ := h
        refine ⟨[], b, rfl, by simp, by simpa using hb, ?_⟩
        simp only [more, decide_eq_true_eq] at hb
        simp only [value]
        omega

end Base128
