import Mathlib.Data.BitVec

/-!
# Enc28j60.Lib.Labels

Labels on the wire: each has its length in front of it, and a zero ends the list.

Different labels look different (`wire_injective`).  A string is the labels between its
dots, which take one byte more than it does (`length_wire_splitOn`).
-/

namespace Labels

/-- The labels, without the zero that ends them. -/
def wire (ls : List (List (BitVec 8))) : List (BitVec 8) :=
  ls.flatMap fun l => BitVec.ofNat 8 l.length :: l

@[simp] theorem wire_nil : wire [] = [] := rfl

@[simp] theorem wire_cons (l : List (BitVec 8)) (ls : List (List (BitVec 8))) :
    wire (l :: ls) = BitVec.ofNat 8 l.length :: (l ++ wire ls) := by
  simp [wire]

theorem ofNat_ne_zero {n : Nat} (h : 0 < n) (hlt : n < 256) : BitVec.ofNat 8 n ≠ 0 := by
  intro heq
  have := congrArg BitVec.toNat heq
  simp at this
  omega

/-- A label is as long as its first byte says. -/
theorem label_inj {l l' bs bs' : List (BitVec 8)} (hl : l.length < 256) (hl' : l'.length < 256)
    (h : BitVec.ofNat 8 l.length :: (l ++ bs) = BitVec.ofNat 8 l'.length :: (l' ++ bs')) :
    l = l' ∧ bs = bs' := by
  obtain ⟨hlen, happ⟩ := List.cons.inj h
  have := congrArg BitVec.toNat hlen
  simp only [BitVec.toNat_ofNat] at this
  exact List.append_inj happ (by omega)

/-- Different labels look different. -/
theorem wire_injective {ls ls' : List (List (BitVec 8))} (hls : ∀ l ∈ ls, l.length < 256)
    (hls' : ∀ l ∈ ls', l.length < 256) (h : wire ls = wire ls') : ls = ls' := by
  induction ls generalizing ls' with
  | nil =>
      cases ls' with
      | nil => rfl
      | cons l' ls' => simp at h
  | cons l ls ih =>
      cases ls' with
      | nil => simp at h
      | cons l' ls' =>
          rw [wire_cons, wire_cons] at h
          obtain ⟨rfl, htail⟩ := label_inj (hls l (by simp)) (hls' l' (by simp)) h
          rw [ih (fun l hl => hls l (by simp [hl])) (fun l hl => hls' l (by simp [hl])) htail]

theorem length_le_wire {l : List (BitVec 8)} {ls : List (List (BitVec 8))} (h : l ∈ ls) :
    l.length < (wire ls).length := by
  induction ls with
  | nil => simp at h
  | cons m ls ih =>
      rw [wire_cons, List.length_cons, List.length_append]
      rcases List.mem_cons.mp h with rfl | hmem
      · omega
      · have := ih hmem
        omega

theorem length_wire_splitOn (dot : BitVec 8) (s : List (BitVec 8)) :
    (wire (s.splitOn dot)).length = s.length + 1 := by
  induction s with
  | nil => simp
  | cons c s ih =>
      rw [List.splitOn_cons_eq_if_modifyHead]
      split
      · simp [ih]
      · cases hs : s.splitOn dot with
        | nil => exact absurd hs (List.splitOn_ne_nil dot s)
        | cons l ls =>
            rw [hs] at ih
            simp at ih ⊢
            omega

end Labels
