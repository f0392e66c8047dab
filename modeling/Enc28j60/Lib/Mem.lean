import Mathlib.Data.List.Basic

/-!
# Enc28j60.Lib.Mem

A flat memory `Nat → β`, with block loads and stores.  Everything a proof needs
to know about a store is where it changed the memory (`store_of_mem`) and where
it did not (`store_of_lt`, `store_of_ge`); `load` facts follow from these.
-/

namespace Mem

variable {β : Type}

/-- Write a block at address `a`. -/
def store (m : Nat → β) (a : Nat) (bs : List β) : Nat → β := fun i =>
  if a ≤ i then (bs[i - a]?).getD (m i) else m i

/-- Read `n` values from address `a`. -/
def load (m : Nat → β) (a n : Nat) : List β := (List.range n).map fun k => m (a + k)

@[simp] theorem length_load (m : Nat → β) (a n : Nat) : (load m a n).length = n := by
  simp [load]

@[simp] theorem store_nil (m : Nat → β) (a : Nat) : store m a [] = m := by
  funext i
  simp [store]

theorem store_of_lt (m : Nat → β) {a i : Nat} (bs : List β) (h : i < a) :
    store m a bs i = m i := by
  simp [store, Nat.not_le.mpr h]

theorem store_of_ge (m : Nat → β) {a i : Nat} (bs : List β) (h : a + bs.length ≤ i) :
    store m a bs i = m i := by
  have hlen : bs.length ≤ i - a := by omega
  simp [store, hlen]

theorem store_of_mem (m : Nat → β) {a k : Nat} (bs : List β) (h : k < bs.length) :
    store m a bs (a + k) = bs[k] := by
  simp [store, h]

/-- A block reads back as it was stored. -/
theorem load_store (m : Nat → β) (a : Nat) (bs : List β) :
    load (store m a bs) a bs.length = bs := by
  apply List.ext_getElem
  · simp
  · intro k h₁ h₂
    simp [load, store_of_mem m bs h₂]

/-- A load does not see a store that ends before it or begins after it. -/
theorem load_store_of_disjoint (m : Nat → β) {a b n : Nat} (bs : List β)
    (h : b + n ≤ a ∨ a + bs.length ≤ b) : load (store m a bs) b n = load m b n := by
  apply List.ext_getElem
  · simp
  · intro k h₁ h₂
    simp only [length_load] at h₁
    simp only [load, List.getElem_map, List.getElem_range]
    rcases h with h | h
    · exact store_of_lt m bs (by omega)
    · exact store_of_ge m bs (by omega)

/-- Two loads that follow each other. -/
theorem load_add (m : Nat → β) (a n k : Nat) :
    load m a (n + k) = load m a n ++ load m (a + n) k := by
  unfold load
  rw [List.range_add, List.map_append, List.map_map]
  simp only [Function.comp_def, Nat.add_assoc]

/-- A block is its first value and the rest. -/
theorem store_cons (m : Nat → β) (a : Nat) (v : β) (vs : List β) :
    store m a (v :: vs) = store (fun i => if i = a then v else m i) (a + 1) vs := by
  funext i
  unfold store
  dsimp only
  by_cases hlt : i < a
  · rw [if_neg (by omega), if_neg (by omega), if_neg (by omega)]
  by_cases heq : i = a
  · subst heq
    rw [if_pos (Nat.le_refl i), if_neg (by omega), if_pos rfl, Nat.sub_self]
    rfl
  · rw [if_pos (by omega), if_pos (by omega), if_neg heq]
    rw [show i - a = (i - (a + 1)) + 1 by omega, List.getElem?_cons_succ]

end Mem
