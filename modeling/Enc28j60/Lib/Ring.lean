import Mathlib.Data.List.Basic
import Mathlib.Data.Nat.ModEq

/-!
# Enc28j60.Lib.Ring

Blocks in a ring of `N` cells, and a queue of records in such a ring.

Addresses are naturals below `N`; a block that runs past the last cell goes on
at cell 0.  The module has two parts:

* `load` and `store`, with the facts about where a store changed the ring and
  where it did not;
* `Laid m N p rs e`: from `p` on, the ring holds the images of the records `rs`
  one after the other, and `e` is where the next one will start.  A record's
  image may name the start of its successor.
-/

namespace Ring

variable {β : Type}

/-! ## blocks -/

/-- Read `n` cells from address `a`. -/
def load (m : Nat → β) (N a n : Nat) : List β := (List.range n).map fun k => m ((a + k) % N)

/-- Write a block at address `a`. -/
def store (m : Nat → β) (N a : Nat) (bs : List β) : Nat → β := fun i =>
  match (List.range bs.length).find? fun k => (a + k) % N == i with
  | some k => (bs[k]?).getD (m i)
  | none => m i

@[simp] theorem length_load (m : Nat → β) (N a n : Nat) : (load m N a n).length = n := by
  simp [load]

@[simp] theorem load_zero (m : Nat → β) (N a : Nat) : load m N a 0 = [] := rfl

theorem getElem_load {m : Nat → β} {N a n k : Nat} (h : k < (load m N a n).length) :
    (load m N a n)[k] = m ((a + k) % N) := by
  simp [load]

/-- A block starts with its first cell. -/
theorem load_succ (m : Nat → β) (N a n : Nat) :
    load m N a (n + 1) = m (a % N) :: load m N (a + 1) n := by
  unfold load
  rw [List.range_succ_eq_map]
  simp [Nat.add_assoc, Nat.add_comm 1]

/-- Two blocks that follow each other. -/
theorem load_add (m : Nat → β) (N a n k : Nat) :
    load m N a (n + k) = load m N a n ++ load m N (a + n) k := by
  induction n generalizing a with
  | zero => simp
  | succ n ih =>
      rw [Nat.add_right_comm, load_succ, load_succ, ih, List.cons_append]
      rw [Nat.add_assoc a 1 n, Nat.add_comm 1 n]

/-- A block inside a block. -/
theorem take_drop_load (m : Nat → β) (N a : Nat) {n j k : Nat} (h : j + k ≤ n) :
    ((load m N a n).drop j).take k = load m N (a + j) k := by
  apply List.ext_getElem
  · simp only [List.length_take, List.length_drop, length_load]
    omega
  · intro i h₁ h₂
    rw [List.getElem_take, List.getElem_drop, getElem_load, getElem_load, Nat.add_assoc]

@[simp] theorem load_mod (m : Nat → β) (N a n : Nat) : load m N (a % N) n = load m N a n := by
  simp [load]

theorem load_congr {m m' : Nat → β} {N a n : Nat}
    (h : ∀ k < n, m' ((a + k) % N) = m ((a + k) % N)) : load m' N a n = load m N a n := by
  unfold load
  exact List.map_congr_left fun k hk => h k (List.mem_range.mp hk)

/-- The cells a store does not reach keep their value. -/
theorem store_of_ne {m : Nat → β} {N a i : Nat} {bs : List β}
    (h : ∀ k < bs.length, (a + k) % N ≠ i) : store m N a bs i = m i := by
  have hnone : (List.range bs.length).find? (fun k => (a + k) % N == i) = none := by
    rw [List.find?_eq_none]
    intro k hk
    simpa using h k (List.mem_range.mp hk)
  unfold store
  rw [hnone]

/-- Offsets below `N` do not meet. -/
theorem eq_of_add_mod_eq {N a j k : Nat} (hj : j < N) (hk : k < N)
    (h : (a + j) % N = (a + k) % N) : j = k := by
  have hmod : j % N = k % N := Nat.ModEq.add_left_cancel' a h
  rwa [Nat.mod_eq_of_lt hj, Nat.mod_eq_of_lt hk] at hmod

/-- A block that fits in the ring is stored where it should be. -/
theorem store_of_mem {m : Nat → β} {N a k : Nat} {bs : List β} (hN : bs.length ≤ N)
    (hk : k < bs.length) : store m N a bs ((a + k) % N) = bs[k] := by
  have hsome : (List.range bs.length).find? (fun j => (a + j) % N == (a + k) % N) = some k := by
    cases hf : (List.range bs.length).find? (fun j => (a + j) % N == (a + k) % N) with
    | none =>
        rw [List.find?_eq_none] at hf
        simpa using hf k (List.mem_range.mpr hk)
    | some j =>
        have hj : j < bs.length := List.mem_range.mp (List.mem_of_find?_eq_some hf)
        have hjk : (a + j) % N = (a + k) % N := by simpa using List.find?_some hf
        rw [eq_of_add_mod_eq (by omega) (by omega) hjk]
  unfold store
  rw [hsome]
  simp [hk]

/-- A block reads back as it was stored. -/
theorem load_store {m : Nat → β} {N a : Nat} {bs : List β} (hN : bs.length ≤ N) :
    load (store m N a bs) N a bs.length = bs := by
  apply List.ext_getElem
  · simp
  · intro k h₁ h₂
    rw [getElem_load, store_of_mem hN h₂]

/-! ## records -/

section Records

variable {ρ : Type} (size : ρ → Nat) (image : Nat → ρ → List β)

/-- The records `rs`, each with the address it starts at, lie one after the
other from `p` on; the next one would start at `e`.  `image next r` is what `r`
looks like when its successor starts at `next`. -/
def Laid (m : Nat → β) (N : Nat) : Nat → List (Nat × ρ) → Nat → Prop
  | p, [], e => p = e
  | p, (a, r) :: rs, e =>
      a = p ∧ load m N p (image ((p + size r) % N) r).length = image ((p + size r) % N) r ∧
        Laid m N ((p + size r) % N) rs e

/-- The cells the records take. -/
def used (rs : List (Nat × ρ)) : Nat := (rs.map fun r => size r.2).sum

variable {size image} {m : Nat → β} {N p e : Nat} {rs : List (Nat × ρ)}

@[simp] theorem used_nil : used size ([] : List (Nat × ρ)) = 0 := rfl

@[simp] theorem used_cons (r : Nat × ρ) (rs : List (Nat × ρ)) :
    used size (r :: rs) = size r.2 + used size rs := by
  simp [used]

@[simp] theorem used_append (rs rs' : List (Nat × ρ)) :
    used size (rs ++ rs') = used size rs + used size rs' := by
  simp [used]

/-- The end of the records is where their sizes lead. -/
theorem Laid.end_eq (h : Laid size image m N p rs e) (hp : p < N) :
    e = (p + used size rs) % N := by
  induction rs generalizing p with
  | nil =>
      rw [used_nil, Nat.add_zero, Nat.mod_eq_of_lt hp]
      exact h.symm
  | cons r rs ih =>
      have hnext := ih h.2.2 (Nat.mod_lt _ (by omega))
      rw [hnext, used_cons, Nat.mod_add_mod, Nat.add_assoc]

/-- Only the cells the records take matter. -/
theorem Laid.congr {m' : Nat → β} (h : Laid size image m N p rs e)
    (himage : ∀ n r, (image n r).length ≤ size r)
    (hm : ∀ j < used size rs, m' ((p + j) % N) = m ((p + j) % N)) :
    Laid size image m' N p rs e := by
  induction rs generalizing p with
  | nil => exact h
  | cons r rs ih =>
      obtain ⟨a, r⟩ := r
      obtain ⟨ha, hload, hnext⟩ := h
      simp only [used_cons] at hm
      refine ⟨ha, ?_, ih hnext fun j hj => ?_⟩
      · have hlen := himage ((p + size r) % N) r
        exact (load_congr fun k hk => hm k (by omega)).trans hload
      · rw [Nat.mod_add_mod, Nat.add_assoc]
        exact hm _ (by omega)

/-- One more record behind the last one: nothing before it is overwritten. -/
theorem Laid.append (h : Laid size image m N p rs e) (hp : p < N)
    (himage : ∀ n r, (image n r).length ≤ size r) {r : ρ}
    (hfit : used size rs + size r ≤ N) :
    Laid size image (store m N e (image ((e + size r) % N) r)) N p (rs ++ [(e, r)])
      ((e + size r) % N) := by
  have hlen := himage ((e + size r) % N) r
  have hkeep : Laid size image (store m N e (image ((e + size r) % N) r)) N p rs e := by
    refine h.congr himage fun j hj => store_of_ne fun k hk heq => ?_
    rw [h.end_eq hp, Nat.mod_add_mod, Nat.add_assoc] at heq
    have := eq_of_add_mod_eq (by omega) (by omega) heq
    omega
  clear hp h
  induction rs generalizing p with
  | nil =>
      obtain rfl : p = e := hkeep
      refine ⟨rfl, ?_, rfl⟩
      exact load_store (by omega)
  | cons r' rs ih =>
      obtain ⟨ha, hload, hnext⟩ := hkeep
      rw [used_cons] at hfit
      exact ⟨ha, hload, ih (by omega) hnext⟩

end Records

end Ring
