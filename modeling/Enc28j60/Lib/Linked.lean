import Mathlib.Data.List.Basic
import Mathlib.Data.Fintype.Card
import Mathlib.Logic.Function.Basic

/-!
# Enc28j60.Lib.Linked

Cells linked by a `next` pointer: `Path next p l q` says that from `p` on the
pointers lead through the cells `l` to `q`, and `walk` collects the cells up to
the end.  The links of cells outside `l` do not matter (`Path.congr`); moving the
last link of a path moves its end (`Path.relink`).
-/

namespace Linked

variable {ι : Type}

def Path (next : ι → Option ι) : Option ι → List ι → Option ι → Prop
  | p, [], q => p = q
  | p, i :: l, q => p = some i ∧ Path next (next i) l q

/-- The cells from `p` to the end, as far as `n` of them. -/
def walk (next : ι → Option ι) : Nat → Option ι → List ι
  | n + 1, some i => i :: walk next n (next i)
  | _, _ => []

variable {next next' : ι → Option ι} {p q r : Option ι} {l m : List ι} {i : ι}

@[simp] theorem path_nil : Path next p [] q ↔ p = q := Iff.rfl

@[simp] theorem path_cons : Path next p (i :: l) q ↔ p = some i ∧ Path next (next i) l q := Iff.rfl

theorem path_append : Path next p (l ++ m) q ↔ ∃ r, Path next p l r ∧ Path next r m q := by
  induction l generalizing p with
  | nil => simp
  | cons i l ih => simp [ih, and_assoc]

theorem Path.congr (h : Path next p l q) (hnext : ∀ i ∈ l, next' i = next i) :
    Path next' p l q := by
  induction l generalizing p with
  | nil => exact h
  | cons i l ih =>
      refine ⟨h.1, ?_⟩
      rw [hnext i (by simp)]
      exact ih h.2 fun j hj => hnext j (by simp [hj])

/-- The link of the last cell, set to something else. -/
theorem Path.relink [DecidableEq ι] (h : Path next p (l ++ [i]) q) (hi : i ∉ l) :
    Path (Function.update next i r) p (l ++ [i]) r := by
  obtain ⟨s, hl, hs, -⟩ := path_append.mp h
  refine path_append.mpr ⟨s, hl.congr fun j hj => ?_, hs, ?_⟩
  · exact Function.update_of_ne (ne_of_mem_of_not_mem hj hi) _ _
  · simp

/-- No cell of a path that does not meet itself is linked to itself. -/
theorem Path.next_ne (h : Path next p l none) (hl : l.Nodup) (hi : i ∈ l) : next i ≠ some i := by
  induction l generalizing p with
  | nil => simp at hi
  | cons j l ih =>
      obtain ⟨hj, hl⟩ := List.nodup_cons.mp hl
      rcases List.mem_cons.mp hi with rfl | hi
      · intro heq
        have hpath := h.2
        rw [heq] at hpath
        cases l with
        | nil => simp at hpath
        | cons k l =>
            obtain rfl := Option.some.inj hpath.1
            simp at hj
      · exact ih h.2 hl hi

theorem walk_of_path {n : Nat} (h : Path next p l none) (hn : l.length ≤ n) :
    walk next n p = l := by
  induction l generalizing p n with
  | nil =>
      obtain rfl : p = none := h
      cases n <;> rfl
  | cons i l ih =>
      obtain ⟨rfl, h⟩ := h
      cases n with
      | zero => simp at hn
      | succ n => rw [walk, ih h (by simpa using hn)]

/-- As many steps as there are cells are enough. -/
theorem walk_of_nodup [Fintype ι] (h : Path next p l none) (hl : l.Nodup) :
    walk next (Fintype.card ι) p = l :=
  walk_of_path h hl.length_le_card

end Linked
