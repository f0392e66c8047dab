import Mathlib.Algebra.Order.Group.Nat
import Mathlib.Algebra.BigOperators.Group.List.Basic

/-!
# Enc28j60.Lib.DeltaList

A delta list: each entry carries the time from the one before it to its own.
`times t l` are the times of the entries when the first one counts from `t`.

* An entry put at the end with the rest of a fixed time gets just that time
  (`times_append_rest`).
* An entry taken out leaves its time to its successor, and no other time changes
  (`times_carry`).
* `elapse t` runs entries out until `t` is used up (`times_elapse`): what is
  earlier than `t`, and the first entry at `t`.  Entries behind that one at the
  same time stay, with nothing left to wait.
-/

namespace DeltaList

variable {α : Type}

def times : Nat → List (Nat × α) → List (Nat × α)
  | _, [] => []
  | t, (d, a) :: l => (t + d, a) :: times (t + d) l

/-- The time of the last entry. -/
def total : List (Nat × α) → Nat
  | [] => 0
  | e :: l => e.1 + total l

@[simp] theorem total_nil : total ([] : List (Nat × α)) = 0 := rfl

@[simp] theorem total_cons (e : Nat × α) (l : List (Nat × α)) :
    total (e :: l) = e.1 + total l := rfl

@[simp] theorem total_append (l m : List (Nat × α)) : total (l ++ m) = total l + total m := by
  induction l with
  | nil => simp
  | cons e l ih => simp [ih, Nat.add_assoc]

theorem times_append (t : Nat) (l m : List (Nat × α)) :
    times t (l ++ m) = times t l ++ times (t + total l) m := by
  induction l generalizing t with
  | nil => simp [times]
  | cons e l ih => simp [times, ih, Nat.add_assoc]

@[simp] theorem map_snd_times (t : Nat) (l : List (Nat × α)) :
    (times t l).map Prod.snd = l.map Prod.snd := by
  induction l generalizing t with
  | nil => rfl
  | cons e l ih => simp [times, ih]

@[simp] theorem length_times (t : Nat) (l : List (Nat × α)) : (times t l).length = l.length := by
  rw [← List.length_map Prod.snd, map_snd_times, List.length_map]

theorem le_of_mem_times {t : Nat} {l : List (Nat × α)} {e : Nat × α} (h : e ∈ times t l) :
    t ≤ e.1 ∧ e.1 ≤ t + total l := by
  induction l generalizing t with
  | nil => simp [times] at h
  | cons d l ih =>
      simp only [times, List.mem_cons] at h
      rcases h with rfl | h
      · simp
      · have := ih h
        simp
        omega

theorem sorted_times (t : Nat) (l : List (Nat × α)) :
    (times t l).Pairwise fun e e' => e.1 ≤ e'.1 := by
  induction l generalizing t with
  | nil => exact List.Pairwise.nil
  | cons d l ih => exact List.pairwise_cons.mpr ⟨fun e he => (le_of_mem_times he).1, ih _⟩

/-- Time is counted from any start. -/
theorem times_add (t u : Nat) (l : List (Nat × α)) :
    times (t + u) l = (times t l).map fun e => (e.1 + u, e.2) := by
  induction l generalizing t with
  | nil => rfl
  | cons e l ih => simp [times, ← ih, Nat.add_right_comm]

/-! ## at the end -/

theorem times_append_rest {l : List (Nat × α)} {T : Nat} (h : total l ≤ T) (a : α) :
    times 0 (l ++ [(T - total l, a)]) = times 0 l ++ [(T, a)] := by
  rw [times_append]
  simp [times, h]

/-! ## out of the list -/

/-- Leave the time `d` to the first entry. -/
def carry (d : Nat) : List (Nat × α) → List (Nat × α)
  | [] => []
  | (d', a) :: l => (d' + d, a) :: l

theorem times_carry (t d : Nat) (l : List (Nat × α)) : times t (carry d l) = times (t + d) l := by
  cases l with
  | nil => rfl
  | cons e l => simp [carry, times, Nat.add_assoc, Nat.add_comm d]

theorem total_carry_le (d : Nat) (l : List (Nat × α)) : total (carry d l) ≤ d + total l := by
  cases l with
  | nil => simp [carry]
  | cons e l => simp [carry]; omega

/-! ## as time goes by -/

def elapse : Nat → List (Nat × α) → List α × List (Nat × α)
  | 0, l => ([], l)
  | _ + 1, [] => ([], [])
  | t + 1, (d, a) :: l =>
      if d ≤ t + 1 then (a :: (elapse (t + 1 - d) l).1, (elapse (t + 1 - d) l).2)
      else ([], (d - (t + 1), a) :: l)

@[simp] theorem elapse_zero (l : List (Nat × α)) : elapse 0 l = ([], l) := by
  simp [elapse]

@[simp] theorem elapse_nil (t : Nat) : elapse t ([] : List (Nat × α)) = ([], []) := by
  cases t <;> rfl

theorem elapse_of_le {t d : Nat} (ht : 0 < t) (h : d ≤ t) (a : α) (l : List (Nat × α)) :
    elapse t ((d, a) :: l) = (a :: (elapse (t - d) l).1, (elapse (t - d) l).2) := by
  cases t with
  | zero => omega
  | succ t => rw [elapse, if_pos h]

theorem elapse_of_lt {t d : Nat} (h : t < d) (a : α) (l : List (Nat × α)) :
    elapse t ((d, a) :: l) = ([], (d - t, a) :: l) := by
  cases t with
  | zero => simp
  | succ t => rw [elapse, if_neg (by omega)]

/-- What runs out within `t`: everything before it, and the first entry at it. -/
def due (t : Nat) : List (Nat × α) → List α
  | [] => []
  | (u, a) :: l => if u < t then a :: due t l else if u = t then [a] else []

/-- What stays, and for how long. -/
def left (t : Nat) : List (Nat × α) → List (Nat × α)
  | [] => []
  | (u, a) :: l =>
      if u < t then left t l
      else ((if u = t then l else (u, a) :: l)).map fun e => (e.1 - t, e.2)

theorem due_append_left (t : Nat) (l : List (Nat × α)) :
    due t l ++ (left t l).map Prod.snd = l.map Prod.snd := by
  induction l with
  | nil => rfl
  | cons e l ih =>
      obtain ⟨u, a⟩ := e
      unfold due left
      split
      · simp [ih]
      · split <;> simp

theorem mem_due {t : Nat} {l : List (Nat × α)} {a : α} (h : a ∈ due t l) :
    ∃ u ≤ t, (u, a) ∈ l := by
  induction l with
  | nil => simp [due] at h
  | cons e l ih =>
      obtain ⟨u, b⟩ := e
      unfold due at h
      grind

theorem mem_left {t : Nat} {l : List (Nat × α)} (hl : l.Pairwise fun e e' => e.1 ≤ e'.1)
    {e : Nat × α} (h : e ∈ left t l) : ∃ u, t ≤ u ∧ (u, e.2) ∈ l ∧ e.1 = u - t := by
  induction l with
  | nil => simp [left] at h
  | cons d l ih =>
      obtain ⟨u, b⟩ := d
      obtain ⟨hd, hl⟩ := List.pairwise_cons.mp hl
      by_cases hu : u < t
      · rw [left, if_pos hu] at h
        obtain ⟨v, hv, hmem, heq⟩ := ih hl h
        exact ⟨v, hv, List.mem_cons_of_mem _ hmem, heq⟩
      · rw [left, if_neg hu] at h
        obtain ⟨d, hd', rfl⟩ := List.mem_map.mp h
        have hmem : d ∈ (u, b) :: l := by
          split at hd'
          · exact List.mem_cons_of_mem _ hd'
          · exact hd'
        refine ⟨d.1, ?_, hmem, rfl⟩
        rcases List.mem_cons.mp hmem with rfl | hmem
        · omega
        · have := hd d hmem
          simp at this
          omega

theorem total_elapse_le (t : Nat) (l : List (Nat × α)) : total (elapse t l).2 ≤ total l := by
  induction t, l using elapse.induct with
  | case1 l => simp
  | case2 t => simp
  | case3 t d a l h ih =>
      rw [elapse, if_pos h, total_cons]
      exact Nat.le_trans ih (Nat.le_add_left _ _)
  | case4 t d a l h => simp [elapse, h]

/-- Counted from `s`, time `t` ends at `s + t`. -/
theorem times_elapse (s t : Nat) (ht : 0 < t) (l : List (Nat × α)) :
    (elapse t l).1 = due (s + t) (times s l) ∧
      times 0 (elapse t l).2 = left (s + t) (times s l) := by
  induction t, l using elapse.induct generalizing s with
  | case1 l => omega
  | case2 t => simp [elapse, times, due, left]
  | case3 t d a l h ih =>
      rw [elapse, if_pos h]
      rcases Nat.lt_or_eq_of_le h with hlt | heq
      · have hrest := ih (s + d) (by omega)
        rw [show s + d + (t + 1 - d) = s + (t + 1) by omega] at hrest
        simp [times, due, left, hrest, hlt]
      · subst heq
        have hzero : times 0 l = (times (s + (t + 1)) l).map fun e => (e.1 - (s + (t + 1)), e.2) := by
          rw [show s + (t + 1) = 0 + (s + (t + 1)) by omega, times_add, List.map_map]
          simp [Function.comp_def]
        simp [times, due, left, hzero]
  | case4 t d a l h =>
      have hnlt : ¬s + d < s + (t + 1) := by omega
      have hne : d ≠ t + 1 := by omega
      have hrest : times (d - (t + 1)) l =
          (times (s + d) l).map fun e => (e.1 - (s + (t + 1)), e.2) := by
        rw [show s + d = d - (t + 1) + (s + (t + 1)) by omega, times_add (d - (t + 1)),
          List.map_map]
        simp [Function.comp_def]
      have hhead : s + d - (s + (t + 1)) = d - (t + 1) := by omega
      rw [elapse, if_neg h]
      simp [times, due, left, hnlt, hne, hrest, hhead]

end DeltaList
