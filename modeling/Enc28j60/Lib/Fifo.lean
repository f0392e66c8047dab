import Enc28j60.Lib.Ring

/-!
# Enc28j60.Lib.Fifo

A queue in a ring of `N` cells that is kept by its two indexes alone: `get` is
the next cell to be read, `put` the next one to be written, and nothing counts
the cells in between.

Such a ring holds `N - 1` cells.  With one more the indexes meet again, and it
reads as empty: what a ring makes of a queue `l` is `wrap N l`, which has lost
the largest multiple of `N` from the front of `l`.
-/

namespace Fifo

variable {β : Type} {N : Nat}

/-! ## a list as a ring keeps it -/

/-- What is left of `l` after each full turn has been lost. -/
def wrap (N : Nat) (l : List β) : List β := l.drop (N * (l.length / N))

theorem wrap_of_lt {l : List β} (h : l.length < N) : wrap N l = l := by
  simp [wrap, Nat.div_eq_of_lt h]

theorem wrap_of_eq {l : List β} (hN : 0 < N) (h : l.length = N) : wrap N l = [] := by
  simp [wrap, h, Nat.div_self hN]

theorem length_wrap (N : Nat) (l : List β) : (wrap N l).length = l.length % N := by
  have := Nat.div_add_mod l.length N
  simp only [wrap, List.length_drop]
  omega

/-- A full turn in front leaves no trace. -/
theorem wrap_append_of_eq {l r : List β} (hN : 0 < N) (h : l.length = N) :
    wrap N (l ++ r) = wrap N r := by
  have hdiv : (l ++ r).length / N = r.length / N + 1 := by
    rw [List.length_append, h, Nat.add_comm, Nat.add_div_right _ hN]
  unfold wrap
  rw [hdiv, Nat.mul_add, Nat.mul_one, Nat.add_comm, ← List.drop_drop, List.drop_left' h]

/-- Wrapping as soon as a turn is full is wrapping at the end. -/
theorem wrap_wrap_append {l r : List β} (hN : 0 < N) (h : l.length ≤ N) :
    wrap N (wrap N l ++ r) = wrap N (l ++ r) := by
  rcases Nat.lt_or_eq_of_le h with hlt | heq
  · rw [wrap_of_lt hlt]
  · rw [wrap_of_eq hN heq, wrap_append_of_eq hN heq, List.nil_append]

/-! ## the ring -/

/-- How far `put` is ahead of `get`. -/
def ahead (N get put : Nat) : Nat := (put + N - get) % N

/-- The cells between the indexes. -/
def held (m : Nat → β) (N get put : Nat) : List β := Ring.load m N get (ahead N get put)

@[simp] theorem length_held (m : Nat → β) (N get put : Nat) :
    (held m N get put).length = ahead N get put := by
  simp [held]

variable {m : Nat → β} {get put : Nat}

theorem ahead_lt (hN : 0 < N) : ahead N get put < N := Nat.mod_lt _ hN

/-- `n` cells on, whatever the number of turns. -/
theorem ahead_add (hg : get < N) (n : Nat) : ahead N get ((get + n) % N) = n % N := by
  unfold ahead
  rw [Nat.add_sub_assoc (Nat.le_of_lt hg), Nat.mod_add_mod,
    show get + n + (N - get) = n + N by omega, Nat.add_mod_right]

theorem add_ahead (hg : get < N) (hp : put < N) : (get + ahead N get put) % N = put := by
  unfold ahead
  rw [Nat.add_mod_mod, show get + (put + N - get) = put + N by omega, Nat.add_mod_right,
    Nat.mod_eq_of_lt hp]

/-- Write one cell and move `put` on. -/
theorem held_put (hg : get < N) (hp : put < N) (v : β) :
    held (fun i => if i = put then v else m i) N get ((put + 1) % N) =
      wrap N (held m N get put ++ [v]) := by
  have hN : 0 < N := by omega
  have hn : ahead N get put < N := ahead_lt hN
  have hput := add_ahead hg hp
  have hnext : ahead N get ((put + 1) % N) = (ahead N get put + 1) % N := by
    have h := ahead_add hg (ahead N get put + 1)
    rwa [← Nat.add_assoc, ← Nat.mod_add_mod, hput] at h
  have hkeep : Ring.load (fun i => if i = put then v else m i) N get (ahead N get put) =
      Ring.load m N get (ahead N get put) := by
    refine Ring.load_congr fun k hk => if_neg fun heq => ?_
    have := Ring.eq_of_add_mod_eq (by omega) hn (heq.trans hput.symm)
    omega
  unfold held
  rw [hnext]
  rcases (show ahead N get put + 1 < N ∨ ahead N get put + 1 = N by omega) with h | h
  · rw [Nat.mod_eq_of_lt h, wrap_of_lt (by simpa using h), Ring.load_add, hkeep, Ring.load_succ,
      Ring.load_zero, if_pos hput]
  · rw [h, Nat.mod_self, wrap_of_eq hN (by simpa using h),
      Ring.load_zero]

/-- Move `get` on over cells that are held. -/
theorem held_advance (hg : get < N) (hp : put < N) {k : Nat} (hk : k ≤ ahead N get put) :
    held m N ((get + k) % N) put = (held m N get put).drop k := by
  have hN : 0 < N := by omega
  have hn : ahead N get put < N := ahead_lt hN
  have hrest : ahead N ((get + k) % N) put = ahead N get put - k := by
    have h := ahead_add (Nat.mod_lt (get + k) hN) (ahead N get put - k)
    rwa [Nat.mod_add_mod, Nat.add_assoc, Nat.add_sub_cancel' hk, add_ahead hg hp,
      Nat.mod_eq_of_lt (show ahead N get put - k < N by omega)] at h
  have hsplit := Ring.load_add m N get k (ahead N get put - k)
  rw [Nat.add_sub_cancel' hk] at hsplit
  unfold held
  rw [hrest, Ring.load_mod, hsplit, List.drop_left' (by simp)]

/-- The first cells are one block of memory as long as they end before the ring does. -/
theorem take_held {k : Nat} (hk : k ≤ ahead N get put) (h : get + k ≤ N) :
    (held m N get put).take k = (List.range k).map fun i => m (get + i) := by
  have hsplit := Ring.load_add m N get k (ahead N get put - k)
  rw [Nat.add_sub_cancel' hk] at hsplit
  unfold held
  rw [hsplit, List.take_left' (by simp)]
  unfold Ring.load
  refine List.map_congr_left fun i hi => ?_
  have := List.mem_range.mp hi
  rw [Nat.mod_eq_of_lt (by omega)]

end Fifo
