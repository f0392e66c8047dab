import Mathlib.Logic.Relation

/-!
# Enc28j60.Lib.Resumption

Programs that run beside an environment.

A `Res σ α` is a resumption: a tree of atomic actions on a shared state `σ`,
with a value of type `α` at the end.  Between any two actions the environment
may change the state by its own steps `R`, so a function written in this monad
is one *thread* of a concurrent system, and its interleavings are what the
relation `Step R` generates.

The module has three parts:

* the monad, its laws and the sequential interpreter `run` (no environment);
* the logic: `wp R G p Q` says that, whatever the environment does, `G` holds
  at every moment of `p` and `Q` holds when it is done.  `Triple` packages it
  as a Hoare triple; the rules below are the only ones later modules use;
* the endless loop: a body run again and again (`Loop.Step`), and the rule
  that turns one triple about the body into a fact about every reachable
  configuration (`Loop.sound`).
-/

/-- A resumption over the shared state `σ`.  `step upd next` is one atomic
action: the state becomes `upd s` and the program goes on as `next s`, where
`s` is the state the action found.  `stuck` is a loop that is never left. -/
inductive Res (σ α : Type) where
  | done (a : α)
  | step (upd : σ → σ) (next : σ → Res σ α)
  | stuck

namespace Res

variable {σ α β : Type}

/-! ## the monad -/

/-- Sequencing: run `p`, hand its value to `f`. -/
protected def bind : Res σ α → (α → Res σ β) → Res σ β
  | done a, f => f a
  | step upd next, f => step upd fun s => (next s).bind f
  | stuck, _ => stuck

instance : Monad (Res σ) where
  pure := done
  bind := Res.bind

@[simp] theorem pure_eq (a : α) : (pure a : Res σ α) = done a := rfl

@[simp] theorem bind_done (a : α) (f : α → Res σ β) : (done a >>= f) = f a := rfl

@[simp] theorem bind_step (upd : σ → σ) (next : σ → Res σ α) (f : α → Res σ β) :
    (step upd next >>= f) = step upd fun s => next s >>= f := rfl

@[simp] theorem bind_stuck (f : α → Res σ β) : (stuck >>= f) = stuck := rfl

theorem bind_pure_right (p : Res σ α) : (p >>= pure) = p := by
  induction p with
  | done a => rfl
  | step upd next ih => simp [ih]
  | stuck => rfl

theorem bind_assoc' {γ : Type} (p : Res σ α) (f : α → Res σ β) (g : β → Res σ γ) :
    (p >>= f >>= g) = (p >>= fun a => f a >>= g) := by
  induction p with
  | done a => rfl
  | step upd next ih => simp [ih]
  | stuck => rfl

instance : LawfulMonad (Res σ) :=
  LawfulMonad.mk' (Res σ) (fun p => bind_pure_right p) (fun _ _ => rfl) bind_assoc'

/-- One atomic action: read the state, change it, return a value. -/
def act (f : σ → β × σ) : Res σ β := step (fun s => (f s).2) fun s => done (f s).1

/-- An atomic read. -/
def gets (f : σ → β) : Res σ β := act fun s => (f s, s)

/-- An atomic update. -/
def modify (f : σ → σ) : Res σ Unit := act fun s => ((), f s)

/-- `while (body ()) continue;` for at most `fuel` rounds; a loop that has not
been left by then is `stuck`. -/
def pollWhile (body : Res σ Bool) : Nat → Res σ Unit
  | 0 => stuck
  | fuel + 1 => do
      let again ← body
      if again then pollWhile body fuel else pure ()

/-! ## the sequential interpreter -/

/-- Run with no environment at all. -/
def run : Res σ α → σ → Option (α × σ)
  | done a, s => some (a, s)
  | step upd next, s => run (next s) (upd s)
  | stuck, _ => none

@[simp] theorem run_pure (a : α) (s : σ) : run (pure a : Res σ α) s = some (a, s) := rfl

@[simp] theorem run_done (a : α) (s : σ) : run (done a : Res σ α) s = some (a, s) := rfl

@[simp] theorem run_act (f : σ → β × σ) (s : σ) : run (act f) s = some (f s) := rfl

@[simp] theorem run_gets (f : σ → β) (s : σ) : run (gets f) s = some (f s, s) := rfl

@[simp] theorem run_modify (f : σ → σ) (s : σ) : run (modify f) s = some ((), f s) := rfl

@[simp] theorem run_bind (p : Res σ α) (f : α → Res σ β) (s : σ) :
    run (p >>= f) s = (run p s).bind fun r => run (f r.1) r.2 := by
  induction p generalizing s with
  | done a => rfl
  | step upd next ih => simp only [bind_step, run, ih]
  | stuck => rfl

/-! ## interleavings -/

/-- One step of the program beside its environment. -/
inductive Step (R : σ → σ → Prop) : Res σ α × σ → Res σ α × σ → Prop
  | env {p s s'} (h : R s s') : Step R (p, s) (p, s')
  | act {upd next s} : Step R (step upd next, s) (next s, upd s)

/-- A finite number of steps, in any order. -/
abbrev Steps (R : σ → σ → Prop) : Res σ α × σ → Res σ α × σ → Prop :=
  Relation.ReflTransGen (Step R)

/-- The sequential run is one of the interleavings. -/
theorem steps_of_run (R : σ → σ → Prop) {p : Res σ α} {s s' : σ} {a : α}
    (h : run p s = some (a, s')) : Steps R (p, s) (done a, s') := by
  induction p generalizing s with
  | done b =>
      simp only [run, Option.some.injEq, Prod.mk.injEq] at h
      obtain ⟨rfl, rfl⟩ := h
      exact .refl
  | step upd next ih => exact .head .act (ih s h)
  | stuck => simp [run] at h

/-- Steps of the first part of a sequence. -/
theorem steps_bind {R : σ → σ → Prop} {p p' : Res σ α} {s s' : σ} (f : α → Res σ β)
    (h : Steps R (p, s) (p', s')) : Steps R (p >>= f, s) (p' >>= f, s') := by
  generalize hc : (p, s) = c at h
  generalize hc' : (p', s') = c' at h
  induction h generalizing p' s' with
  | refl =>
      subst hc
      cases hc'
      exact .refl
  | tail _ hstep ih =>
      cases hstep with
      | env hr =>
          cases hc'
          exact (ih rfl).tail (.env hr)
      | act =>
          cases hc'
          exact (ih rfl).tail .act

/-- At most `n` actions, with no environment. -/
def advance : Nat → Res σ α × σ → Res σ α × σ
  | n + 1, (step upd next, s) => advance n (next s, upd s)
  | _, c => c

theorem steps_advance (R : σ → σ → Prop) (n : Nat) (c : Res σ α × σ) :
    Steps R c (advance n c) := by
  induction n generalizing c with
  | zero => exact .refl
  | succ n ih =>
      obtain ⟨p, s⟩ := c
      cases p with
      | done a => exact .refl
      | step upd next => exact .head .act (ih (next s, upd s))
      | stuck => exact .refl

/-! ## the logic -/

/-- An assertion that the environment keeps and that implies the guarantee. -/
structure Stable (R : σ → σ → Prop) (G P : σ → Prop) : Prop where
  env : ∀ s s', R s s' → P s → P s'
  guard : ∀ s, P s → G s

/-- `G` holds at every moment of `p`, whatever the environment does, and `Q`
when `p` is done. -/
def wp (R : σ → σ → Prop) (G : σ → Prop) : Res σ α → (α → σ → Prop) → σ → Prop
  | done a, Q, s => ∀ s', Relation.ReflTransGen R s s' → G s' ∧ Q a s'
  | step upd next, Q, s =>
      ∀ s', Relation.ReflTransGen R s s' → G s' ∧ wp R G (next s') Q (upd s')
  | stuck, _, s => ∀ s', Relation.ReflTransGen R s s' → G s'

/-- A Hoare triple under interference. -/
def Triple (R : σ → σ → Prop) (G : σ → Prop) (P : σ → Prop) (p : Res σ α)
    (Q : α → σ → Prop) : Prop :=
  ∀ s, P s → wp R G p Q s

variable {R : σ → σ → Prop} {G P : σ → Prop} {Q : α → σ → Prop}

theorem Stable.star (hP : Stable R G P) {s s' : σ} (h : Relation.ReflTransGen R s s')
    (hs : P s) : P s' := by
  induction h with
  | refl => exact hs
  | tail _ hstep ih => exact hP.env _ _ hstep ih

theorem Stable.and {P' : σ → Prop} (h : Stable R G P) (h' : Stable R G P') :
    Stable R G fun s => P s ∧ P' s where
  env s s' hr hs := ⟨h.env s s' hr hs.1, h'.env s s' hr hs.2⟩
  guard s hs := h.guard s hs.1

theorem Stable.pure_and {φ : Prop} (h : Stable R G P) : Stable R G fun s => φ ∧ P s where
  env s s' hr hs := ⟨hs.1, h.env s s' hr hs.2⟩
  guard s hs := h.guard s hs.2

theorem wp.star {p : Res σ α} {s s' : σ} (h : wp R G p Q s)
    (hr : Relation.ReflTransGen R s s') : wp R G p Q s' := by
  cases p with
  | done a => exact fun t ht => h t (hr.trans ht)
  | step upd next => exact fun t ht => h t (hr.trans ht)
  | stuck => exact fun t ht => h t (hr.trans ht)

theorem wp.guard {p : Res σ α} {s : σ} (h : wp R G p Q s) : G s := by
  cases p with
  | done a => exact (h s .refl).1
  | step upd next => exact (h s .refl).1
  | stuck => exact h s .refl

theorem wp.mono {Q' : α → σ → Prop} {p : Res σ α} {s : σ} (h : wp R G p Q s)
    (hQ : ∀ a t, Q a t → Q' a t) : wp R G p Q' s := by
  induction p generalizing s with
  | done a => exact fun t ht => ⟨(h t ht).1, hQ a t (h t ht).2⟩
  | step upd next ih => exact fun t ht => ⟨(h t ht).1, ih t (h t ht).2⟩
  | stuck => exact h

theorem wp.bind {p : Res σ α} {f : α → Res σ β} {Q : β → σ → Prop} {s : σ}
    (h : wp R G p (fun a t => wp R G (f a) Q t) s) : wp R G (p >>= f) Q s := by
  induction p generalizing s with
  | done a => exact (h s .refl).2
  | step upd next ih => exact fun t ht => ⟨(h t ht).1, ih t (h t ht).2⟩
  | stuck => exact h

/-- What the logic is for: along every interleaving the rest of the program
still satisfies its `wp`. -/
theorem wp.steps {p p' : Res σ α} {s s' : σ} (h : wp R G p Q s)
    (hs : Steps R (p, s) (p', s')) : wp R G p' Q s' := by
  generalize hc : (p, s) = c at hs
  generalize hc' : (p', s') = c' at hs
  induction hs generalizing p' s' with
  | refl =>
      subst hc
      cases hc'
      exact h
  | tail _ hstep ih =>
      subst hc
      cases hstep with
      | env hr =>
          cases hc'
          exact (ih rfl).star (.single hr)
      | act =>
          cases hc'
          exact ((ih rfl) _ .refl).2

/-! ## rules for triples -/

theorem Triple.done {a : α} (hQ : Stable R G (Q a)) : Triple R G (Q a) (done a) Q :=
  fun _ hs t ht => ⟨hQ.guard t (hQ.star ht hs), hQ.star ht hs⟩

theorem Triple.pure {a : α} (hQ : Stable R G (Q a)) : Triple R G (Q a) (pure a) Q :=
  Triple.done hQ

theorem Triple.act {f : σ → α × σ} (hP : Stable R G P) (hQ : ∀ a, Stable R G (Q a))
    (h : ∀ s, P s → Q (f s).1 (f s).2) : Triple R G P (act f) Q :=
  fun _ hs t ht => ⟨hP.guard t (hP.star ht hs),
    Triple.done (hQ _) _ (h t (hP.star ht hs))⟩

theorem Triple.gets {f : σ → α} (hP : Stable R G P) (hQ : ∀ a, Stable R G (Q a))
    (h : ∀ s, P s → Q (f s) s) : Triple R G P (gets f) Q :=
  Triple.act hP hQ h

theorem Triple.modify {f : σ → σ} {Q : Unit → σ → Prop} (hP : Stable R G P)
    (hQ : ∀ a, Stable R G (Q a)) (h : ∀ s, P s → Q () (f s)) : Triple R G P (modify f) Q :=
  Triple.act hP hQ h

theorem Triple.bind {p : Res σ α} {f : α → Res σ β} {M : α → σ → Prop} {Q : β → σ → Prop}
    (hp : Triple R G P p M) (hf : ∀ a, Triple R G (M a) (f a) Q) :
    Triple R G P (p >>= f) Q :=
  fun s hs => ((hp s hs).mono fun a t ht => hf a t ht).bind

theorem Triple.conseq {P' : σ → Prop} {Q' : α → σ → Prop} {p : Res σ α}
    (h : Triple R G P' p Q') (hP : ∀ s, P s → P' s) (hQ : ∀ a s, Q' a s → Q a s) :
    Triple R G P p Q :=
  fun s hs => (h s (hP s hs)).mono hQ

/-- Two views of one program; the second may have been proved against more
interference and for another guarantee. -/
theorem wp.and {R' : σ → σ → Prop} {G' : σ → Prop} {Q' : α → σ → Prop} {p : Res σ α} {s : σ}
    (hR : ∀ s s', R s s' → R' s s') (h : wp R G p Q s) (h' : wp R' G' p Q' s) :
    wp R G p (fun a s => Q a s ∧ Q' a s) s := by
  induction p generalizing s with
  | done a => exact fun t ht => ⟨(h t ht).1, (h t ht).2, (h' t (Relation.ReflTransGen.mono hR _ _ ht)).2⟩
  | step upd next ih => exact fun t ht => ⟨(h t ht).1, ih t (h t ht).2 (h' t (Relation.ReflTransGen.mono hR _ _ ht)).2⟩
  | stuck => exact h

theorem Triple.and {R' : σ → σ → Prop} {G' P' : σ → Prop} {Q' : α → σ → Prop} {p : Res σ α}
    (hR : ∀ s s', R s s' → R' s s') (h : Triple R G P p Q) (h' : Triple R' G' P' p Q') :
    Triple R G (fun s => P s ∧ P' s) p fun a s => Q a s ∧ Q' a s :=
  fun s hs => (h s hs.1).and hR (h' s hs.2)

theorem wp.forall {ι : Type} [Inhabited ι] {Q : ι → α → σ → Prop} {p : Res σ α} {s : σ}
    (h : ∀ i, wp R G p (Q i) s) : wp R G p (fun a s => ∀ i, Q i a s) s := by
  induction p generalizing s with
  | done a => exact fun t ht => ⟨(h default t ht).1, fun i => (h i t ht).2⟩
  | step upd next ih => exact fun t ht => ⟨(h default t ht).1, ih t fun i => (h i t ht).2⟩
  | stuck => exact h default

theorem Triple.forall {ι : Type} [Inhabited ι] {Q : ι → α → σ → Prop} {p : Res σ α}
    (h : ∀ i, Triple R G P p (Q i)) : Triple R G P p fun a s => ∀ i, Q i a s :=
  fun s hs => wp.forall fun i => h i s hs

/-- A fact that is not about the state moves out of the precondition. -/
theorem Triple.of_pure {φ : Prop} {p : Res σ α} (h : φ → Triple R G P p Q) :
    Triple R G (fun s => φ ∧ P s) p Q :=
  fun s hs => h hs.1 s hs.2

theorem Triple.exists {ι : Type} {P : ι → σ → Prop} {p : Res σ α}
    (h : ∀ i, Triple R G (P i) p Q) : Triple R G (fun s => ∃ i, P i s) p Q :=
  fun s ⟨i, hs⟩ => h i s hs

/-- Nothing is said. -/
theorem Triple.trivial {p : Res σ α} :
    Triple R (fun _ => True) P p fun _ _ => True := by
  induction p generalizing P with
  | done a => exact fun _ _ _ _ => ⟨True.intro, True.intro⟩
  | step upd next ih => exact fun _ _ t _ => ⟨True.intro, ih t (P := fun _ => True) _ True.intro⟩
  | stuck => exact fun _ _ _ _ => True.intro

theorem Triple.stuck (hP : Stable R G P) : Triple R G P (stuck : Res σ α) Q :=
  fun _ hs t ht => hP.guard t (hP.star ht hs)

/-- A poll loop keeps the assertion its body keeps; it is left on `false`. -/
theorem Triple.pollWhile {body : Res σ Bool} {Q : Unit → σ → Prop} (hP : Stable R G P)
    (hQ : Stable R G (Q ()))
    (hb : Triple R G P body fun again s => if again then P s else Q () s) (fuel : Nat) :
    Triple R G P (Res.pollWhile body fuel) Q := by
  induction fuel with
  | zero => exact Triple.stuck hP
  | succ fuel ih =>
      refine Triple.bind hb fun again => ?_
      cases again with
      | true => exact ih
      | false => exact Triple.pure hQ

/-! ## termination -/

/-- `p` ends, whatever state its actions find. -/
def Total : Res σ α → Prop
  | done _ => True
  | step _ next => ∀ s, Total (next s)
  | stuck => False

theorem total_pure (a : α) : Total (pure a : Res σ α) := trivial

theorem total_act (f : σ → α × σ) : Total (act f) := fun _ => trivial

theorem Total.bind {p : Res σ α} {f : α → Res σ β} (hp : Total p) (hf : ∀ a, Total (f a)) :
    Total (p >>= f) := by
  induction p with
  | done a => exact hf a
  | step upd next ih => exact fun s => ih s (hp s)
  | stuck => exact hp.elim

theorem Total.ite {c : Prop} [Decidable c] {p q : Res σ α} (hp : Total p) (hq : Total q) :
    Total (if c then p else q) := by
  split
  · exact hp
  · exact hq

/-- The environment cannot keep a total program from ending: it is never stuck,
and left alone it returns. -/
theorem Total.steps {p p' : Res σ α} {s s' : σ} (hp : Total p) (h : Steps R (p, s) (p', s')) :
    ∃ a t, run p' s' = some (a, t) := by
  have hp' : Total p' := by
    generalize hc : (p, s) = c at h
    generalize hc' : (p', s') = c' at h
    induction h generalizing p' s' with
    | refl =>
        subst hc
        cases hc'
        exact hp
    | tail _ hstep ih =>
        cases hstep with
        | env hr =>
            cases hc'
            exact ih rfl
        | act =>
            cases hc'
            exact (ih rfl) _
  clear h hp
  induction p' generalizing s' with
  | done a => exact ⟨a, s', rfl⟩
  | step upd next ih => exact ih s' (hp' s')
  | stuck => exact hp'.elim

/-! ## step-wise guarantees -/

/-- Every atomic action of `p` stays inside the relation `K`. -/
def All (K : σ → σ → Prop) : Res σ α → Prop
  | done _ => True
  | step upd next => ∀ s, K s (upd s) ∧ All K (next s)
  | stuck => True

section All

variable {K : σ → σ → Prop}

@[simp] theorem all_pure (a : α) : All K (pure a : Res σ α) := trivial

@[simp] theorem all_done (a : α) : All K (done a : Res σ α) := trivial

@[simp] theorem all_stuck : All K (stuck : Res σ α) := trivial

@[simp] theorem all_act (f : σ → β × σ) : All K (act f) ↔ ∀ s, K s (f s).2 := by
  simp [act, All]

@[simp] theorem all_gets (f : σ → β) : All K (gets f) ↔ ∀ s, K s s := by simp [gets]

@[simp] theorem all_modify (f : σ → σ) : All K (modify f) ↔ ∀ s, K s (f s) := by simp [modify]

theorem All.bind {p : Res σ α} {f : α → Res σ β} (hp : All K p) (hf : ∀ a, All K (f a)) :
    All K (p >>= f) := by
  induction p with
  | done a => exact hf a
  | step upd next ih => exact fun s => ⟨(hp s).1, ih s (hp s).2⟩
  | stuck => trivial

theorem All.ite {c : Prop} [Decidable c] {p q : Res σ α} (hp : All K p) (hq : All K q) :
    All K (if c then p else q) := by
  split
  · exact hp
  · exact hq

theorem All.pollWhile {body : Res σ Bool} (hb : All K body) (fuel : Nat) :
    All K (Res.pollWhile body fuel) := by
  induction fuel with
  | zero => trivial
  | succ fuel ih => exact hb.bind fun again => All.ite ih (all_pure ())

theorem All.mono {K' : σ → σ → Prop} {p : Res σ α} (h : All K p)
    (hK : ∀ s s', K s s' → K' s s') : All K' p := by
  induction p with
  | done a => trivial
  | step upd next ih => exact fun s => ⟨hK _ _ (h s).1, ih s (h s).2⟩
  | stuck => trivial

/-- The frame rule: an assertion that the environment and every action of `p`
keep holds throughout `p` and after it. -/
theorem Triple.frame {p : Res σ α} (hP : Stable R G P) (hp : All K p)
    (hK : ∀ s s', K s s' → P s → P s') : Triple R G P p fun _ => P := by
  induction p with
  | done a => exact Triple.done (Q := fun _ => P) hP
  | step upd next ih =>
      intro s hs t ht
      have hPt : P t := hP.star ht hs
      exact ⟨hP.guard t hPt, ih t (hp t).2 _ (hK _ _ (hp t).1 hPt)⟩
  | stuck => exact Triple.stuck hP

end All

end Res

/-! ## the endless loop -/

/-- Where the control of `boot; while (1) { body }` is. -/
inductive Ctl (σ : Type) where
  | head
  | run (p : Res σ Unit)

namespace Loop

open Res

variable {σ : Type}

/-- One step of the loop beside its environment. -/
inductive Step (R : σ → σ → Prop) (body : Res σ Unit) : Ctl σ × σ → Ctl σ × σ → Prop
  | env {c s s'} (h : R s s') : Step R body (c, s) (c, s')
  | enter {s} : Step R body (.head, s) (.run body, s)
  | act {upd next s} : Step R body (.run (.step upd next), s) (.run (next s), upd s)
  | back {s} : Step R body (.run (.done ()), s) (.head, s)

/-- The configurations a loop reaches. -/
abbrev Steps (R : σ → σ → Prop) (body : Res σ Unit) : Ctl σ × σ → Ctl σ × σ → Prop :=
  Relation.ReflTransGen (Step R body)

variable {R : σ → σ → Prop} {body : Res σ Unit} {G I : σ → Prop}

/-- What holds of a reachable configuration: `I` at the head, and inside the
body that its rest will re-establish `I`. -/
def Inv (R : σ → σ → Prop) (G I : σ → Prop) : Ctl σ × σ → Prop
  | (.head, s) => I s
  | (.run p, s) => wp R G p (fun _ => I) s

/-- **The loop rule.**  If `I` is stable and one round of the body takes `I` to
`I`, then `I` holds whenever control is at the head, and `G` always. -/
theorem sound (hI : Stable R G I) (hbody : Triple R G I body fun _ => I)
    {c c' : Ctl σ × σ} (hc : Inv R G I c) (h : Steps R body c c') : Inv R G I c' := by
  induction h with
  | refl => exact hc
  | tail _ hstep ih =>
      cases hstep with
      | @env c s s' hr =>
          cases c with
          | head => exact hI.env _ _ hr ih
          | run p => exact wp.star ih (.single hr)
      | enter => exact hbody _ ih
      | act => exact (ih _ .refl).2
      | back => exact (ih _ .refl).2

theorem Inv.guard (hI : Stable R G I) {c : Ctl σ} {s : σ} (h : Inv R G I (c, s)) : G s := by
  cases c with
  | head => exact hI.guard s h
  | run p => exact wp.guard h

/-- Steps of the body are steps of the loop. -/
theorem steps_of_steps {R : σ → σ → Prop} (body : Res σ Unit) {p p' : Res σ Unit} {s s' : σ}
    (h : Res.Steps R (p, s) (p', s')) : Steps R body (.run p, s) (.run p', s') := by
  generalize hc : (p, s) = c at h
  generalize hc' : (p', s') = c' at h
  induction h generalizing p' s' with
  | refl =>
      subst hc
      cases hc'
      exact .refl
  | tail _ hstep ih =>
      cases hstep with
      | env hr =>
          cases hc'
          exact (ih rfl).tail (.env hr)
      | act =>
          cases hc'
          exact (ih rfl).tail .act

/-- A finished round of the body is a run from head to head. -/
theorem steps_of_run (R : σ → σ → Prop) (body : Res σ Unit) {p : Res σ Unit} {s s' : σ}
    (h : Res.run p s = some ((), s')) : Steps R body (.run p, s) (.head, s') := by
  induction p generalizing s with
  | done a =>
      simp only [Res.run, Option.some.injEq, Prod.mk.injEq, true_and] at h
      subst h
      exact .single .back
  | step upd next ih => exact .head .act (ih s h)
  | stuck => simp [Res.run] at h

end Loop
