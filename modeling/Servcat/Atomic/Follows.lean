/-
A calculus for programs of atomic steps.  A program follows an automaton when
each of its steps is a move of the automaton; run alone, the automaton whose
phases are the states themselves gives the usual weakest precondition.
-/
import Servcat.Atomic.Program

namespace Atomic

variable {ι σ ε ε' α β Φ : Type}

/-- What the steps of one thread are matched against.  In phase `φ` the thread
is given an input and a state that satisfy `enabled`, and answers with a
`move`. -/
structure Automaton (ι σ Φ : Type) where
  enabled : Φ → ι → σ → Prop
  move : Φ → σ → Φ → σ → Prop

/-- Every step of the program is a move, and the phase at its end satisfies
`post`. -/
def Follows (A : Automaton ι σ Φ) (post : Exit ε α → Φ → Prop) :
    Program ι σ ε α → Φ → Prop
  | .exit x, φ => post x φ
  | .spin, _ => True
  | .step act next, φ => ∀ i s, A.enabled φ i s →
      ∃ φ', A.move φ s φ' (act i s) ∧ Follows A post (next i s) φ'

variable {A : Automaton ι σ Φ} {post : Exit ε α → Φ → Prop}

@[simp] theorem follows_exit (x : Exit ε α) (φ : Φ) :
    Follows A post (.exit x) φ ↔ post x φ :=
  Iff.rfl

@[simp] theorem follows_spin (φ : Φ) :
    Follows A post (.spin : Program ι σ ε α) φ :=
  trivial

theorem follows_handle (p : Program ι σ ε α)
    (rest : Exit ε α → Program ι σ ε' β) (post : Exit ε' β → Φ → Prop) (φ : Φ) :
    Follows A post (p.handle rest) φ ↔
      Follows A (fun x ψ => Follows A post (rest x) ψ) p φ := by
  induction p generalizing φ with
  | exit x => rfl
  | spin => rfl
  | step act next ih => simp only [Program.handle, Follows, ih]

theorem follows_bind (p : Program ι σ ε α) (f : α → Program ι σ ε β)
    (post : Exit ε β → Φ → Prop) (φ : Φ) :
    Follows A post (p >>= f) φ ↔
      Follows A (fun x ψ => Follows A post (Program.onOk f x) ψ) p φ :=
  follows_handle p _ post φ

theorem follows_mapError (f : ε → ε') (p : Program ι σ ε α)
    (post : Exit ε' α → Φ → Prop) (φ : Φ) :
    Follows A post (p.mapError f) φ ↔
      Follows A (fun x ψ => post (x.mapError f) ψ) p φ :=
  follows_handle p _ post φ

theorem follows_attempt (p : Program ι σ ε α)
    (post : Exit ε' (Except ε α) → Φ → Prop) (φ : Φ) :
    Follows A post (p.attempt) φ ↔
      Follows A (fun x ψ => post x.attempt ψ) p φ :=
  follows_handle p _ post φ

@[simp] theorem follows_pure (a : α) (φ : Φ) :
    Follows A post (pure a : Program ι σ ε α) φ ↔ post (.ok a) φ :=
  Iff.rfl

@[simp] theorem follows_throw (e : ε) (φ : Φ) :
    Follows A post (Program.throw e : Program ι σ ε α) φ ↔ post (.error e) φ :=
  Iff.rfl

/-- The phase in which an automaton lets a step end. -/
theorem follows_atomic (f : ι → σ → Exit ε α × σ) (φ : Φ) :
    Follows A post (Program.atomic f) φ ↔ ∀ i s, A.enabled φ i s →
      ∃ φ', A.move φ s φ' (f i s).2 ∧ post (f i s).1 φ' :=
  Iff.rfl

theorem Follows.mono {post post' : Exit ε α → Φ → Prop}
    (himp : ∀ x φ, post x φ → post' x φ) {p : Program ι σ ε α} {φ : Φ}
    (h : Follows A post p φ) : Follows A post' p φ := by
  induction p generalizing φ with
  | exit x => exact himp x φ h
  | spin => trivial
  | step act next ih =>
      intro i s hs
      obtain ⟨φ', hmove, hnext⟩ := h i s hs
      exact ⟨φ', hmove, ih i s hnext⟩

/-- What every move keeps holds at the end as well. -/
theorem Follows.keeps {I : Φ → Prop}
    (hkeep : ∀ φ s φ' s', A.move φ s φ' s' → I φ → I φ') {p : Program ι σ ε α}
    {φ : Φ} (h : Follows A post p φ) (hφ : I φ) :
    Follows A (fun x ψ => post x ψ ∧ I ψ) p φ := by
  induction p generalizing φ with
  | exit x => exact ⟨h, hφ⟩
  | spin => trivial
  | step act next ih =>
      intro i s hs
      obtain ⟨φ', hmove, hnext⟩ := h i s hs
      exact ⟨φ', hmove, ih i s hnext (hkeep φ s φ' _ hmove hφ)⟩

/-- Run alone, a program starts each step in the state its last step left. -/
def alone (valid : ι → σ → Prop) : Automaton ι σ σ where
  enabled φ i s := valid i s ∧ s = φ
  move _ _ φ' s' := φ' = s'

/-- The weakest precondition of a program that runs alone on valid inputs. -/
def wp (valid : ι → σ → Prop) (p : Program ι σ ε α) (post : Exit ε α → σ → Prop)
    (s : σ) : Prop :=
  Follows (alone valid) post p s

variable {valid : ι → σ → Prop}

@[simp] theorem wp_exit (x : Exit ε α) (post : Exit ε α → σ → Prop) (s : σ) :
    wp valid (.exit x) post s ↔ post x s :=
  Iff.rfl

@[simp] theorem wp_spin (post : Exit ε α → σ → Prop) (s : σ) :
    wp valid (.spin : Program ι σ ε α) post s :=
  trivial

theorem wp_step (act : ι → σ → σ) (next : ι → σ → Program ι σ ε α)
    (post : Exit ε α → σ → Prop) (s : σ) :
    wp valid (.step act next) post s ↔
      ∀ i, valid i s → wp valid (next i s) post (act i s) := by
  constructor
  · intro h i hi
    obtain ⟨_, rfl, hnext⟩ := h i s ⟨hi, rfl⟩
    exact hnext
  · rintro h i _ ⟨hi, rfl⟩
    exact ⟨_, rfl, h i hi⟩

@[simp] theorem wp_atomic (f : ι → σ → Exit ε α × σ)
    (post : Exit ε α → σ → Prop) (s : σ) :
    wp valid (.atomic f) post s ↔ ∀ i, valid i s → post (f i s).1 (f i s).2 :=
  wp_step _ _ post s

@[simp] theorem wp_bind (p : Program ι σ ε α) (f : α → Program ι σ ε β)
    (post : Exit ε β → σ → Prop) (s : σ) :
    wp valid (p >>= f) post s ↔
      wp valid p (fun x t => wp valid (Program.onOk f x) post t) s :=
  follows_bind p f post s

theorem wp_mapError (f : ε → ε') (p : Program ι σ ε α)
    (post : Exit ε' α → σ → Prop) (s : σ) :
    wp valid (p.mapError f) post s ↔
      wp valid p (fun x t => post (x.mapError f) t) s :=
  follows_mapError f p post s

theorem wp_attempt (p : Program ι σ ε α)
    (post : Exit ε' (Except ε α) → σ → Prop) (s : σ) :
    wp valid p.attempt post s ↔ wp valid p (fun x t => post x.attempt t) s :=
  follows_attempt p post s

@[simp] theorem wp_pure (a : α) (post : Exit ε α → σ → Prop) (s : σ) :
    wp valid (pure a : Program ι σ ε α) post s ↔ post (.ok a) s :=
  Iff.rfl

@[simp] theorem wp_throw (e : ε) (post : Exit ε α → σ → Prop) (s : σ) :
    wp valid (Program.throw e : Program ι σ ε α) post s ↔ post (.error e) s :=
  Iff.rfl

@[simp] theorem wp_panic (post : Exit ε α → σ → Prop) (s : σ) :
    wp valid (Program.panic : Program ι σ ε α) post s ↔ post .panicked s :=
  Iff.rfl

theorem wp_mono {post post' : Exit ε α → σ → Prop}
    (himp : ∀ x t, post x t → post' x t) {p : Program ι σ ε α} {s : σ}
    (h : wp valid p post s) : wp valid p post' s :=
  Follows.mono himp h

/-- A complete run of a program that nothing interrupts. -/
inductive Runs (valid : ι → σ → Prop) :
    Program ι σ ε α → σ → Exit ε α → σ → Prop
  | exit (x : Exit ε α) (s : σ) : Runs valid (.exit x) s x s
  | step {act : ι → σ → σ} {next : ι → σ → Program ι σ ε α} {i : ι} {s t : σ}
      {x : Exit ε α} (hi : valid i s)
      (hrun : Runs valid (next i s) (act i s) x t) :
      Runs valid (.step act next) s x t

/-- The weakest precondition speaks about exactly the complete runs. -/
theorem wp_iff_runs (p : Program ι σ ε α) (post : Exit ε α → σ → Prop) (s : σ) :
    wp valid p post s ↔ ∀ x t, Runs valid p s x t → post x t := by
  induction p generalizing s with
  | exit x =>
      constructor
      · rintro h _ _ ⟨⟩
        exact h
      · intro h
        exact h x s (.exit x s)
  | spin =>
      constructor
      · rintro - _ _ ⟨⟩
      · exact fun _ => trivial
  | step act next ih =>
      rw [wp_step]
      constructor
      · rintro h x t (_ | ⟨hi, hrun⟩)
        exact (ih _ s _).mp (h _ hi) x t hrun
      · intro h i hi
        refine (ih i s _).mpr fun x t hrun => h x t (.step hi hrun)

theorem Runs.ensures {p : Program ι σ ε α} {post : Exit ε α → σ → Prop}
    {s t : σ} {x : Exit ε α} (hrun : Runs valid p s x t)
    (h : wp valid p post s) : post x t :=
  (wp_iff_runs p post s).mp h x t hrun

/-- What a program reaches is what its preconditions are about. -/
theorem runs_iff_of_wp {p : Program ι σ ε α} {s : σ}
    {reached : Exit ε α → σ → Prop}
    (h : ∀ post, wp valid p post s ↔ ∀ x t, reached x t → post x t)
    {x : Exit ε α} {t : σ} : Runs valid p s x t ↔ reached x t := by
  constructor
  · exact fun hrun => hrun.ensures ((h reached).mpr fun _ _ hx => hx)
  · intro hx
    exact (h fun x t => Runs valid p s x t).mp
      ((wp_iff_runs _ _ _).mpr fun _ _ hrun => hrun) x t hx

/-- Run a program alone on a list of inputs, one for each step, as far as the
inputs are valid and suffice. -/
def runAlone (valid : ι → σ → Prop) [∀ i s, Decidable (valid i s)] :
    Program ι σ ε α → List ι → σ → Option (Exit ε α × σ)
  | .exit x, _, s => some (x, s)
  | .step act next, i :: inputs, s =>
      if valid i s then runAlone valid (next i s) inputs (act i s) else none
  | _, _, _ => none

theorem runs_of_runAlone [∀ i s, Decidable (valid i s)] {p : Program ι σ ε α}
    {inputs : List ι} {s t : σ} {x : Exit ε α}
    (hrun : runAlone valid p inputs s = some (x, t)) : Runs valid p s x t := by
  induction p generalizing inputs s with
  | exit y =>
      simp only [runAlone, Option.some.injEq, Prod.mk.injEq] at hrun
      obtain ⟨rfl, rfl⟩ := hrun
      exact .exit y s
  | spin => cases inputs <;> simp [runAlone] at hrun
  | step act next ih =>
      cases inputs with
      | nil => simp [runAlone] at hrun
      | cons i rest =>
          simp only [runAlone] at hrun
          by_cases hi : valid i s
          · rw [if_pos hi] at hrun
            exact .step hi (ih i s hrun)
          · simp [hi] at hrun

end Atomic
