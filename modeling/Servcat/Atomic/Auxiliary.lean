/-
Proof outlines with an auxiliary variable: a value no program reads or writes,
which the assertions of all threads may speak about.
-/
import Servcat.Atomic.Interleaving

namespace Atomic

variable {ι σ ℓ ε α Φ γ : Type}

/-- A proof outline over a cover whose assertions are about the state and a
variable that each step may set anew.  `grow` relates the state before a step to
the state after it. -/
structure Annotation {S : System ι σ ℓ ε α} (C : Cover S Φ) (R : Regime σ ℓ)
    (γ : Type) where
  inv : σ → γ → Prop
  holds : Nat → Φ → σ → γ → Prop
  grow : σ → σ → Prop
  grow_refl : ∀ s, grow s s
  grow_trans : ∀ {s t u}, grow s t → grow t u → grow s u
  entry : ∀ n l s g, R.arrives l → inv s g → holds n (C.entry l) s g
  drift : ∀ s t g, inv s g → S.drift s t →
    ∃ g', inv t g' ∧ grow s t ∧ ∀ n φ, holds n φ s g → holds n φ t g'
  step : ∀ n φ φ' s t g, inv s g → holds n φ s g → C.move n φ s φ' t →
    R.allowed n s t → ∃ g', inv t g' ∧ grow s t ∧ holds n φ' t g' ∧
      ∀ m ψ, m ≠ n → holds m ψ s g → holds m ψ t g'

namespace Annotation

variable {S : System ι σ ℓ ε α} {C : Cover S Φ} {R : Regime σ ℓ}
  {A : Annotation C R γ} {c d : Config ι σ ℓ ε α}

/-- A configuration at which the outline holds, with this value of
the variable. -/
structure Holds (A : Annotation C R γ) (c : Config ι σ ℓ ε α) (g : γ) :
    Prop where
  inv : A.inv c.state g
  thread : ∀ n l p, c.threads[n]? = some (l, p) → ∃ φ, A.holds n φ c.state g ∧
    Follows ⟨fun _ i _ => S.input n i, C.move n⟩ (C.post l) p φ

def At (A : Annotation C R γ) (c : Config ι σ ℓ ε α) : Prop :=
  ∃ g, A.Holds c g

theorem at_nil {s : σ} {g : γ} (hs : A.inv s g) : A.At ⟨s, []⟩ :=
  ⟨g, hs, fun n l p hn => by simp at hn⟩

theorem At.step (hc : A.At c) (hstep : Step S R c d) :
    A.At d ∧ A.grow c.state d.state := by
  obtain ⟨g, hinv, hthread⟩ := hc
  cases hstep with
  | @arrive s threads l hl =>
      refine ⟨⟨g, hinv, fun n l' p hn => ?_⟩, A.grow_refl s⟩
      rcases Nat.lt_trichotomy n threads.length with hlt | rfl | hgt
      · rw [List.getElem?_append_left hlt] at hn
        exact hthread n l' p hn
      · simp only [List.getElem?_concat_length, Option.some.injEq,
          Prod.mk.injEq] at hn
        obtain ⟨rfl, rfl⟩ := hn
        exact ⟨C.entry l, A.entry _ l s g hl hinv, C.follows _ l⟩
      · rw [List.getElem?_eq_none (by simp; omega)] at hn
        cases hn
  | @drift s t threads hdrift =>
      obtain ⟨g', hinv', hgrow, hstable⟩ := A.drift s t g hinv hdrift
      refine ⟨⟨g', hinv', fun n l p hn => ?_⟩, hgrow⟩
      obtain ⟨φ, hφ, hfollows⟩ := hthread n l p hn
      exact ⟨φ, hstable n φ hφ, hfollows⟩
  | @run s threads n l act next i hn hi hallowed =>
      have hlt : n < threads.length := (List.getElem?_eq_some_iff.mp hn).1
      obtain ⟨φ, hφ, hfollows⟩ := hthread n l _ hn
      obtain ⟨φ', hmove, hnext⟩ := hfollows i s hi
      obtain ⟨g', hinv', hgrow, hφ', hothers⟩ :=
        A.step n φ φ' s _ g hinv hφ hmove hallowed
      refine ⟨⟨g', hinv', fun m l' p hm => ?_⟩, hgrow⟩
      by_cases hmn : m = n
      · subst hmn
        simp only [List.getElem?_set_self hlt, Option.some.injEq,
          Prod.mk.injEq] at hm
        obtain ⟨rfl, rfl⟩ := hm
        exact ⟨φ', hφ', hnext⟩
      · simp only [List.getElem?_set_ne (Ne.symm hmn)] at hm
        obtain ⟨ψ, hψ, hψfollows⟩ := hthread m l' p hm
        exact ⟨ψ, hothers m ψ hmn hψ, hψfollows⟩

/-- The outline holds along every run. -/
theorem At.reaches (hc : A.At c) (hreach : Reaches S R c d) :
    A.At d ∧ A.grow c.state d.state := by
  induction hreach with
  | refl => exact ⟨hc, A.grow_refl _⟩
  | tail _ hstep ih =>
      obtain ⟨hd, hgrow⟩ := ih.1.step hstep
      exact ⟨hd, A.grow_trans ih.2 hgrow⟩

end Annotation

end Atomic
