/-
Programs that follow an automaton whatever has come before: from any phase
with an invariant they lead to another such phase, and so they can be put one
after the other.
-/
import Servcat.Atomic.Leaves

namespace Atomic

variable {ι σ ε ε' α β Φ : Type}

/-- From each phase with `I`, the program follows the automaton to
such a phase. -/
def Within (A : Automaton ι σ Φ) (I : Φ → Prop) (p : Program ι σ ε α) : Prop :=
  ∀ φ, I φ → Follows A (fun _ ψ => I ψ) p φ

namespace Within

variable {A : Automaton ι σ Φ} {I : Φ → Prop}

theorem exit (x : Exit ε α) : Within A I (.exit x) :=
  fun _ hφ => hφ

theorem spin : Within A I (.spin : Program ι σ ε α) :=
  fun _ _ => trivial

theorem bind {p : Program ι σ ε α} {k : α → Program ι σ ε β} (hp : Within A I p)
    (hk : ∀ a, Within A I (k a)) : Within A I (p >>= k) := by
  intro φ hφ
  rw [follows_bind]
  refine (hp φ hφ).mono fun x ψ hψ => ?_
  cases x with
  | ok a => exact hk a ψ hψ
  | error | panicked => exact hψ

theorem mapError {g : ε → ε'} {p : Program ι σ ε α} (hp : Within A I p) :
    Within A I (p.mapError g) := by
  intro φ hφ
  rw [follows_mapError]
  exact hp φ hφ

theorem attempt {p : Program ι σ ε α} (hp : Within A I p) :
    Within A I (p.attempt : Program ι σ ε' (Except ε α)) := by
  intro φ hφ
  rw [follows_attempt]
  exact hp φ hφ

theorem okOr {e : ε} {value : Option α} {k : α → Program ι σ ε β}
    (hk : ∀ a, Within A I (k a)) : Within A I (Program.okOr e value >>= k) :=
  bind (exit _) hk

theorem liftExcept {result : Except ε α} {k : α → Program ι σ ε β}
    (hk : ∀ a, Within A I (k a)) :
    Within A I (Program.liftExcept result >>= k) :=
  bind (exit _) hk

/-- It is enough that the automaton has a move for whatever the
program may do. -/
theorem of_leaves {still : σ → σ → Prop}
    (hmove : ∀ φ i s t, I φ → A.enabled φ i s → still s t →
      ∃ φ', A.move φ s φ' t ∧ I φ')
    {p : Program ι σ ε α} (hp : Leaves still p) : Within A I p := by
  induction p with
  | exit x => exact .exit x
  | spin => exact .spin
  | step act next ih =>
      intro φ hφ i s hs
      obtain ⟨hstill, hnext⟩ := hp i s
      obtain ⟨φ', hφ', hI⟩ := hmove φ i s _ hφ hs hstill
      exact ⟨φ', hφ', ih i s hnext φ' hI⟩

end Within

end Atomic
