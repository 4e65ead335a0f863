/-
What a program leaves alone.  A relation between the state before a step and the
state after it that every step of a program satisfies, whatever the program is
given, is all that others need to know of it.
-/
import Servcat.Atomic.Follows

namespace Atomic

variable {ι σ ε ε' α β : Type}

/-- Each step of the program changes the state as `still` allows, whatever it is
given. -/
def Leaves (still : σ → σ → Prop) : Program ι σ ε α → Prop
  | .exit _ => True
  | .spin => True
  | .step act next => ∀ i s, still s (act i s) ∧ Leaves still (next i s)

namespace Leaves

variable {still still' : σ → σ → Prop}

theorem exit (x : Exit ε α) : Leaves still (.exit x : Program ι σ ε α) :=
  trivial

theorem spin : Leaves still (.spin : Program ι σ ε α) :=
  trivial

theorem atomic {f : ι → σ → Exit ε α × σ} (h : ∀ i s, still s (f i s).2) :
    Leaves still (.atomic f) :=
  fun i s => ⟨h i s, trivial⟩

theorem handle {p : Program ι σ ε α} {rest : Exit ε α → Program ι σ ε' β}
    (hp : Leaves still p) (hrest : ∀ x, Leaves still (rest x)) :
    Leaves still (p.handle rest) := by
  induction p with
  | exit x => exact hrest x
  | spin => trivial
  | step act next ih => exact fun i s => ⟨(hp i s).1, ih i s (hp i s).2⟩

theorem bind {p : Program ι σ ε α} {k : α → Program ι σ ε β}
    (hp : Leaves still p)
    (hk : ∀ a, Leaves still (k a)) : Leaves still (p >>= k) := by
  refine hp.handle fun x => ?_
  cases x with
  | ok a => exact hk a
  | error | panicked => trivial

theorem mapError {g : ε → ε'} {p : Program ι σ ε α} (hp : Leaves still p) :
    Leaves still (p.mapError g) :=
  hp.handle fun _ => trivial

theorem attempt {p : Program ι σ ε α} (hp : Leaves still p) :
    Leaves still (p.attempt : Program ι σ ε' (Except ε α)) :=
  hp.handle fun _ => trivial

theorem okOr {e : ε} {value : Option α} {k : α → Program ι σ ε β}
    (hk : ∀ a, Leaves still (k a)) :
    Leaves still (Program.okOr e value >>= k) :=
  bind (exit _) hk

theorem mono {p : Program ι σ ε α} (hp : Leaves still p)
    (h : ∀ s t, still s t → still' s t) : Leaves still' p := by
  induction p with
  | exit | spin => trivial
  | step act next ih => exact fun i s => ⟨h _ _ (hp i s).1, ih i s (hp i s).2⟩

end Leaves

end Atomic
