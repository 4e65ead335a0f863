/-
A program among others: between two of its steps the rest of the world may
change the state, so each step is given the state it finds along with its input.
-/
import Servcat.Atomic.Inputs

namespace Atomic

variable {ι σ ε ε' α β : Type}

/-- The program whose steps find the states their inputs name. -/
def Program.amid : Program ι σ ε α → Program (ι × σ) σ ε α
  | .exit x => .exit x
  | .spin => .spin
  | .step act next =>
      .step (fun i _ => act i.1 i.2) fun i _ => (next i.1 i.2).amid

/-- The rest of the world may lead from the state a step left to the one the
next step finds. -/
def Amid (elsewhere : σ → σ → Prop) (valid : ι → σ → Prop) (i : ι × σ) (s : σ) :
    Prop :=
  elsewhere s i.2 ∧ valid i.1 i.2

namespace Program

@[simp] theorem amid_exit (x : Exit ε α) :
    (.exit x : Program ι σ ε α).amid = .exit x :=
  rfl

/-- The inputs of a run alone with the states its steps find. -/
def found : Program ι σ ε α → List ι → σ → List (ι × σ)
  | .step act next, i :: inputs, s =>
      (i, s) :: (next i s).found inputs (act i s)
  | _, _, _ => []

end Program

/-- A run alone is a run among others that change nothing. -/
theorem Consumes.found {valid : ι → σ → Prop} {elsewhere : σ → σ → Prop}
    (hrefl : ∀ s, elsewhere s s) {p : Program ι σ ε α} {inputs : List ι}
    {s t : σ} {x : Exit ε α} (h : Consumes valid p inputs s x t) :
    Consumes (Amid elsewhere valid) p.amid (p.found inputs s) s x t := by
  induction h with
  | exit x s => exact .exit x s
  | step hi _ ih => exact .step ⟨hrefl _, hi⟩ ih

end Atomic
