/-
Complete runs together with the inputs their steps are given, one for each step,
and how the inputs of a composed program fall into those of its parts.
-/
import Servcat.Atomic.Follows

namespace Atomic

variable {ι σ ε ε' α β : Type} {valid valid' : ι → σ → Prop}

/-- A complete run of a program that nothing interrupts, on exactly
these inputs. -/
inductive Consumes (valid : ι → σ → Prop) :
    Program ι σ ε α → List ι → σ → Exit ε α → σ → Prop
  | exit (x : Exit ε α) (s : σ) : Consumes valid (.exit x) [] s x s
  | step {act : ι → σ → σ} {next : ι → σ → Program ι σ ε α} {i : ι}
      {inputs : List ι} {s t : σ} {x : Exit ε α} (hi : valid i s)
      (hrun : Consumes valid (next i s) inputs (act i s) x t) :
      Consumes valid (.step act next) (i :: inputs) s x t

theorem runs_iff_consumes {p : Program ι σ ε α} {s t : σ} {x : Exit ε α} :
    Runs valid p s x t ↔ ∃ inputs, Consumes valid p inputs s x t := by
  constructor
  · intro h
    induction h with
    | exit x s => exact ⟨[], .exit x s⟩
    | @step act next i s t x hi hrun ih =>
        obtain ⟨inputs, hinputs⟩ := ih
        exact ⟨i :: inputs, .step hi hinputs⟩
  · rintro ⟨inputs, h⟩
    induction h with
    | exit x s => exact .exit x s
    | step hi _ ih => exact .step hi ih

namespace Consumes

variable {p : Program ι σ ε α} {inputs : List ι} {s t : σ} {x : Exit ε α}

theorem mono (himp : ∀ i s, valid i s → valid' i s)
    (h : Consumes valid p inputs s x t) :
    Consumes valid' p inputs s x t := by
  induction h with
  | exit x s => exact .exit x s
  | step hi _ ih => exact .step (himp _ _ hi) ih

/-- What every valid input is, all inputs of a run are. -/
theorem all {P : ι → Prop} (hvalid : ∀ i s, valid i s → P i)
    (h : Consumes valid p inputs s x t) : ∀ i ∈ inputs, P i := by
  induction h with
  | exit => simp
  | step hi _ ih => exact List.forall_mem_cons.mpr ⟨hvalid _ _ hi, ih⟩

theorem of_exit {y : Exit ε α} (h : Consumes valid (.exit y) inputs s x t) :
    inputs = [] ∧ x = y ∧ t = s := by
  cases h
  exact ⟨rfl, rfl, rfl⟩

theorem of_atomic {f : ι → σ → Exit ε α × σ}
    (h : Consumes valid (.atomic f) inputs s x t) :
    ∃ i, inputs = [i] ∧ valid i s ∧ f i s = (x, t) := by
  cases h with
  | @step _ _ i _ _ _ _ hi hrun =>
      obtain ⟨rfl, rfl, rfl⟩ := hrun.of_exit
      exact ⟨i, rfl, hi, rfl⟩

theorem of_handle {rest : Exit ε α → Program ι σ ε' β} {y : Exit ε' β}
    (h : Consumes valid (p.handle rest) inputs s y t) :
    ∃ before after x u, inputs = before ++ after ∧
      Consumes valid p before s x u ∧ Consumes valid (rest x) after u y t := by
  induction p generalizing inputs s with
  | exit x => exact ⟨[], inputs, x, s, rfl, .exit x s, h⟩
  | spin => cases h
  | step act next ih =>
      cases h with
      | @step _ _ i inputs _ _ _ hi hrun =>
          obtain ⟨before, after, x, u, rfl, hbefore, hafter⟩ := ih i s hrun
          exact ⟨i :: before, after, x, u, rfl, .step hi hbefore, hafter⟩

theorem of_mapError {f : ε → ε'} {y : Exit ε' α}
    (h : Consumes valid (p.mapError f) inputs s y t) :
    ∃ x, y = x.mapError f ∧ Consumes valid p inputs s x t := by
  obtain ⟨before, after, x, u, rfl, hbefore, hafter⟩ := of_handle h
  obtain ⟨rfl, rfl, rfl⟩ := hafter.of_exit
  rw [List.append_nil]
  exact ⟨x, rfl, hbefore⟩

/-- The first part of a program ran, and then what follows its exit. -/
theorem of_bind {k : α → Program ι σ ε β} {y : Exit ε β}
    (h : Consumes valid (p >>= k) inputs s y t) :
    ∃ before after x u, inputs = before ++ after ∧
      Consumes valid p before s x u ∧ Consumes valid (.onOk k x) after u y t :=
  of_handle h

end Consumes

theorem Runs.mono {p : Program ι σ ε α} {s t : σ} {x : Exit ε α}
    (himp : ∀ i s, valid i s → valid' i s)
    (h : Runs valid p s x t) : Runs valid' p s x t := by
  obtain ⟨inputs, h⟩ := runs_iff_consumes.mp h
  exact runs_iff_consumes.mpr ⟨inputs, h.mono himp⟩

/-- Run a program on a list of inputs, if they are valid and exactly as many
as its steps. -/
def runOn (valid : ι → σ → Prop) [∀ i s, Decidable (valid i s)] :
    Program ι σ ε α → List ι → σ → Option (Exit ε α × σ)
  | .exit x, [], s => some (x, s)
  | .step act next, i :: inputs, s =>
      if valid i s then runOn valid (next i s) inputs (act i s) else none
  | _, _, _ => none

theorem consumes_of_runOn [∀ i s, Decidable (valid i s)] {p : Program ι σ ε α}
    {inputs : List ι} {s t : σ} {x : Exit ε α}
    (hrun : runOn valid p inputs s = some (x, t)) :
    Consumes valid p inputs s x t := by
  induction p generalizing inputs s with
  | exit y =>
      cases inputs with
      | nil =>
          simp only [runOn, Option.some.injEq, Prod.mk.injEq] at hrun
          obtain ⟨rfl, rfl⟩ := hrun
          exact .exit y s
      | cons i rest => simp [runOn] at hrun
  | spin => cases inputs <;> simp [runOn] at hrun
  | step act next ih =>
      cases inputs with
      | nil => simp [runOn] at hrun
      | cons i rest =>
          simp only [runOn] at hrun
          by_cases hi : valid i s
          · rw [if_pos hi] at hrun
            exact .step hi (ih i s hrun)
          · simp [hi] at hrun

end Atomic
