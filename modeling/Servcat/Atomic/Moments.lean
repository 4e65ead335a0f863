/-
The moments of a run: who took a step, and in which state.  What threads find at
these moments is all that they ever learn of the state.
-/
import Servcat.Atomic.Interleaving

namespace Atomic

variable {ι σ ℓ ε α : Type} {S : System ι σ ℓ ε α} {R : Regime σ ℓ}

/-- A run, with its moments: the thread that took a step and the state that it
found, the last one first. -/
inductive Timed (S : System ι σ ℓ ε α) (R : Regime σ ℓ) (c : Config ι σ ℓ ε α) :
    List (Nat × σ) → Config ι σ ℓ ε α → Prop
  | refl : Timed S R c [] c
  | arrive {moments : List (Nat × σ)} {s : σ}
      {threads : List (ℓ × Program ι σ ε α)}
      (h : Timed S R c moments ⟨s, threads⟩) (l : ℓ) (hl : R.arrives l) :
      Timed S R c moments ⟨s, threads ++ [(l, S.code l)]⟩
  | drift {moments : List (Nat × σ)} {s t : σ}
      {threads : List (ℓ × Program ι σ ε α)}
      (h : Timed S R c moments ⟨s, threads⟩) (hdrift : S.drift s t) :
      Timed S R c moments ⟨t, threads⟩
  | run {moments : List (Nat × σ)} {s : σ}
      {threads : List (ℓ × Program ι σ ε α)} {n : Nat} {l : ℓ} {act : ι → σ → σ}
      {next : ι → σ → Program ι σ ε α} {i : ι}
      (h : Timed S R c moments ⟨s, threads⟩)
      (hn : threads[n]? = some (l, .step act next)) (hi : S.input n i)
      (hallowed : R.allowed n s (act i s)) :
      Timed S R c ((n, s) :: moments) ⟨act i s, threads.set n (l, next i s)⟩

/-- Thread `n` found this state at one of the moments. -/
def Met (moments : List (Nat × σ)) (n : Nat) (s : σ) : Prop :=
  (n, s) ∈ moments

variable {c d : Config ι σ ℓ ε α} {moments : List (Nat × σ)}

theorem Met.later {n : Nat} {s : σ} (h : Met moments n s) (moment : Nat × σ) :
    Met (moment :: moments) n s :=
  List.mem_cons_of_mem moment h

theorem Timed.reaches (h : Timed S R c moments d) : Reaches S R c d := by
  induction h with
  | refl => exact .refl
  | arrive _ l hl ih => exact ih.tail (.arrive l hl)
  | drift _ hdrift ih => exact ih.tail (.drift hdrift)
  | run _ hn hi hallowed ih => exact ih.tail (.run hn hi hallowed)

theorem Reaches.timed (h : Reaches S R c d) :
    ∃ moments, Timed S R c moments d := by
  induction h with
  | refl => exact ⟨[], .refl⟩
  | tail _ hstep ih =>
      obtain ⟨moments, hrun⟩ := ih
      cases hstep with
      | arrive l hl => exact ⟨moments, hrun.arrive l hl⟩
      | drift hdrift => exact ⟨moments, hrun.drift hdrift⟩
      | run hn hi hallowed => exact ⟨_, hrun.run hn hi hallowed⟩

/-- Threads take steps at such moments only. -/
def Regime.during (R : Regime σ ℓ) (V : Nat → σ → Prop) : Regime σ ℓ :=
  ⟨R.arrives, fun n s t => R.allowed n s t ∧ V n s⟩

theorem Timed.during (h : Timed S R c moments d) {V : Nat → σ → Prop}
    (hV : ∀ n s, Met moments n s → V n s) : Reaches S (R.during V) c d := by
  induction h with
  | refl => exact .refl
  | arrive _ l hl ih => exact (ih hV).tail (.arrive l hl)
  | drift _ hdrift ih => exact (ih hV).tail (.drift hdrift)
  | run _ hn hi hallowed ih =>
      have hbefore := ih fun n s hmet => hV n s (hmet.later _)
      exact hbefore.tail (.run hn hi ⟨hallowed, hV _ _ List.mem_cons_self⟩)

end Atomic
