/-
Programs that end, and loops that do not.  A loop with fuel ends when the walk
of its rounds is well founded, and it never does when the walk comes back to
where it has been.
-/
import Servcat.Atomic.Follows
import Mathlib.Data.Set.Finite.Basic

namespace Atomic

open Relation

section Walks

variable {τ : Type} {R : τ → τ → Prop} {a b : τ}

/-- A walk along `R` from here can come back to where it has been. -/
def Recurs (R : τ → τ → Prop) (a : τ) : Prop :=
  ∃ b, ReflTransGen R a b ∧ TransGen R b b

theorem Recurs.of_next (h : R a b) (hb : Recurs R b) : Recurs R a := by
  obtain ⟨c, hbc, hcc⟩ := hb
  exact ⟨c, .head h hbc, hcc⟩

theorem Recurs.next (h : Recurs R a) : ∃ b, R a b ∧ Recurs R b := by
  obtain ⟨c, hac, hcc⟩ := h
  rcases ReflTransGen.cases_head hac with rfl | ⟨b, hab, hbc⟩
  · obtain ⟨b, hab, hba⟩ := TransGen.head'_iff.mp hcc
    exact ⟨b, hab, a, hba, hcc⟩
  · exact ⟨b, hab, c, hbc, hcc⟩

/-- Where only finitely much can be reached, a walk that does not
come back ends. -/
theorem acc_of_not_recurs (hfinite : {b | ReflTransGen R a b}.Finite)
    (h : ¬Recurs R a) : Acc (Function.swap R) a := by
  have : Finite {b | ReflTransGen R a b} := hfinite
  let earlier (x y : {b | ReflTransGen R a b}) : Prop := TransGen R y.1 x.1
  have : IsTrans _ earlier := ⟨fun _ _ _ hxy hyz => hyz.trans hxy⟩
  have : Std.Irrefl earlier := ⟨fun x hx => h ⟨x.1, x.2, hx⟩⟩
  have hwell : WellFounded earlier := Finite.wellFounded_of_trans_of_irrefl _
  have hacc (x : {b | ReflTransGen R a b}) : Acc (Function.swap R) x.1 := by
    induction x using hwell.induction with
    | _ x ih =>
        apply Acc.intro
        intro y hxy
        exact ih ⟨y, ReflTransGen.tail x.2 hxy⟩ (.single hxy)
  exact hacc ⟨a, .refl⟩

end Walks

variable {ι σ ε ε' α β τ : Type} {valid : ι → σ → Prop}

/-- The program exits after finitely many steps, whatever states its
steps find. -/
def Program.Ends (valid : ι → σ → Prop) : Program ι σ ε α → Prop
  | .exit _ => True
  | .spin => False
  | .step _ next => ∀ i s, valid i s → (next i s).Ends valid

/-- The program exits in this way in some of the states its steps may find. -/
inductive Program.MayExit (valid : ι → σ → Prop) :
    Program ι σ ε α → Exit ε α → Prop
  | exit (x : Exit ε α) : MayExit valid (.exit x) x
  | step {act : ι → σ → σ} {next : ι → σ → Program ι σ ε α}
      {x : Exit ε α} (i : ι) (s : σ) (hi : valid i s)
      (hrest : (next i s).MayExit valid x) :
      MayExit valid (.step act next) x

namespace Program

theorem Ends.exit (x : Exit ε α) :
    (Program.exit x : Program ι σ ε α).Ends valid :=
  trivial

theorem Ends.atomic (f : ι → σ → Exit ε α × σ) :
    (Program.atomic f).Ends valid :=
  fun _ _ _ => trivial

theorem Ends.handle {p : Program ι σ ε α} {rest : Exit ε α → Program ι σ ε' β}
    (hp : p.Ends valid) (hrest : ∀ x, (rest x).Ends valid) :
    (p.handle rest).Ends valid := by
  induction p with
  | exit x => exact hrest x
  | spin => exact hp.elim
  | step act next ih => exact fun i s hi => ih i s (hp i s hi)

theorem Ends.bind {p : Program ι σ ε α} {k : α → Program ι σ ε β}
    (hp : p.Ends valid)
    (hk : ∀ a, (k a).Ends valid) : (p >>= k).Ends valid := by
  refine Ends.handle hp fun x => ?_
  cases x with
  | ok a => exact hk a
  | error | panicked => trivial

theorem Ends.mapError {f : ε → ε'} {p : Program ι σ ε α} (hp : p.Ends valid) :
    (p.mapError f).Ends valid :=
  hp.handle fun _ => trivial

theorem Ends.attempt {p : Program ι σ ε α} (hp : p.Ends valid) :
    (p.attempt : Program ι σ ε' (Except ε α)).Ends valid :=
  hp.handle fun _ => trivial

theorem MayExit.of_runs {p : Program ι σ ε α} {s t : σ} {x : Exit ε α}
    (h : Runs valid p s x t) : p.MayExit valid x := by
  induction h with
  | exit x => exact .exit x
  | step hi _ ih => exact .step _ _ hi ih

theorem MayExit.handle {p : Program ι σ ε α}
    {rest : Exit ε α → Program ι σ ε' β} {x : Exit ε α} {y : Exit ε' β}
    (h : p.MayExit valid x) (hrest : (rest x).MayExit valid y) :
    (p.handle rest).MayExit valid y := by
  induction h with
  | exit => exact hrest
  | step i s hi _ ih => exact .step i s hi (ih hrest)

/-- What follows a possible exit of a program that ends has to end. -/
theorem MayExit.ends_rest {p : Program ι σ ε α}
    {rest : Exit ε α → Program ι σ ε' β} {x : Exit ε α} (h : p.MayExit valid x)
    (hends : (p.handle rest).Ends valid) :
    (rest x).Ends valid := by
  induction h with
  | exit => exact hends
  | step i s hi _ ih => exact ih (hends i s hi)

end Program

section Loops

variable {R : τ → τ → Prop} {loop : Nat → τ → Program ι σ ε α} {a : τ}

/-- A loop whose rounds go on along `R`, in at most one way each, has enough
fuel at some point. -/
theorem exists_fuel_ends (h : Acc (Function.swap R) a)
    (hnext : ∀ a b c, R a b → R a c → b = c)
    (hround : ∀ n a, (∀ b, R a b → (loop n b).Ends valid) →
      (loop (n + 1) a).Ends valid) : ∃ n, (loop n a).Ends valid := by
  induction h with
  | intro a _ ih =>
      by_cases hb : ∃ b, R a b
      · obtain ⟨b, hab⟩ := hb
        obtain ⟨n, hn⟩ := ih b hab
        refine ⟨n + 1, hround n a fun c hac => ?_⟩
        rw [← hnext a b c hab hac]
        exact hn
      · exact ⟨1, hround 0 a fun b hab => absurd ⟨b, hab⟩ hb⟩

/-- No fuel is enough for a loop whose rounds come back to where
they have been. -/
theorem not_ends_of_recurs (h : Recurs R a)
    (hzero : ∀ a, ¬(loop 0 a).Ends valid)
    (hround : ∀ n a b, R a b → (loop (n + 1) a).Ends valid →
      (loop n b).Ends valid)
    (n : Nat) : ¬(loop n a).Ends valid := by
  induction n generalizing a with
  | zero => exact hzero a
  | succ n ih =>
      obtain ⟨b, hab, hb⟩ := h.next
      exact fun hends => ih hb (hround n a b hab hends)

end Loops

end Atomic
