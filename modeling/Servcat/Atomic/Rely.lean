/-
Threads that rely on each other.  A thread finds the state changed by the others
in no way but the one it relies on, and each of its own steps is one it may
take; so a run keeps whatever such steps keep.
-/
import Servcat.Atomic.Interleaving
import Servcat.Atomic.Leaves

namespace Atomic

variable {ι σ ℓ ε ε' α β : Type}

/-- The phase of a thread is the state its last step left. -/
def relying (rely : σ → σ → Prop) (valid : ι → σ → Prop) (may : σ → σ → Prop) :
    Automaton ι σ σ where
  enabled φ i s := rely φ s ∧ valid i s
  move _ s φ' s' := φ' = s' ∧ may s s'

/-- `Q` holds of the value at the end, if there is one. -/
def Delivers (Q : α → σ → Prop) : Exit ε α → σ → Prop
  | .ok a, s => Q a s
  | _, _ => True

/-- The program takes steps that it may take, and delivers a value with `Q`. -/
def Abides (rely : σ → σ → Prop) (valid : ι → σ → Prop) (may : σ → σ → Prop)
    (p : Program ι σ ε α) (Q : α → σ → Prop) (s : σ) : Prop :=
  Follows (relying rely valid may) (Delivers Q) p s

section Rules

variable {rely : σ → σ → Prop} {valid : ι → σ → Prop} {may : σ → σ → Prop}
  {s : σ}

namespace Abides

/-- The changes that a program makes are changes that it may make. -/
theorem of_leaves {still : σ → σ → Prop} {p : Program ι σ ε α}
    (hp : Leaves still p) (h : ∀ s t, still s t → may s t) :
    Abides rely valid may p (fun _ _ => True) s := by
  induction p generalizing s with
  | exit x => cases x <;> trivial
  | spin => trivial
  | step act next ih =>
      intro i t ht
      obtain ⟨hstill, hnext⟩ := hp i t
      exact ⟨_, ⟨rfl, h t _ hstill⟩, ih i t hnext⟩

theorem atomic {f : ι → σ → Exit ε α × σ} {Q : α → σ → Prop}
    (h : ∀ i t, rely s t → valid i t →
      may t (f i t).2 ∧ Delivers Q (f i t).1 (f i t).2) :
    Abides rely valid may (.atomic f) Q s :=
  (follows_atomic f s).mpr fun i t ht =>
    ⟨_, ⟨rfl, (h i t ht.1 ht.2).1⟩, (h i t ht.1 ht.2).2⟩

theorem bind {p : Program ι σ ε α} {k : α → Program ι σ ε β} {Q : β → σ → Prop}
    (h : Abides rely valid may p
      (fun a t => Abides rely valid may (k a) Q t) s) :
    Abides rely valid may (p >>= k) Q s := by
  refine (follows_bind _ _ _ _).mpr (Follows.mono (fun x t hx => ?_) h)
  cases x with
  | ok a => exact hx
  | error | panicked => trivial

theorem mapError {p : Program ι σ ε α} {g : ε → ε'} {Q : α → σ → Prop}
    (h : Abides rely valid may p Q s) :
    Abides rely valid may (p.mapError g) Q s := by
  refine (follows_mapError _ _ _ _).mpr (Follows.mono (fun x t hx => ?_) h)
  cases x with
  | ok a => exact hx
  | error | panicked => trivial

theorem mono {p : Program ι σ ε α} {Q Q' : α → σ → Prop}
    (h : Abides rely valid may p Q s) (himp : ∀ a t, Q a t → Q' a t) :
    Abides rely valid may p Q' s := by
  refine Follows.mono (fun x t hx => ?_) h
  cases x with
  | ok a => exact himp a t hx
  | error | panicked => trivial

theorem ofOption {e : ε} {value : Option α} {Q : α → σ → Prop}
    (h : ∀ a, value = some a → Q a s) :
    Abides rely valid may (Program.okOr e value) Q s := by
  cases value with
  | none => trivial
  | some a => exact h a rfl

theorem okOr {e : ε} {value : Option α} {k : α → Program ι σ ε β}
    {Q : β → σ → Prop}
    (h : ∀ a, value = some a → Abides rely valid may (k a) Q s) :
    Abides rely valid may (Program.okOr e value >>= k) Q s := by
  cases value with
  | none => trivial
  | some a => exact h a rfl

theorem liftExcept {result : Except ε α} {k : α → Program ι σ ε β}
    {Q : β → σ → Prop}
    (h : ∀ a, result = .ok a → Abides rely valid may (k a) Q s) :
    Abides rely valid may (Program.liftExcept result >>= k) Q s := by
  cases result with
  | error e => trivial
  | ok a => exact h a rfl

/-- An attempt goes on in the state the program left, however the
program ended. -/
theorem attempt {p : Program ι σ ε α} {k : Except ε α → Program ι σ ε' β}
    {Q : β → σ → Prop}
    (h : Follows (relying rely valid may)
      (fun x t => ∀ r, x.attempt = (.ok r : Exit ε' (Except ε α)) →
        Abides rely valid may (k r) Q t) p s) :
    Abides rely valid may (.attempt p >>= k) Q s := by
  refine (follows_bind _ _ _ _).mpr ((follows_attempt _ _ _).mpr ?_)
  refine Follows.mono (fun x t hx => ?_) h
  cases x with
  | ok a => exact hx (.ok a) rfl
  | error e => exact hx (.error e) rfl
  | panicked => trivial

end Abides

/-- The state at the end is one the thread could rely on itself. -/
theorem Follows.since {post : Exit ε α → σ → Prop} (hrefl : ∀ s, rely s s)
    (htrans : ∀ s t u, rely s t → rely t u → rely s u)
    (hmay : ∀ s t, may s t → rely s t) {p : Program ι σ ε α}
    (h : Follows (relying rely valid may) post p s) :
    Follows (relying rely valid may) (fun x t => post x t ∧ rely s t) p s := by
  induction p generalizing s with
  | exit x => exact ⟨h, hrefl s⟩
  | spin => trivial
  | step act next ih =>
      intro i t ht
      obtain ⟨φ', hmove, hnext⟩ := h i t ht
      refine ⟨φ', hmove, Follows.mono (fun x u hx => ⟨hx.1, ?_⟩) (ih i t hnext)⟩
      rw [hmove.1] at hx
      exact htrans _ _ _ ht.1 (htrans _ _ _ (hmay _ _ hmove.2) hx.2)

end Rules

/-- Thread `n`, which serves `l`, takes a step. -/
inductive StepOf (S : System ι σ ℓ ε α) (R : Regime σ ℓ) (n : Nat) (l : ℓ) :
    Config ι σ ℓ ε α → Config ι σ ℓ ε α → Prop
  | run {s : σ} {threads : List (ℓ × Program ι σ ε α)} {act : ι → σ → σ}
      {next : ι → σ → Program ι σ ε α} {i : ι}
      (hn : threads[n]? = some (l, .step act next)) (hi : S.input n i)
      (hallowed : R.allowed n s (act i s)) :
      StepOf S R n l ⟨s, threads⟩ ⟨act i s, threads.set n (l, next i s)⟩

/-- What the threads of a system rely on and what each may do, in runs in which
the threads take their steps in states that `visits` allows them. -/
structure Discipline (S : System ι σ ℓ ε α) where
  visits : Nat → σ → Prop
  inv : σ → Prop
  rely : σ → σ → Prop
  may : Nat → ℓ → σ → σ → Prop
  rely_refl : ∀ s, rely s s
  rely_trans : ∀ s t u, rely s t → rely t u → rely s u
  drift : ∀ s t, inv s → S.drift s t → inv t ∧ rely s t
  step : ∀ n l s t, inv s → may n l s t → inv t ∧ rely s t
  abides : ∀ n l s,
    Abides rely (fun i t => S.input n i ∧ inv t ∧ visits n t) (may n l)
    (S.code l) (fun _ _ => True) s

namespace Discipline

variable {S : System ι σ ℓ ε α} {R : Regime σ ℓ}

/-- What thread `n` finds at a step. -/
abbrev finds (D : Discipline S) (n : Nat) (i : ι) (s : σ) : Prop :=
  S.input n i ∧ D.inv s ∧ D.visits n s

/-- A configuration whose threads all go on as they may. -/
structure At (D : Discipline S) (c : Config ι σ ℓ ε α) : Prop where
  inv : D.inv c.state
  thread : ∀ n l p, c.threads[n]? = some (l, p) → ∃ s, D.rely s c.state ∧
    Abides D.rely (D.finds n) (D.may n l) p (fun _ _ => True) s

theorem at_nil (D : Discipline S) {s : σ} (hs : D.inv s) : D.At ⟨s, []⟩ :=
  ⟨hs, fun n l p hn => by simp at hn⟩

variable {D : Discipline S} {c d : Config ι σ ℓ ε α}

theorem At.may (hc : D.At c) {n : Nat} (hvisits : D.visits n c.state) {l : ℓ}
    (h : StepOf S R n l c d) : D.may n l c.state d.state := by
  cases h with
  | run hn hi hallowed =>
      obtain ⟨s, hrely, hp⟩ := hc.thread n l _ hn
      obtain ⟨φ', hmove, -⟩ := hp _ _ ⟨hrely, hi, hc.inv, hvisits⟩
      exact hmove.2

theorem At.step (hc : D.At c)
    (hvisits : ∀ n s t, R.allowed n s t → D.visits n s)
    (h : Step S R c d) : D.At d := by
  cases h with
  | @arrive s threads l hl =>
      refine ⟨hc.inv, fun n l' p hn => ?_⟩
      rcases Nat.lt_trichotomy n threads.length with hlt | rfl | hgt
      · rw [List.getElem?_append_left hlt] at hn
        exact hc.thread n l' p hn
      · simp only [List.getElem?_concat_length, Option.some.injEq,
          Prod.mk.injEq] at hn
        obtain ⟨rfl, rfl⟩ := hn
        exact ⟨s, D.rely_refl s, D.abides threads.length l s⟩
      · rw [List.getElem?_eq_none (by simp; omega)] at hn
        cases hn
  | drift hdrift =>
      obtain ⟨hinv, hrely⟩ := D.drift _ _ hc.inv hdrift
      refine ⟨hinv, fun n l p hn => ?_⟩
      obtain ⟨s, hs, hp⟩ := hc.thread n l p hn
      exact ⟨s, D.rely_trans _ _ _ hs hrely, hp⟩
  | @run s threads n l act next i hn hi hallowed =>
      obtain ⟨φ, hφ, hp⟩ := hc.thread n l _ hn
      obtain ⟨φ', ⟨rfl, hmay⟩, hnext⟩ :=
        hp i s ⟨hφ, hi, hc.inv, hvisits _ _ _ hallowed⟩
      obtain ⟨hinv, hrely⟩ := D.step n l _ _ hc.inv hmay
      refine ⟨hinv, fun m l' p hm => ?_⟩
      by_cases hmn : m = n
      · subst hmn
        have hlt := (List.getElem?_eq_some_iff.mp hn).1
        simp only [List.getElem?_set_self hlt, Option.some.injEq,
          Prod.mk.injEq] at hm
        obtain ⟨rfl, rfl⟩ := hm
        exact ⟨_, D.rely_refl _, hnext⟩
      · simp only [List.getElem?_set_ne (Ne.symm hmn)] at hm
        obtain ⟨t, ht, hp⟩ := hc.thread m l' p hm
        exact ⟨t, D.rely_trans _ _ _ ht hrely, hp⟩

/-- The threads go on as they may along every run of a regime that keeps
to `visits`. -/
theorem At.reaches (hc : D.At c) (hreach : Reaches S R c d)
    (hvisits : ∀ n s t, R.allowed n s t → D.visits n s) : D.At d := by
  induction hreach with
  | refl => exact hc
  | tail _ hstep ih => exact ih.step hvisits hstep

end Discipline

/-- A step that a schedule takes. -/
theorem System.act_stepOf {S : System ι σ ℓ ε α}
    [∀ n i, Decidable (S.input n i)] {R : Regime σ ℓ} [R.Checked]
    {c d : Config ι σ ℓ ε α} {n : Nat} {i : ι}
    (hact : S.act R c (.run n i) = some d) {l : ℓ}
    (hl : (c.threads[n]?).map Prod.fst = some l) : StepOf S R n l c d := by
  obtain ⟨s, threads⟩ := c
  simp only [System.act] at hact
  split at hact
  · rename_i l' act next hn
    split at hact
    · rename_i hi
      cases hact
      change (threads[n]?).map Prod.fst = some l at hl
      rw [hn, Option.map_some, Option.some.injEq] at hl
      obtain rfl : l' = l := hl
      exact .run hn hi.1 hi.2
    · cases hact
  · cases hact

end Atomic
