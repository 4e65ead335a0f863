/-
Any number of programs taking atomic steps on one shared state in any order,
and proof outlines for them: an invariant of the state together with an
assertion for each phase of each thread that no other thread invalidates.
-/
import Servcat.Atomic.Follows

namespace Atomic

variable {ι σ ℓ ε α Φ : Type}

/-- `code` is what a thread arriving under a label runs, `input n` what thread
`n` may be given at a step, and `drift` what the rest of the world may do to the
state between two steps. -/
structure System (ι σ ℓ ε α : Type) where
  code : ℓ → Program ι σ ε α
  input : Nat → ι → Prop
  drift : σ → σ → Prop

/-- Which threads arrive, and which of their steps a run contains. -/
structure Regime (σ ℓ : Type) where
  arrives : ℓ → Prop
  allowed : Nat → σ → σ → Prop

/-- Every thread may arrive and every step may be taken. -/
def Regime.free : Regime σ ℓ :=
  ⟨fun _ => True, fun _ _ _ => True⟩

/-- The shared state and what is left of each thread, in order of arrival. -/
structure Config (ι σ ℓ ε α : Type) where
  state : σ
  threads : List (ℓ × Program ι σ ε α)

inductive Step (S : System ι σ ℓ ε α) (R : Regime σ ℓ) :
    Config ι σ ℓ ε α → Config ι σ ℓ ε α → Prop
  | arrive {s : σ} {threads : List (ℓ × Program ι σ ε α)} (l : ℓ)
      (hl : R.arrives l) :
      Step S R ⟨s, threads⟩ ⟨s, threads ++ [(l, S.code l)]⟩
  | drift {s t : σ} {threads : List (ℓ × Program ι σ ε α)}
      (hdrift : S.drift s t) : Step S R ⟨s, threads⟩ ⟨t, threads⟩
  | run {s : σ} {threads : List (ℓ × Program ι σ ε α)} {n : Nat} {l : ℓ}
      {act : ι → σ → σ} {next : ι → σ → Program ι σ ε α} {i : ι}
      (hn : threads[n]? = some (l, .step act next)) (hi : S.input n i)
      (hallowed : R.allowed n s (act i s)) :
      Step S R ⟨s, threads⟩ ⟨act i s, threads.set n (l, next i s)⟩

abbrev Reaches (S : System ι σ ℓ ε α) (R : Regime σ ℓ) :
    Config ι σ ℓ ε α → Config ι σ ℓ ε α → Prop :=
  Relation.ReflTransGen (Step S R)

/-- A run of a regime is a run of a laxer one. -/
theorem Reaches.relax {S : System ι σ ℓ ε α} {R R' : Regime σ ℓ}
    (harrives : ∀ l, R.arrives l → R'.arrives l)
    (hallowed : ∀ n s t, R.allowed n s t → R'.allowed n s t)
    {c d : Config ι σ ℓ ε α} (h : Reaches S R c d) : Reaches S R' c d := by
  refine Relation.ReflTransGen.mono ?_ _ _ h
  intro a b hstep
  cases hstep with
  | arrive l hl => exact .arrive l (harrives l hl)
  | drift hdrift => exact .drift hdrift
  | run hn hi hall => exact .run hn hi (hallowed _ _ _ hall)

/-- Phases for the threads of a system: every step of every thread is a move
between phases, whatever the other threads do. -/
structure Cover (S : System ι σ ℓ ε α) (Φ : Type) where
  move : Nat → Φ → σ → Φ → σ → Prop
  entry : ℓ → Φ
  post : ℓ → Exit ε α → Φ → Prop
  follows : ∀ n l, Follows ⟨fun _ i _ => S.input n i, move n⟩ (post l)
    (S.code l) (entry l)

/-- A proof outline over a cover, for the runs of one regime.  `absent` is
asserted of threads that have yet to arrive; `grow` relates the state before a
step to the state after it. -/
structure Outline {S : System ι σ ℓ ε α} (C : Cover S Φ) (R : Regime σ ℓ) where
  inv : σ → Prop
  holds : Nat → Φ → σ → Prop
  absent : Nat → σ → Prop
  grow : σ → σ → Prop
  grow_refl : ∀ s, grow s s
  grow_trans : ∀ {s t u}, grow s t → grow t u → grow s u
  entry : ∀ n l s, R.arrives l → inv s → absent n s → holds n (C.entry l) s
  drift : ∀ s t, inv s → S.drift s t →
    inv t ∧ grow s t ∧ ∀ n, (absent n s → absent n t) ∧ ∀ φ, holds n φ s →
      holds n φ t
  step : ∀ n φ φ' s t, inv s → holds n φ s → C.move n φ s φ' t →
    R.allowed n s t → inv t ∧ grow s t ∧ holds n φ' t ∧
      ∀ m, m ≠ n → (absent m s → absent m t) ∧ ∀ ψ, holds m ψ s → holds m ψ t

namespace Outline

variable {S : System ι σ ℓ ε α} {C : Cover S Φ} {R : Regime σ ℓ}

/-- A configuration at which the outline holds. -/
structure At (O : Outline C R) (c : Config ι σ ℓ ε α) : Prop where
  inv : O.inv c.state
  absent : ∀ n, c.threads.length ≤ n → O.absent n c.state
  thread : ∀ n l p, c.threads[n]? = some (l, p) → ∃ φ, O.holds n φ c.state ∧
    Follows ⟨fun _ i _ => S.input n i, C.move n⟩ (C.post l) p φ

theorem at_nil (O : Outline C R) {s : σ} (hs : O.inv s)
    (habsent : ∀ n, O.absent n s) : O.At ⟨s, []⟩ :=
  ⟨hs, fun n _ => habsent n, fun n l p hn => by simp at hn⟩

theorem at_step (O : Outline C R) {c d : Config ι σ ℓ ε α} (hc : O.At c)
    (hstep : Step S R c d) : O.At d ∧ O.grow c.state d.state := by
  cases hstep with
  | @arrive s threads l hl =>
      refine ⟨⟨hc.inv, fun n hn => hc.absent n ?_, fun n l' p hn => ?_⟩,
        O.grow_refl s⟩
      · rw [List.length_append] at hn
        exact Nat.le_trans (Nat.le_add_right _ _) hn
      rcases Nat.lt_trichotomy n threads.length with hlt | rfl | hgt
      · rw [List.getElem?_append_left hlt] at hn
        exact hc.thread n l' p hn
      · simp only [List.getElem?_concat_length, Option.some.injEq,
          Prod.mk.injEq] at hn
        obtain ⟨rfl, rfl⟩ := hn
        exact ⟨C.entry l, O.entry _ l s hl hc.inv (hc.absent _ (Nat.le_refl _)),
          C.follows _ l⟩
      · rw [List.getElem?_eq_none (by simp; omega)] at hn
        cases hn
  | @drift s t threads hdrift =>
      obtain ⟨hinv, hgrow, hstable⟩ := O.drift s t hc.inv hdrift
      refine ⟨⟨hinv, fun n hn => (hstable n).1 (hc.absent n hn),
        fun n l p hn => ?_⟩, hgrow⟩
      obtain ⟨φ, hφ, hfollows⟩ := hc.thread n l p hn
      exact ⟨φ, (hstable n).2 φ hφ, hfollows⟩
  | @run s threads n l act next i hn hi hallowed =>
      have hlt : n < threads.length := (List.getElem?_eq_some_iff.mp hn).1
      obtain ⟨φ, hφ, hfollows⟩ := hc.thread n l _ hn
      obtain ⟨φ', hmove, hnext⟩ := hfollows i s hi
      obtain ⟨hinv, hgrow, hφ', hothers⟩ :=
        O.step n φ φ' s _ hc.inv hφ hmove hallowed
      refine ⟨⟨hinv, fun m hm => ?_, fun m l' p hm => ?_⟩, hgrow⟩
      · rw [List.length_set] at hm
        exact (hothers m (by omega)).1 (hc.absent m hm)
      by_cases hmn : m = n
      · subst hmn
        simp only [List.getElem?_set_self hlt, Option.some.injEq,
          Prod.mk.injEq] at hm
        obtain ⟨rfl, rfl⟩ := hm
        exact ⟨φ', hφ', hnext⟩
      · simp only [List.getElem?_set_ne (Ne.symm hmn)] at hm
        obtain ⟨ψ, hψ, hψfollows⟩ := hc.thread m l' p hm
        exact ⟨ψ, (hothers m hmn).2 ψ hψ, hψfollows⟩

/-- A proof outline holds along every run. -/
theorem at_reaches (O : Outline C R) {c d : Config ι σ ℓ ε α} (hc : O.At c)
    (hreach : Reaches S R c d) : O.At d ∧ O.grow c.state d.state := by
  induction hreach with
  | refl => exact ⟨hc, O.grow_refl _⟩
  | tail _ hstep ih =>
      obtain ⟨hd, hgrow⟩ := O.at_step ih.1 hstep
      exact ⟨hd, O.grow_trans ih.2 hgrow⟩

end Outline

/-- One entry of a schedule. -/
inductive Action (ι ℓ : Type) where
  | arrive (l : ℓ)
  | run (n : Nat) (i : ι)

/-- It can be told whether a regime lets a thread arrive or take a step. -/
class Regime.Checked (R : Regime σ ℓ) where
  arrives : DecidablePred R.arrives
  allowed : ∀ n s t, Decidable (R.allowed n s t)

instance (R : Regime σ ℓ) [h : R.Checked] (l : ℓ) : Decidable (R.arrives l) :=
  h.arrives l

instance (R : Regime σ ℓ) [h : R.Checked] (n : Nat) (s t : σ) :
    Decidable (R.allowed n s t) :=
  h.allowed n s t

instance : Regime.Checked (Regime.free : Regime σ ℓ) where
  arrives _ := isTrue trivial
  allowed _ _ _ := isTrue trivial

namespace System

variable (S : System ι σ ℓ ε α) [∀ n i, Decidable (S.input n i)]
  (R : Regime σ ℓ) [R.Checked]

/-- Carry out one entry of a schedule, if the regime permits it. -/
def act (c : Config ι σ ℓ ε α) : Action ι ℓ → Option (Config ι σ ℓ ε α)
  | .arrive l =>
      if R.arrives l then some ⟨c.state, c.threads ++ [(l, S.code l)]⟩ else none
  | .run n i =>
      match c.threads[n]? with
      | some (l, .step act next) =>
          if S.input n i ∧ R.allowed n c.state (act i c.state) then
            some ⟨act i c.state, c.threads.set n (l, next i c.state)⟩
          else none
      | _ => none

/-- Play a schedule. -/
def play (c : Config ι σ ℓ ε α) : List (Action ι ℓ) → Option (Config ι σ ℓ ε α)
  | [] => some c
  | a :: actions => (S.act R c a).bind fun d => play d actions

variable {S R}

theorem act_step {c d : Config ι σ ℓ ε α} {a : Action ι ℓ}
    (hact : S.act R c a = some d) : Step S R c d := by
  obtain ⟨s, threads⟩ := c
  cases a with
  | arrive l =>
      simp only [act] at hact
      split at hact
      · rename_i hl
        cases hact
        exact .arrive l hl
      · cases hact
  | run n i =>
      simp only [act] at hact
      split at hact
      · rename_i l act next hn
        split at hact
        · rename_i hi
          cases hact
          exact .run hn hi.1 hi.2
        · cases hact
      · cases hact

/-- A schedule that plays through is a run. -/
theorem play_reaches {c d : Config ι σ ℓ ε α} {actions : List (Action ι ℓ)}
    (hplay : S.play R c actions = some d) : Reaches S R c d := by
  induction actions generalizing c with
  | nil =>
      cases hplay
      exact .refl
  | cons a rest ih =>
      obtain ⟨b, hact, hrest⟩ := Option.bind_eq_some_iff.mp hplay
      exact .head (act_step hact) (ih hrest)

end System

end Atomic
