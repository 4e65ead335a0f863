/-
Programs that cannot be told apart by their answers.  Fed the same inputs, two
programs that are alike take their steps together and keep their states related;
so every run of one system of threads is matched by a run of the other.
-/
import Servcat.Atomic.Interleaving
import Mathlib.Data.List.Forall2

namespace Atomic

variable {ι σ τ ℓ ε ε' α α' β β' : Type}

/-- The programs go in lockstep: their states stay related by `R`, and `same`
relates how they end. -/
def Alike (R : σ → τ → Prop) (same : Exit ε α → Exit ε' α' → Prop) :
    Program ι σ ε α → Program ι τ ε' α' → Prop
  | .exit x, .exit y => same x y
  | .spin, .spin => True
  | .step act next, .step act' next' => ∀ i s t, R s t →
      R (act i s) (act' i t) ∧ Alike R same (next i s) (next' i t)
  | _, _ => False

/-- Ends that differ at most in the value, by `V`. -/
inductive Exit.Agree (V : α → α' → Prop) : Exit ε α → Exit ε α' → Prop
  | ok {a : α} {a' : α'} (h : V a a') : Agree V (.ok a) (.ok a')
  | error (e : ε) : Agree V (.error e) (.error e)
  | panicked : Agree V .panicked .panicked

theorem Exit.agree_eq_iff {x y : Exit ε α} : Exit.Agree Eq x y ↔ y = x := by
  constructor
  · rintro (⟨rfl⟩ | e | -) <;> rfl
  · rintro rfl
    cases y with
    | ok a => exact .ok rfl
    | error e => exact .error e
    | panicked => exact .panicked

namespace Alike

variable {R : σ → τ → Prop}

theorem mono {same same' : Exit ε α → Exit ε' α' → Prop}
    (himp : ∀ x y, same x y → same' x y) {p : Program ι σ ε α}
    {q : Program ι τ ε' α'} (h : Alike R same p q) : Alike R same' p q := by
  induction p generalizing q with
  | exit x =>
      cases q with
      | exit y => exact himp x y h
      | spin | step => exact h
  | spin =>
      cases q with
      | spin => trivial
      | exit | step => exact h
  | step act next ih =>
      cases q with
      | exit | spin => exact h
      | step act' next' =>
          exact fun i s t hst => ⟨(h i s t hst).1, ih i s (h i s t hst).2⟩

/-- What comes after programs that are alike. -/
theorem handle {same : Exit ε α → Exit ε α' → Prop}
    {same' : Exit ε' β → Exit ε' β' → Prop} {p : Program ι σ ε α}
    {q : Program ι τ ε α'} {rest : Exit ε α → Program ι σ ε' β}
    {rest' : Exit ε α' → Program ι τ ε' β'} (h : Alike R same p q)
    (hrest : ∀ x y, same x y → Alike R same' (rest x) (rest' y)) :
    Alike R same' (p.handle rest) (q.handle rest') := by
  induction p generalizing q with
  | exit x =>
      cases q with
      | exit y => exact hrest x y h
      | spin | step => exact h.elim
  | spin =>
      cases q with
      | spin => trivial
      | exit | step => exact h.elim
  | step act next ih =>
      cases q with
      | exit | spin => exact h.elim
      | step act' next' =>
          exact fun i s t hst => ⟨(h i s t hst).1, ih i s (h i s t hst).2⟩

variable {V : α → α' → Prop} {W : β → β' → Prop}

theorem exit {x : Exit ε α} {y : Exit ε α'} (h : x.Agree V y) :
    Alike R (Exit.Agree V) (.exit x : Program ι σ ε α)
      (.exit y : Program ι τ ε α') :=
  h

theorem pure {a : α} {a' : α'} (h : V a a') :
    Alike R (Exit.Agree V) (Pure.pure a : Program ι σ ε α)
      (Pure.pure a' : Program ι τ ε α') :=
  .ok h

theorem throw (e : ε) :
    Alike R (Exit.Agree V) (Program.throw e : Program ι σ ε α)
      (Program.throw e : Program ι τ ε α') :=
  .error e

theorem bind {p : Program ι σ ε α} {q : Program ι τ ε α'}
    {k : α → Program ι σ ε β} {k' : α' → Program ι τ ε β'}
    (h : Alike R (Exit.Agree V) p q)
    (hk : ∀ a a', V a a' → Alike R (Exit.Agree W) (k a) (k' a')) :
    Alike R (Exit.Agree W) (p >>= k) (q >>= k') := by
  refine h.handle fun x y hxy => ?_
  cases hxy with
  | ok hV => exact hk _ _ hV
  | error e => exact .error e
  | panicked => exact .panicked

theorem mapError {p : Program ι σ ε α} {q : Program ι τ ε α'} (f : ε → ε')
    (h : Alike R (Exit.Agree V) p q) :
    Alike R (Exit.Agree V) (p.mapError f) (q.mapError f) := by
  refine h.handle fun x y hxy => ?_
  cases hxy with
  | ok hV => exact .ok hV
  | error e => exact .error (f e)
  | panicked => exact .panicked

/-- Errors that are handed over are the same. -/
theorem attempt {p : Program ι σ ε α} {q : Program ι τ ε α'}
    (h : Alike R (Exit.Agree V) p q) :
    Alike R (Exit.Agree fun r r' => (∃ a a', V a a' ∧ r = .ok a ∧ r' = .ok a') ∨
      ∃ e, r = .error e ∧ r' = .error e)
      (p.attempt : Program ι σ ε' (Except ε α))
      (q.attempt : Program ι τ ε' (Except ε α')) := by
  refine h.handle fun x y hxy => ?_
  cases hxy with
  | ok hV => exact .ok (.inl ⟨_, _, hV, rfl, rfl⟩)
  | error e => exact .ok (.inr ⟨e, rfl, rfl⟩)
  | panicked => exact .panicked

theorem atomic {f : ι → σ → Exit ε α × σ} {f' : ι → τ → Exit ε α' × τ}
    (h : ∀ i s t,
      R s t → R (f i s).2 (f' i t).2 ∧ (f i s).1.Agree V (f' i t).1) :
    Alike R (Exit.Agree V) (.atomic f) (.atomic f') :=
  h

/-- One value, required of both programs. -/
theorem okOr (e : ε) (value : Option α) :
    Alike R (Exit.Agree Eq) (Program.okOr e value : Program ι σ ε α)
      (Program.okOr e value : Program ι τ ε α) :=
  Exit.agree_eq_iff.mpr rfl

theorem liftExcept (result : Except ε α) :
    Alike R (Exit.Agree Eq) (Program.liftExcept result : Program ι σ ε α)
      (Program.liftExcept result : Program ι τ ε α) :=
  Exit.agree_eq_iff.mpr rfl

end Alike

/-- Two systems that serve the same labels by programs that are alike.  `same`
relates the answers to a label. -/
structure Twins (S : System ι σ ℓ ε α) (T : System ι τ ℓ ε α) where
  rel : σ → τ → Prop
  same : ℓ → Exit ε α → Exit ε α → Prop
  input : ∀ n i, S.input n i → T.input n i
  drift : ∀ s s' t, rel s t → S.drift s s' → ∃ t', T.drift t t' ∧ rel s' t'
  code : ∀ l, Alike rel (same l) (S.code l) (T.code l)

namespace Twins

variable {S : System ι σ ℓ ε α} {T : System ι τ ℓ ε α} (W : Twins S T)

/-- Threads that serve the same label, at the same place. -/
def Abreast (a : ℓ × Program ι σ ε α) (b : ℓ × Program ι τ ε α) : Prop :=
  b.1 = a.1 ∧ Alike W.rel (W.same a.1) a.2 b.2

/-- Configurations that run side by side. -/
structure At (c : Config ι σ ℓ ε α) (d : Config ι τ ℓ ε α) : Prop where
  state : W.rel c.state d.state
  threads : List.Forall₂ W.Abreast c.threads d.threads

variable {W}

theorem at_nil {s : σ} {t : τ} (h : W.rel s t) : W.At ⟨s, []⟩ ⟨t, []⟩ :=
  ⟨h, .nil⟩

theorem forall₂_set {P : α → β → Prop} {as : List α} {bs : List β}
    (h : List.Forall₂ P as bs) (n : Nat) {a : α} {b : β} (hab : P a b) :
    List.Forall₂ P (as.set n a) (bs.set n b) := by
  induction h generalizing n with
  | nil => exact .nil
  | cons hhead htail ih =>
      cases n with
      | zero => exact .cons hab htail
      | succ n => exact .cons hhead (ih n)

theorem exists_of_getElem? {P : α → β → Prop} {as : List α} {bs : List β}
    (h : List.Forall₂ P as bs) {n : Nat} {a : α} (hn : as[n]? = some a) :
    ∃ b, bs[n]? = some b ∧ P a b := by
  induction h generalizing n with
  | nil => simp at hn
  | @cons a' b' as bs hhead htail ih =>
      cases n with
      | zero =>
          obtain rfl : a' = a := by simpa using hn
          exact ⟨b', rfl, hhead⟩
      | succ n => exact ih hn

/-- A step on one side is matched by a step on the other. -/
theorem At.step {c c' : Config ι σ ℓ ε α} {d : Config ι τ ℓ ε α} (h : W.At c d)
    (hstep : Step S .free c c') : ∃ d', Step T .free d d' ∧ W.At c' d' := by
  obtain ⟨t, threads'⟩ := d
  cases hstep with
  | arrive l hl =>
      exact ⟨_, .arrive l trivial, h.state,
        List.rel_append h.threads (.cons ⟨rfl, W.code l⟩ .nil)⟩
  | drift hdrift =>
      obtain ⟨t', hdrift', hrel⟩ := W.drift _ _ _ h.state hdrift
      exact ⟨_, .drift hdrift', hrel, h.threads⟩
  | @run s threads n l act next i hn hi hallowed =>
      obtain ⟨⟨l', q⟩, hn', hlabel, halike⟩ := exists_of_getElem? h.threads hn
      obtain rfl : l' = l := hlabel
      cases q with
      | exit | spin => exact halike.elim
      | step act' next' =>
          obtain ⟨hrel, hnext⟩ := halike i s t h.state
          exact ⟨_, .run hn' (W.input n i hi) trivial, hrel,
            forall₂_set h.threads n ⟨rfl, hnext⟩⟩

/-- Every run is matched by a run of the other system, whose answers
are the same. -/
theorem At.reaches {c c' : Config ι σ ℓ ε α} {d : Config ι τ ℓ ε α}
    (h : W.At c d) (hreach : Reaches S .free c c') :
    ∃ d', Reaches T .free d d' ∧ W.At c' d' := by
  induction hreach with
  | refl => exact ⟨d, .refl, h⟩
  | tail _ hstep ih =>
      obtain ⟨b, hreach', hb⟩ := ih
      obtain ⟨d', hstep', hd'⟩ := hb.step hstep
      exact ⟨d', hreach'.tail hstep', hd'⟩

theorem At.answer {c : Config ι σ ℓ ε α} {d : Config ι τ ℓ ε α} (h : W.At c d)
    {n : Nat} {l : ℓ} {x : Exit ε α} (hn : c.threads[n]? = some (l, .exit x)) :
    ∃ y, d.threads[n]? = some (l, .exit y) ∧ W.same l x y := by
  obtain ⟨⟨l', q⟩, hn', hlabel, halike⟩ := exists_of_getElem? h.threads hn
  obtain rfl : l' = l := hlabel
  cases q with
  | exit y => exact ⟨y, hn', halike⟩
  | spin | step => exact halike.elim

end Twins

end Atomic
