/-
What a thread learns of the state: its answer depends on nothing but how the
state looks to it at its own steps, whatever the other threads do in between.
-/
import Servcat.Atomic.Alike

namespace Atomic

variable {ι σ ℓ ε ε' α α' β β' γ : Type}

/-- A run, with what thread `n` is given at each of its steps and the
state it finds. -/
inductive Watched (S : System ι σ ℓ ε α) (R : Regime σ ℓ) (n : Nat)
    (c : Config ι σ ℓ ε α) : List (ι × σ) → Config ι σ ℓ ε α → Prop
  | refl : Watched S R n c [] c
  | arrive {moments : List (ι × σ)} {s : σ}
      {threads : List (ℓ × Program ι σ ε α)}
      (h : Watched S R n c moments ⟨s, threads⟩) (l : ℓ) (hl : R.arrives l) :
      Watched S R n c moments ⟨s, threads ++ [(l, S.code l)]⟩
  | drift {moments : List (ι × σ)} {s t : σ}
      {threads : List (ℓ × Program ι σ ε α)}
      (h : Watched S R n c moments ⟨s, threads⟩) (hdrift : S.drift s t) :
      Watched S R n c moments ⟨t, threads⟩
  | other {moments : List (ι × σ)} {s : σ}
      {threads : List (ℓ × Program ι σ ε α)} {m : Nat} {l : ℓ} {act : ι → σ → σ}
      {next : ι → σ → Program ι σ ε α} {i : ι}
      (h : Watched S R n c moments ⟨s, threads⟩) (hne : m ≠ n)
      (hm : threads[m]? = some (l, .step act next)) (hi : S.input m i)
      (hallowed : R.allowed m s (act i s)) :
      Watched S R n c moments ⟨act i s, threads.set m (l, next i s)⟩
  | own {moments : List (ι × σ)} {s : σ}
      {threads : List (ℓ × Program ι σ ε α)} {l : ℓ} {act : ι → σ → σ}
      {next : ι → σ → Program ι σ ε α} {i : ι}
      (h : Watched S R n c moments ⟨s, threads⟩)
      (hn : threads[n]? = some (l, .step act next)) (hi : S.input n i)
      (hallowed : R.allowed n s (act i s)) :
      Watched S R n c (moments ++ [(i, s)])
        ⟨act i s, threads.set n (l, next i s)⟩

/-- The program becomes another as it takes its steps at these moments, each of
which finds a state one may rely on after the last. -/
inductive Fed (rely : σ → σ → Prop) (p : Program ι σ ε α) (s₀ : σ) :
    List (ι × σ) → Program ι σ ε α → σ → Prop
  | nil : Fed rely p s₀ [] p s₀
  | snoc {moments : List (ι × σ)} {act : ι → σ → σ}
      {next : ι → σ → Program ι σ ε α} {s t : σ} {i : ι}
      (h : Fed rely p s₀ moments (.step act next) s) (hrely : rely s t) :
      Fed rely p s₀ (moments ++ [(i, t)]) (next i t) t

/-- The programs go on side by side, and `same` relates how they end, as long as
what they find at their steps looks the same to both. -/
def Alongside (rely : σ → σ → Prop) (look : ι → σ → γ)
    (same : Exit ε α → Exit ε α' → Prop) :
    Program ι σ ε α → Program ι σ ε α' → σ → σ → Prop
  | .exit x, .exit y, _, _ => same x y
  | .spin, .spin, _, _ => True
  | .step _ next, .step _ next', s₀, t₀ => ∀ i j s t, rely s₀ s → rely t₀ t →
      look i s = look j t → Alongside rely look same (next i s) (next' j t) s t
  | _, _, _, _ => False

variable {rely : σ → σ → Prop} {look : ι → σ → γ}

theorem Watched.reaches {S : System ι σ ℓ ε α} {R : Regime σ ℓ} {n : Nat}
    {c d : Config ι σ ℓ ε α} {moments : List (ι × σ)}
    (h : Watched S R n c moments d) : Reaches S R c d := by
  induction h with
  | refl => exact .refl
  | arrive _ l hl ih => exact ih.tail (.arrive l hl)
  | drift _ hdrift ih => exact ih.tail (.drift hdrift)
  | other _ _ hm hi hallowed ih => exact ih.tail (.run hm hi hallowed)
  | own _ hn hi hallowed ih => exact ih.tail (.run hn hi hallowed)

namespace Alongside

variable {s t : σ}

/-- What comes after programs that go on side by side. -/
theorem handle {same : Exit ε α → Exit ε α' → Prop}
    {same' : Exit ε' β → Exit ε' β' → Prop} (hrefl : ∀ s, rely s s)
    (htrans : ∀ s t u, rely s t → rely t u → rely s u) {p : Program ι σ ε α}
    {q : Program ι σ ε α'} {rest : Exit ε α → Program ι σ ε' β}
    {rest' : Exit ε α' → Program ι σ ε' β'}
    (h : Alongside rely look same p q s t)
    (hrest : ∀ x y s' t', same x y → rely s s' → rely t t' →
      Alongside rely look same' (rest x) (rest' y) s' t') :
    Alongside rely look same' (p.handle rest) (q.handle rest') s t := by
  induction p generalizing q s t with
  | exit x =>
      cases q with
      | exit y => exact hrest x y s t h (hrefl s) (hrefl t)
      | spin | step => exact h.elim
  | spin =>
      cases q with
      | spin => trivial
      | exit | step => exact h.elim
  | step act next ih =>
      cases q with
      | exit | spin => exact h.elim
      | step act' next' =>
          intro i j s' t' hs ht hlook
          refine ih i s' (h i j s' t' hs ht hlook)
            fun x y s'' t'' hxy hs' ht' => ?_
          exact hrest x y s'' t'' hxy (htrans _ _ _ hs hs')
            (htrans _ _ _ ht ht')

theorem bind {V : α → α' → Prop} {W : β → β' → Prop} (hrefl : ∀ s, rely s s)
    (htrans : ∀ s t u, rely s t → rely t u → rely s u) {p : Program ι σ ε α}
    {q : Program ι σ ε α'} {k : α → Program ι σ ε β}
    {k' : α' → Program ι σ ε β'}
    (h : Alongside rely look (Exit.Agree V) p q s t)
    (hk : ∀ a b s' t', V a b → rely s s' → rely t t' →
      Alongside rely look (Exit.Agree W) (k a) (k' b) s' t') :
    Alongside rely look (Exit.Agree W) (p >>= k) (q >>= k') s t := by
  refine handle hrefl htrans h fun x y s' t' hxy hs ht => ?_
  cases hxy with
  | ok hV => exact hk _ _ s' t' hV hs ht
  | error e => exact .error e
  | panicked => exact .panicked

/-- Moments that look the same leave the programs alongside each other. -/
theorem fed {same : Exit ε α → Exit ε α' → Prop} {p p' : Program ι σ ε α}
    {q q' : Program ι σ ε α'} {s₀ t₀ : σ} {moments moments' : List (ι × σ)}
    (hp : Fed rely p s₀ moments p' s) (hq : Fed rely q t₀ moments' q' t)
    (h : Alongside rely look same p q s₀ t₀)
    (hsame : moments.map (fun m => look m.1 m.2) = moments'.map
      fun m => look m.1 m.2) :
    Alongside rely look same p' q' s t := by
  induction hp generalizing moments' q' t with
  | nil =>
      cases hq with
      | nil => exact h
      | snoc hq hrely => simp at hsame
  | snoc hp hrely ih =>
      cases hq with
      | nil => simp at hsame
      | snoc hq hrely' =>
          rw [List.map_append, List.map_append] at hsame
          obtain ⟨hsame, hlast⟩ := List.append_inj' hsame rfl
          exact ih hq hsame _ _ _ _ hrely hrely' (List.cons.inj hlast).1

end Alongside

section Runs

variable {S : System ι σ ℓ ε α} {R : Regime σ ℓ} {n : Nat} {s₀ : σ}
  {c : Config ι σ ℓ ε α} {moments : List (ι × σ)}

/-- What a run feeds to its thread `n`. -/
theorem Watched.fed (hrefl : ∀ s, rely s s)
    (htrans : ∀ s t u, rely s t → rely t u → rely s u)
    (hgrow : ∀ c d, Reaches S R ⟨s₀, []⟩ c → Step S R c d →
      rely c.state d.state)
    (h : Watched S R n ⟨s₀, []⟩ moments c) :
    (c.threads.length ≤ n → moments = []) ∧ ∀ l p, c.threads[n]? = some (l, p) →
      ∃ s t, Fed rely (S.code l) s moments p t ∧ rely t c.state := by
  induction h with
  | refl => exact ⟨fun _ => rfl, fun l p hn => by simp at hn⟩
  | @arrive moments s threads h l hl ih =>
      refine ⟨fun hlen => ih.1 ?_, fun l' p hn => ?_⟩
      · rw [List.length_append] at hlen
        exact Nat.le_trans (Nat.le_add_right _ _) hlen
      rcases Nat.lt_trichotomy n threads.length with hlt | rfl | hgt
      · rw [List.getElem?_append_left hlt] at hn
        exact ih.2 l' p hn
      · simp only [List.getElem?_concat_length, Option.some.injEq,
          Prod.mk.injEq] at hn
        obtain ⟨rfl, rfl⟩ := hn
        rw [ih.1 (Nat.le_refl _)]
        exact ⟨s, s, .nil, hrefl s⟩
      · rw [List.getElem?_eq_none (by simp; omega)] at hn
        cases hn
  | @drift moments s t threads h hdrift ih =>
      refine ⟨ih.1, fun l p hn => ?_⟩
      obtain ⟨u, v, hfed, hrely⟩ := ih.2 l p hn
      exact ⟨u, v, hfed, htrans _ _ _ hrely
        (hgrow _ _ h.reaches (.drift hdrift))⟩
  | @other moments s threads m l act next i h hne hm hi hallowed ih =>
      refine ⟨fun hlen => ih.1 (by simpa using hlen), fun l' p hn => ?_⟩
      rw [List.getElem?_set_ne hne] at hn
      obtain ⟨u, v, hfed, hrely⟩ := ih.2 l' p hn
      exact ⟨u, v, hfed, htrans _ _ _ hrely
        (hgrow _ _ h.reaches (.run hm hi hallowed))⟩
  | @own moments s threads l act next i h hn hi hallowed ih =>
      have hlt : n < threads.length := (List.getElem?_eq_some_iff.mp hn).1
      refine ⟨fun hlen => ?_, fun l' p hp => ?_⟩
      · rw [List.length_set] at hlen
        omega
      simp only [List.getElem?_set_self hlt, Option.some.injEq,
        Prod.mk.injEq] at hp
      obtain ⟨rfl, rfl⟩ := hp
      obtain ⟨u, v, hfed, hrely⟩ := ih.2 _ _ hn
      exact ⟨u, s, .snoc hfed hrely, hgrow _ _ h.reaches (.run hn hi hallowed)⟩

/-- The same request is answered the same in two runs, if all its moments
look the same. -/
theorem Watched.same_answer {s₀' : σ} {n' : Nat} {c' : Config ι σ ℓ ε α}
    {moments' : List (ι × σ)} {l : ℓ} {x y : Exit ε α} (hrefl : ∀ s, rely s s)
    (htrans : ∀ s t u, rely s t → rely t u → rely s u)
    (hgrow : ∀ s₀ c d, Reaches S R ⟨s₀, []⟩ c → Step S R c d →
      rely c.state d.state)
    (h : Watched S R n ⟨s₀, []⟩ moments c)
    (h' : Watched S R n' ⟨s₀', []⟩ moments' c')
    (hn : c.threads[n]? = some (l, .exit x))
    (hn' : c'.threads[n']? = some (l, .exit y))
    (hcode : ∀ s t,
      Alongside rely look (Exit.Agree Eq) (S.code l) (S.code l) s t)
    (hsame : moments.map (fun m => look m.1 m.2) = moments'.map
      fun m => look m.1 m.2) :
    x = y := by
  obtain ⟨s, _, hfed, -⟩ := (h.fed hrefl htrans (hgrow s₀)).2 _ _ hn
  obtain ⟨t, _, hfed', -⟩ := (h'.fed hrefl htrans (hgrow s₀')).2 _ _ hn'
  exact (Exit.agree_eq_iff.mp ((hcode s t).fed hfed hfed' hsame)).symm

end Runs

end Atomic
