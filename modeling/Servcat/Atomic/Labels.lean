/-
Systems that serve labels of one kind only.  The threads of a run have labels of
some kind, so a run is a run of the system that serves no others, and one in
which no others arrive.
-/
import Servcat.Atomic.Interleaving

namespace Atomic

variable {ι σ ℓ ε α : Type}

/-- The system that serves the labels with `A` only. -/
def System.on (S : System ι σ ℓ ε α) (A : ℓ → Prop) :
    System ι σ {l // A l} ε α where
  code l := S.code l
  input := S.input
  drift := S.drift

/-- The configuration, with labels of any kind. -/
def Config.forget {A : ℓ → Prop}
    (c : Config ι σ {l // A l} ε α) : Config ι σ ℓ ε α where
  state := c.state
  threads := c.threads.map fun thread => (thread.1.1, thread.2)

/-- Threads keep their labels. -/
theorem Step.labels {S : System ι σ ℓ ε α} {R : Regime σ ℓ}
    {c d : Config ι σ ℓ ε α} (h : Step S R c d) :
    c.threads.map Prod.fst <+: d.threads.map Prod.fst := by
  cases h with
  | arrive l hl => exact ⟨[l], by simp⟩
  | drift hdrift => exact List.prefix_rfl
  | @run s threads n l act next i hn hi hallowed =>
      have hl : (threads.map Prod.fst)[n]? = some l := by simp [hn]
      obtain ⟨hlt, hget⟩ := List.getElem?_eq_some_iff.mp hl
      have hlabels : (threads.set n (l, next i s)).map Prod.fst =
          threads.map Prod.fst := by
        rw [List.map_set, ← hget, List.set_getElem_self]
      change threads.map Prod.fst <+: (threads.set n (l, next i s)).map Prod.fst
      exact ⟨[], by rw [List.append_nil, hlabels]⟩

/-- The regime, for such labels. -/
def Regime.on (R : Regime σ ℓ) (A : ℓ → Prop) : Regime σ {l // A l} :=
  ⟨fun l => R.arrives l, R.allowed⟩

/-- A run whose threads all have labels with `A` is a run of the
system for `A`. -/
theorem Reaches.on {S : System ι σ ℓ ε α} {R : Regime σ ℓ} {A : ℓ → Prop}
    {s : σ} {c : Config ι σ ℓ ε α} (h : Reaches S R ⟨s, []⟩ c)
    (hA : ∀ l ∈ c.threads.map Prod.fst, A l) :
    ∃ d, Reaches (S.on A) (R.on A) ⟨s, []⟩ d ∧ d.forget = c := by
  induction h with
  | refl => exact ⟨⟨s, []⟩, .refl, rfl⟩
  | @tail b c _ hstep ih =>
      obtain ⟨d, hreach, hd⟩ := ih fun l hl => hA l (hstep.labels.subset hl)
      obtain ⟨t, threads⟩ := d
      cases hd
      cases hstep with
      | arrive l hl =>
          have harrives : (R.on A).arrives ⟨l, hA l (by simp)⟩ := hl
          exact ⟨_, hreach.tail (.arrive _ harrives),
            by simp [Config.forget, System.on]⟩
      | drift hdrift => exact ⟨_, hreach.tail (.drift hdrift), rfl⟩
      | @run _ _ n l act next i hn hi hallowed =>
          obtain ⟨⟨l', p⟩, hn', heq⟩ := by
            simpa only [List.getElem?_map, Option.map_eq_some_iff] using hn
          cases heq
          exact ⟨_, hreach.tail (.run hn' hi hallowed),
            by simp [Config.forget, List.map_set]⟩

/-- Only threads with these labels arrive. -/
def Regime.among (R : Regime σ ℓ) (A : ℓ → Prop) : Regime σ ℓ :=
  ⟨A, R.allowed⟩

theorem Reaches.among {S : System ι σ ℓ ε α} {R : Regime σ ℓ} {A : ℓ → Prop}
    {c d : Config ι σ ℓ ε α} (h : Reaches S R c d)
    (hA : ∀ l ∈ d.threads.map Prod.fst, A l) : Reaches S (R.among A) c d := by
  induction h with
  | refl => exact .refl
  | tail _ hstep ih =>
      refine (ih fun l hl => hA l (hstep.labels.subset hl)).tail ?_
      cases hstep with
      | arrive l hl => exact .arrive l (hA l (by simp))
      | drift hdrift => exact .drift hdrift
      | run hn hi hallowed => exact .run hn hi hallowed

end Atomic
