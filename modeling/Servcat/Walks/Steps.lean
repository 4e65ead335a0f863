/-
Walks along a partial function: where a walk stops, and when it visits an
element twice.
-/
import Mathlib.Data.Finset.Card
import Mathlib.Data.Finset.Range

namespace Walks

variable {α : Type} {f : α → Option α} {a b c : α} {k m n : ℕ}

/-- The element reached from `a` after `n` steps, if every one of
them is there. -/
def walk (f : α → Option α) (a : α) : ℕ → Option α
  | 0 => some a
  | n + 1 => (walk f a n).bind f

/-- The walk takes `k` steps, to an element that no step leaves. -/
def Stops (f : α → Option α) (a : α) (k : ℕ) (b : α) : Prop :=
  walk f a k = some b ∧ f b = none

/-- The walk comes to some element twice. -/
def Repeats (f : α → Option α) (a : α) : Prop :=
  ∃ i j b, i < j ∧ walk f a i = some b ∧ walk f a j = some b

theorem walk_add (f : α → Option α) (a : α) (m n : ℕ) :
    walk f a (m + n) = (walk f a m).bind fun b => walk f b n := by
  induction n with
  | zero => simp [walk]
  | succ n ih =>
      rw [← Nat.add_assoc]
      simp only [walk]
      rw [ih, Option.bind_assoc]

theorem walk_add_of_eq (h : walk f a m = some b) (n : ℕ) :
    walk f a (m + n) = walk f b n := by
  rw [walk_add, h, Option.bind_some]

/-- The first step of a walk, and the walk from where it leads. -/
theorem walk_succ_of_eq (h : f a = some b) (n : ℕ) :
    walk f a (n + 1) = walk f b n := by
  have hone : walk f a 1 = some b := by simpa [walk] using h
  rw [Nat.add_comm, walk_add_of_eq hone]

theorem exists_walk_of_le (h : walk f a n = some b) (hle : m ≤ n) :
    ∃ c, walk f a m = some c := by
  obtain ⟨k, rfl⟩ := Nat.exists_eq_add_of_le hle
  rw [walk_add] at h
  obtain ⟨c, hc, -⟩ := Option.bind_eq_some_iff.mp h
  exact ⟨c, hc⟩

/-- Every element before the last one has a step that leaves it. -/
theorem exists_step_of_lt (h : walk f a n = some b) (hlt : m < n) :
    ∃ c, walk f a m = some c ∧ (f c).isSome = true := by
  obtain ⟨d, hd⟩ := exists_walk_of_le h (Nat.succ_le_of_lt hlt)
  obtain ⟨c, hc, hstep⟩ := Option.bind_eq_some_iff.mp hd
  exact ⟨c, hc, by rw [hstep]; rfl⟩

/-- A walk takes `n` steps or stops before. -/
theorem walk_or_stops (f : α → Option α) (a : α) (n : ℕ) :
    (∃ b, walk f a n = some b) ∨ ∃ k < n, ∃ b, Stops f a k b := by
  induction n with
  | zero => exact .inl ⟨a, rfl⟩
  | succ n ih =>
      rcases ih with ⟨b, hb⟩ | ⟨k, hk, hstops⟩
      · cases hstep : f b with
        | some c => exact .inl ⟨c, by simp [walk, hb, hstep]⟩
        | none => exact .inr ⟨n, Nat.lt_succ_self n, b, hb, hstep⟩
      · exact .inr ⟨k, Nat.lt_succ_of_lt hk, hstops⟩

namespace Stops

theorem stay (h : f a = none) : Stops f a 0 a :=
  ⟨rfl, h⟩

theorem cons (hstep : f a = some c) (h : Stops f c k b) : Stops f a (k + 1) b :=
  ⟨(walk_succ_of_eq hstep k).trans h.1, h.2⟩

theorem tail (hstep : f a = some c) (h : Stops f a (k + 1) b) : Stops f c k b :=
  ⟨(walk_succ_of_eq hstep k).symm.trans h.1, h.2⟩

theorem walk_eq_none (h : Stops f a k b) (hlt : k < n) : walk f a n = none := by
  obtain ⟨m, rfl⟩ := Nat.exists_eq_add_of_lt hlt
  rw [Nat.add_assoc, walk_add_of_eq h.1, Nat.add_comm, walk_add]
  simp [walk, h.2]

theorem le_of_walk (h : Stops f a k b)
    (hwalk : walk f a n = some c) : n ≤ k := by
  by_contra hlt
  rw [h.walk_eq_none (Nat.lt_of_not_le hlt)] at hwalk
  cases hwalk

theorem unique (h : Stops f a k b) (h' : Stops f a n c) : k = n ∧ b = c := by
  have heq : k = n := Nat.le_antisymm (h'.le_of_walk h.1) (h.le_of_walk h'.1)
  refine ⟨heq, ?_⟩
  rw [heq] at h
  exact Option.some.inj (h.1.symm.trans h'.1)

end Stops

/-- From a repeated element on, the walk goes round for ever. -/
theorem Repeats.forever (h : Repeats f a) (n : ℕ) :
    ∃ b, walk f a n = some b := by
  obtain ⟨i, j, b, hij, hi, hj⟩ := h
  induction n using Nat.strong_induction_on with
  | _ n ih =>
      by_cases hn : n ≤ j
      · exact exists_walk_of_le hj hn
      · -- Past the second visit, where the first one leads to the same place.
        obtain ⟨k, rfl⟩ := Nat.exists_eq_add_of_le (Nat.le_of_not_le hn)
        rw [walk_add_of_eq hj, ← walk_add_of_eq hi]
        exact ih (i + k) (by omega)

theorem Repeats.not_stops (h : Repeats f a) : ¬Stops f a k b := by
  intro hstops
  obtain ⟨c, hc⟩ := h.forever (k + 1)
  have hle := hstops.le_of_walk hc
  omega

/-- A walk that stays among fewer elements than it visits comes to one twice. -/
theorem repeats_of_mem (s : Finset α) (hcard : s.card ≤ n)
    (h : ∀ k ≤ n, ∃ b ∈ s, walk f a k = some b) : Repeats f a := by
  have hvisited : ∀ k, ∃ b, k ≤ n → b ∈ s ∧ walk f a k = some b := by
    intro k
    by_cases hk : k ≤ n
    · obtain ⟨b, hb⟩ := h k hk
      exact ⟨b, fun _ => hb⟩
    · exact ⟨a, fun hle => absurd hle hk⟩
  choose visit hvisit using hvisited
  have hmaps : ∀ k ∈ Finset.range (n + 1), visit k ∈ s := by
    intro k hk
    exact (hvisit k (Nat.le_of_lt_succ (Finset.mem_range.mp hk))).1
  have hlt : s.card < (Finset.range (n + 1)).card := by
    rw [Finset.card_range]
    omega
  obtain ⟨i, hi, j, hj, hne, heq⟩ :=
    Finset.exists_ne_map_eq_of_card_lt_of_maps_to hlt hmaps
  have hwalk : ∀ k ∈ Finset.range (n + 1), walk f a k = some (visit k) := by
    intro k hk
    exact (hvisit k (Nat.le_of_lt_succ (Finset.mem_range.mp hk))).2
  rcases Nat.lt_or_gt_of_ne hne with hij | hji
  · exact ⟨i, j, visit i, hij, hwalk i hi, by rw [hwalk j hj, heq]⟩
  · exact ⟨j, i, visit i, hji, by rw [hwalk j hj, heq], hwalk i hi⟩

/-- Where only finitely many elements have a step, a walk stops or repeats. -/
theorem exists_stops_iff (s : Finset α)
    (hs : ∀ b, (f b).isSome = true → b ∈ s) :
    (∃ k b, Stops f a k b) ↔ ¬Repeats f a := by
  constructor
  · rintro ⟨k, b, hstops⟩ hrepeats
    exact hrepeats.not_stops hstops
  · intro hrepeats
    rcases walk_or_stops f a (s.card + 1) with ⟨b, hb⟩ | ⟨k, -, b, hstops⟩
    · refine absurd (repeats_of_mem s le_rfl fun k hk => ?_) hrepeats
      obtain ⟨c, hc, hstep⟩ := exists_step_of_lt hb (Nat.lt_succ_of_le hk)
      exact ⟨c, hs c hstep, hc⟩
    · exact ⟨k, b, hstops⟩

end Walks
