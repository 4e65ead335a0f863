/-
Maps whose entries expire and are taken at most once.  What such a map holds is
told by the history of the operations on it: an entry is there until it is
taken, replaced, or older than its time to live.
-/
import Mathlib.Logic.Function.Basic

namespace Keyed

variable {κ α : Type}

/-- A value and the time it was put at. -/
structure Stamped (α : Type) where
  value : α
  createdAt : Nat
deriving DecidableEq, Repr

/-- At most one entry for each key. -/
abbrev Expiring (κ α : Type) := κ → Option (Stamped α)

namespace Expiring

def empty : Expiring κ α :=
  fun _ => none

/-- Drop every entry that has reached its time to live. -/
def sweep (ttl now : Nat) (m : Expiring κ α) : Expiring κ α :=
  fun k => (m k).filter fun e => now - e.createdAt < ttl

theorem sweep_eq_some_iff {ttl now : Nat} {m : Expiring κ α} {k : κ}
    {e : Stamped α} :
    m.sweep ttl now k = some e ↔ m k = some e ∧ now - e.createdAt < ttl := by
  simp [sweep, Option.filter_eq_some_iff]

section

variable [DecidableEq κ]

/-- Sweep, then put an entry of this time. -/
def put (ttl now : Nat) (k : κ) (a : α) (m : Expiring κ α) : Expiring κ α :=
  Function.update (m.sweep ttl now) k (some ⟨a, now⟩)

/-- Sweep, then take the entry of a key out. -/
def take (ttl now : Nat) (k : κ) (m : Expiring κ α) : Option α × Expiring κ α :=
  ((m.sweep ttl now k).map Stamped.value,
    Function.update (m.sweep ttl now) k none)

theorem take_eq_some_iff {ttl now : Nat} {k : κ} {m : Expiring κ α} {a : α} :
    (m.take ttl now k).1 = some a ↔ ∃ t, m k = some ⟨a, t⟩ ∧ now - t < ttl := by
  simp only [take, Option.map_eq_some_iff, sweep_eq_some_iff]
  constructor
  · rintro ⟨⟨_, t⟩, ⟨hm, hfresh⟩, rfl⟩
    exact ⟨t, hm, hfresh⟩
  · rintro ⟨t, hm, hfresh⟩
    exact ⟨⟨a, t⟩, ⟨hm, hfresh⟩, rfl⟩

end

/-- An operation on one key. -/
inductive Op (κ α : Type) where
  | put (k : κ) (a : α)
  | take (k : κ)

def Op.key : Op κ α → κ
  | .put k _ | .take k => k

def Op.apply [DecidableEq κ] (ttl now : Nat) :
    Op κ α → Expiring κ α → Expiring κ α
  | .put k a, m => m.put ttl now k a
  | .take k, m => (m.take ttl now k).2

/-- The operations with their times, newest first. -/
abbrev History (κ α : Type) := List (Nat × Op κ α)

namespace History

/-- Time does not run backwards, and it is `now`. -/
def Ordered (now : Nat) (h : History κ α) : Prop :=
  h.Pairwise (fun e f => f.1 ≤ e.1) ∧ ∀ e ∈ h, e.1 ≤ now

/-- The last operation on a key put this value at this time. -/
inductive LastPut (k : κ) (a : α) (t : Nat) : History κ α → Prop
  | here (older : History κ α) : LastPut k a t ((t, .put k a) :: older)
  | older {s : Nat} {op : Op κ α} {h : History κ α} (hkey : op.key ≠ k)
      (hlast : LastPut k a t h) : LastPut k a t ((s, op) :: h)

theorem lastPut_iff {k : κ} {a : α} {t : Nat} {h : History κ α} :
    h.LastPut k a t ↔ ∃ later earlier, h = later ++ (t, .put k a) :: earlier ∧
      ∀ e ∈ later, e.2.key ≠ k := by
  constructor
  · intro hlast
    induction hlast with
    | here older => exact ⟨[], older, rfl, by simp⟩
    | @older s op h hkey _ ih =>
        obtain ⟨later, earlier, rfl, hlater⟩ := ih
        refine ⟨(s, op) :: later, earlier, rfl, ?_⟩
        intro e he
        rcases List.mem_cons.mp he with rfl | he
        · exact hkey
        · exact hlater e he
  · rintro ⟨later, earlier, rfl, hlater⟩
    induction later with
    | nil => exact .here earlier
    | cons e later ih =>
        exact .older (hlater e List.mem_cons_self)
          (ih fun f hf => hlater f (List.mem_cons_of_mem e hf))

theorem Ordered.tail {now : Nat} {e : Nat × Op κ α} {h : History κ α}
    (hordered : Ordered now (e :: h)) : Ordered e.1 h :=
  ⟨hordered.1.of_cons, (List.pairwise_cons.mp hordered.1).1⟩

section

variable {β : Type}

/-- What a history of other things says about one map. -/
def of (f : β → Option (Op κ α)) (h : List (Nat × β)) : History κ α :=
  h.filterMap fun e => (f e.2).map fun op => (e.1, op)

theorem Ordered.of {f : β → Option (Op κ α)} {now : Nat} {h : List (Nat × β)}
    (hsorted : h.Pairwise fun e e' => e'.1 ≤ e.1) (hnow : ∀ e ∈ h, e.1 ≤ now) :
    (of f h).Ordered now := by
  constructor
  · refine hsorted.filterMap _ ?_
    intro e e' hle x hx y hy
    obtain ⟨_, -, rfl⟩ := Option.map_eq_some_iff.mp hx
    obtain ⟨_, -, rfl⟩ := Option.map_eq_some_iff.mp hy
    exact hle
  · intro x hx
    obtain ⟨e, he, hx⟩ := List.mem_filterMap.mp hx
    obtain ⟨_, -, rfl⟩ := Option.map_eq_some_iff.mp hx
    exact hnow e he

theorem lastPut_of_iff {f : β → Option (Op κ α)} {h : List (Nat × β)} {k : κ}
    {a : α} {t : Nat} : (of f h).LastPut k a t ↔ ∃ later b earlier,
      h = later ++ (t, b) :: earlier ∧ f b = some (.put k a) ∧
        ∀ e ∈ later, ∀ op, f e.2 = some op → op.key ≠ k := by
  constructor
  · intro hlast
    induction h with
    | nil => cases hlast
    | cons e rest ih =>
        cases hf : f e.2 with
        | none =>
            have hsame : of f (e :: rest) = of f rest := by simp [of, hf]
            rw [hsame] at hlast
            obtain ⟨later, b, earlier, rfl, hb, hlater⟩ := ih hlast
            refine ⟨e :: later, b, earlier, rfl, hb, ?_⟩
            intro e' he' op hop
            rcases List.mem_cons.mp he' with rfl | he'
            · rw [hf] at hop
              cases hop
            · exact hlater e' he' op hop
        | some op =>
            have hcons : of f (e :: rest) = (e.1, op) :: of f rest := by
              simp [of, hf]
            rw [hcons] at hlast
            cases hlast with
            | here => exact ⟨[], e.2, rest, rfl, hf, by simp⟩
            | older hkey hlast =>
                obtain ⟨later, b, earlier, rfl, hb, hlater⟩ := ih hlast
                refine ⟨e :: later, b, earlier, rfl, hb, ?_⟩
                intro e' he' op' hop'
                rcases List.mem_cons.mp he' with rfl | he'
                · rw [hf, Option.some.injEq] at hop'
                  exact hop' ▸ hkey
                · exact hlater e' he' op' hop'
  · rintro ⟨later, b, earlier, rfl, hb, hlater⟩
    refine lastPut_iff.mpr ⟨of f later, of f earlier, by simp [of, hb], ?_⟩
    intro x hx
    obtain ⟨e, he, hx⟩ := List.mem_filterMap.mp hx
    obtain ⟨op, hop, rfl⟩ := Option.map_eq_some_iff.mp hx
    exact hlater e he op hop

end

variable [DecidableEq κ]

/-- The map after a history that began with the empty map. -/
def result (ttl : Nat) : History κ α → Expiring κ α
  | [] => empty
  | (t, op) :: older => op.apply ttl t (result ttl older)

/-- What the map holds and has not expired is what the history says. -/
theorem fresh_iff {ttl now : Nat} {h : History κ α} (hordered : h.Ordered now)
    {k : κ} {a : α} {t : Nat} :
    h.result ttl k = some ⟨a, t⟩ ∧ now - t < ttl ↔
      h.LastPut k a t ∧ now - t < ttl := by
  refine and_congr_left fun hfresh => ?_
  induction h generalizing now with
  | nil =>
      constructor
      · rintro ⟨⟩
      · rintro ⟨⟩
  | cons e older ih =>
      obtain ⟨s, op⟩ := e
      have hs : s ≤ now := hordered.2 _ List.mem_cons_self
      have hage : s - t < ttl := by omega
      have hold := ih hordered.tail hage
      have hsweep : (result ttl older).sweep ttl s k = some ⟨a, t⟩ ↔
          LastPut k a t older := by
        rw [sweep_eq_some_iff, hold]
        exact and_iff_left hage
      by_cases hkey : op.key = k
      · cases op with
        | put k' a' =>
            obtain rfl : k' = k := hkey
            simp only [result, Op.apply, put, Function.update_self,
              Option.some.injEq, Stamped.mk.injEq]
            constructor
            · rintro ⟨rfl, rfl⟩
              exact .here older
            · intro hlast
              cases hlast with
              | here => exact ⟨rfl, rfl⟩
              | older hne => exact absurd rfl hne
        | take k' =>
            obtain rfl : k' = k := hkey
            simp only [result, Op.apply, take, Function.update_self]
            constructor
            · rintro ⟨⟩
            · intro hlast
              cases hlast with
              | older hne => exact absurd rfl hne
      · have hresult : result ttl ((s, op) :: older) k =
            (result ttl older).sweep ttl s k := by
          cases op with
          | put k' a' => exact Function.update_of_ne (Ne.symm hkey) _ _
          | take k' => exact Function.update_of_ne (Ne.symm hkey) _ _
        rw [hresult, hsweep]
        constructor
        · exact .older hkey
        · intro hlast
          cases hlast with
          | here => exact absurd rfl hkey
          | older _ hlast => exact hlast

/-- A value is taken if and only if the last operation on its key put it there,
less than its time to live ago. -/
theorem take_result_iff {ttl now : Nat} {h : History κ α}
    (hordered : h.Ordered now) {k : κ} {a : α} :
    ((h.result ttl).take ttl now k).1 = some a ↔
      ∃ t, h.LastPut k a t ∧ now - t < ttl := by
  rw [take_eq_some_iff]
  exact exists_congr fun t => fresh_iff hordered

end History

end Expiring

end Keyed
