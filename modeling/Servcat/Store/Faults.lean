/-
Statements of which any may fail, before it is carried out or after.
-/
import Servcat.Store.World

namespace Servcat

open Atomic

/-- Any identifier and any fault. -/
def Input.Arbitrary (_ : Input) (_ : World) : Prop :=
  True

instance (i : Input) (w : World) : Decidable (i.Arbitrary w) :=
  inferInstanceAs (Decidable True)

section Rules

variable {ε α β : Type} {w : World}

theorem select_arbitrary_wp {f : World → α}
    {post : Exit DbError α → World → Prop} :
    wp Input.Arbitrary (select f) post w ↔
      post (.ok (f w)) w ∧ post (.error .sqlx) w := by
  refine (wp_atomic _ _ _).trans ⟨fun h => ?_, ?_⟩
  · exact ⟨h ⟨0, ⟨0⟩, .none⟩ trivial, h ⟨0, ⟨0⟩, .lostRequest⟩ trivial⟩
  · rintro ⟨hok, herror⟩ i -
    cases i.fault with
    | none => exact hok
    | lostRequest | lostReply => exact herror

/-- An `UPDATE`, which no constraint rejects. -/
theorem rewrite_arbitrary_wp {f : Db → Db}
    {post : Exit DbError Unit → World → Prop} :
    wp Input.Arbitrary (execute fun _ w => some ((), f w.db, [])) post w ↔
      post (.ok ()) { w with db := f w.db } ∧ post (.error .sqlx) w ∧
        post (.error .sqlx) { w with db := f w.db } := by
  refine (wp_atomic _ _ _).trans ⟨fun h => ?_, ?_⟩
  · exact ⟨h ⟨0, ⟨0⟩, .none⟩ trivial, h ⟨0, ⟨0⟩, .lostRequest⟩ trivial,
      h ⟨0, ⟨0⟩, .lostReply⟩ trivial⟩
  · rintro ⟨hok, hbefore, hafter⟩ i -
    cases i.fault with
    | none => exact hok
    | lostRequest => exact hbefore
    | lostReply => exact hafter

/-- Reading in front of the rest of a program. -/
theorem read_arbitrary_wp {f : World → α} {g : DbError → ε} {k : α → Async ε β}
    {post : Exit ε β → World → Prop} :
    wp Input.Arbitrary ((select f).mapError g >>= k) post w ↔
      wp Input.Arbitrary (k (f w)) post w ∧ post (.error (g .sqlx)) w := by
  rw [wp_bind, wp_mapError]
  exact select_arbitrary_wp

/-- A program that only reads. -/
theorem runs_ok_iff {p : Async ε α} {a b : α} {e : ε} {v : World}
    (h : ∀ post, wp Input.Arbitrary p post w ↔
      post (.ok a) w ∧ post (.error e) w) :
    Runs Input.Arbitrary p w (.ok b) v ↔ b = a ∧ v = w := by
  have hreached : ∀ post : Exit ε α → World → Prop,
      wp Input.Arbitrary p post w ↔
      ∀ x v, (x = .ok a ∨ x = .error e) ∧ v = w → post x v := by
    intro post
    rw [h]
    constructor
    · rintro ⟨hok, herror⟩ x v ⟨rfl | rfl, rfl⟩
      · exact hok
      · exact herror
    · exact fun h => ⟨h _ _ ⟨.inl rfl, rfl⟩, h _ _ ⟨.inr rfl, rfl⟩⟩
  rw [runs_iff_of_wp hreached]
  simp

end Rules

end Servcat
