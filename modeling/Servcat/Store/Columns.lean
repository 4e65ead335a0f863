/-
What a column keeps of a text.  A column has a size, of which each character
takes up some; blanks in excess are cut off, and a text that would lose anything
else is refused.
-/
import Mathlib.Data.List.Basic

namespace Servcat

def fitted (width : Char → Nat) : Nat → List Char → Option (List Char)
  | _, [] => some []
  | size, c :: rest =>
      if width c ≤ size then (fitted width (size - width c) rest).map (c :: ·)
      else if (c :: rest).all (· == ' ') then some []
      else none

/-- `VARCHAR(size)` counts characters. -/
def varchar (size : Nat) (text : String) : Option String :=
  (fitted (fun _ => 1) size text.toList).map String.ofList

/-- `TEXT` counts bytes. -/
def textColumn (text : String) : Option String :=
  (fitted Char.utf8Size 65535 text.toList).map String.ofList

theorem fitted_one_isSome_iff (size : Nat) (chars : List Char) :
    (fitted (fun _ => 1) size chars).isSome ↔
      ∀ c ∈ chars.drop size, c = ' ' := by
  induction chars generalizing size with
  | nil => simp [fitted]
  | cons c rest ih =>
      cases size with
      | zero => simp [fitted]
      | succ size => simp [fitted, ih]

/-- Only what is beyond the size of the column matters. -/
theorem varchar_isSome_iff (size : Nat) (text : String) :
    (varchar size text).isSome ↔ ∀ c ∈ text.toList.drop size, c = ' ' := by
  rw [varchar, Option.isSome_map]
  exact fitted_one_isSome_iff size text.toList

end Servcat
