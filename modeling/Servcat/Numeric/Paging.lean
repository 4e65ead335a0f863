/-
Arithmetic on 64-bit integers that panics or wraps where the result does not
fit, and the pages of a list.
-/
import Servcat.Atomic.Program
import Mathlib.Algebra.Order.Floor.Div
import Mathlib.GroupTheory.GroupAction.Ring

namespace Atomic.Exit

variable {ε α β : Type}

/-- Go on after a value. -/
def andThen : Exit ε α → (α → Exit ε β) → Exit ε β
  | ok a, f => f a
  | error e, _ => error e
  | panicked, _ => panicked

instance : Monad (Exit ε) where
  pure := ok
  bind := andThen

@[simp] theorem ok_bind (a : α) (f : α → Exit ε β) : ok a >>= f = f a :=
  rfl

@[simp] theorem error_bind (e : ε)
    (f : α → Exit ε β) : error e >>= f = error e :=
  rfl

@[simp] theorem panicked_bind (f : α → Exit ε β) : panicked >>= f = panicked :=
  rfl

@[simp] theorem pure_eq_ok (a : α) : (pure a : Exit ε α) = ok a :=
  rfl

end Atomic.Exit

open Atomic

namespace Numeric

/-- Whether a build checks its arithmetic for overflow. -/
inductive Build where
  | checked
  | wrapping
deriving DecidableEq, Repr

/-- The integers of the type `i64`. -/
def I64 (n : Int) : Prop :=
  -2 ^ 63 ≤ n ∧ n < 2 ^ 63

instance (n : Int) : Decidable (I64 n) :=
  inferInstanceAs (Decidable (_ ∧ _))

/-- An operation on `i64` whose exact result is `n`. -/
def Build.i64 {ε : Type} (build : Build) (n : Int) : Exit ε Int :=
  if I64 n then .ok n
  else
    match build with
    | .checked => .panicked
    | .wrapping => .ok (n.bmod (2 ^ 64))

theorem Build.i64_of_fits {ε : Type} (build : Build) {n : Int} (h : I64 n) :
    (build.i64 n : Exit ε Int) = .ok n :=
  if_pos h

theorem Build.i64_checked {ε : Type} {n : Int} (h : ¬ I64 n) :
    (Build.checked.i64 n : Exit ε Int) = .panicked :=
  if_neg h

section Pages

variable {α : Type} (l : List α) (size : ℕ)

/-- The page with this number, counting from zero. -/
def page (k : ℕ) : List α :=
  (l.drop (k * size)).take size

theorem pages_append (n : ℕ) :
    (List.range n).flatMap (page l size) = l.take (n * size) := by
  induction n with
  | zero => simp
  | succ n ih =>
      rw [List.range_succ, List.flatMap_append, ih, Nat.succ_mul, List.take_add]
      simp [page]

/-- The pages up to the rounded-up number of them are the whole
list, in order. -/
theorem pages_eq (hsize : 0 < size) :
    (List.range (l.length ⌈/⌉ size)).flatMap (page l size) = l := by
  rw [pages_append, List.take_of_length_le]
  rw [Nat.mul_comm]
  exact le_smul_ceilDiv hsize

theorem page_eq_nil_iff (hsize : 0 < size) (k : ℕ) :
    page l size k = [] ↔ l.length ⌈/⌉ size ≤ k := by
  rw [ceilDiv_le_iff_le_smul hsize, smul_eq_mul, Nat.mul_comm, page,
    List.take_eq_nil_iff, List.drop_eq_nil_iff]
  exact or_iff_right hsize.ne'

end Pages

end Numeric
