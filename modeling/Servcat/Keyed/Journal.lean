/-
A log whose entries bear the number of whoever wrote them, read
writer by writer.
-/
import Mathlib.Algebra.BigOperators.Group.Finset.Basic
import Mathlib.Algebra.BigOperators.Group.Finset.Piecewise
import Mathlib.Algebra.Order.BigOperators.Group.Finset
import Mathlib.Data.Finset.Range

namespace Keyed

variable {α : Type}

/-- Oldest entry first. -/
abbrev Journal (α : Type) := List (Nat × α)

namespace Journal

/-- What writer `n` has written. -/
def own (n : Nat) (log : Journal α) : List α :=
  (log.filter fun e => e.1 == n).map Prod.snd

theorem own_append_self (n : Nat) (log : Journal α) (a : α) :
    own n (log ++ [(n, a)]) = own n log ++ [a] := by
  simp [own]

theorem own_append_other {m n : Nat} (h : m ≠ n) (log : Journal α) (a : α) :
    own m (log ++ [(n, a)]) = own m log := by
  simp [own, Ne.symm h]

theorem mem_own {n : Nat} {log : Journal α} {a : α} :
    a ∈ own n log ↔ (n, a) ∈ log := by
  simp [own]

/-- Entries are counted writer by writer. -/
theorem countP_eq_sum_own (p : α → Bool) {log : Journal α} {k : Nat}
    (h : ∀ e ∈ log, e.1 < k) :
    log.countP (fun e => p e.2) =
      ∑ n ∈ Finset.range k, (own n log).countP p := by
  induction log with
  | nil => simp [own]
  | cons e rest ih =>
      have hown : ∀ n, (own n (e :: rest)).countP p =
          (own n rest).countP p +
            if e.1 = n then (if p e.2 then 1 else 0) else 0 := by
        intro n
        by_cases hn : e.1 = n
        · simp [own, hn, List.countP_cons]
        · simp [own, hn]
      have he : e.1 ∈ Finset.range k :=
        Finset.mem_range.mpr (h e List.mem_cons_self)
      rw [List.countP_cons, ih fun e he => h e (List.mem_cons_of_mem _ he),
        Finset.sum_congr rfl fun n _ => hown n, Finset.sum_add_distrib,
        Finset.sum_ite_eq, if_pos he]

/-- What no writer has done more often was not done more often. -/
theorem countP_le_countP {p q : α → Bool} {log : Journal α} {k : Nat}
    (h : ∀ e ∈ log, e.1 < k)
    (hle : ∀ n < k, (own n log).countP p ≤ (own n log).countP q) :
    log.countP (fun e => p e.2) ≤ log.countP fun e => q e.2 := by
  rw [countP_eq_sum_own p h, countP_eq_sum_own q h]
  exact Finset.sum_le_sum fun n hn => hle n (Finset.mem_range.mp hn)

end Journal

end Keyed
