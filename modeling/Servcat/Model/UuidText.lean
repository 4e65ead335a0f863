/-
The text of an identifier.
-/
import Servcat.Model.Workflow
import Mathlib.Data.Nat.Basic

namespace Servcat

namespace Uuid

/-- Some of the digits of an identifier. -/
def hexDigits (id : Uuid) (start len : ℕ) : List Char :=
  (List.range len).map fun i =>
    Nat.digitChar (id.bits.toNat / 16 ^ (31 - (start + i)) % 16)

theorem toList_toString (id : Uuid) :
    id.toString.toList = hexDigits id 0 8 ++ '-' :: (hexDigits id 8 4 ++ '-' ::
      (hexDigits id 12 4 ++ '-' ::
        (hexDigits id 16 4 ++ '-' :: hexDigits id 20 12))) := by
  rw [toString, String.toList_intercalate]
  simp [hexDigits, List.intercalate_cons_cons]

theorem length_hexDigits (id : Uuid) (start len : ℕ) :
    (hexDigits id start len).length = len := by
  simp [hexDigits]

theorem length_toString (id : Uuid) : id.toString.toList.length = 36 := by
  rw [toList_toString]
  simp [length_hexDigits]

theorem slash_notMem (id : Uuid) : '/' ∉ id.toString.toList := by
  have hdigit (n : ℕ) : Nat.digitChar (n % 16) ≠ '/' := by
    have hdigits : ∀ d < 16, Nat.digitChar d ≠ '/' := by decide
    exact hdigits _ (Nat.mod_lt n (by decide))
  rw [toString, String.toList_intercalate]
  simp [hdigit, eq_comm]

theorem digit_of_hexDigits {id id' : Uuid} {start len : ℕ}
    (h : hexDigits id start len = hexDigits id' start len) {k : ℕ}
    (hstart : start ≤ k) (hlen : k < start + len) :
    id.bits.toNat / 16 ^ (31 - k) % 16 =
      id'.bits.toNat / 16 ^ (31 - k) % 16 := by
  have hinj : ∀ d < 16, ∀ d' < 16, Nat.digitChar d = Nat.digitChar d' →
      d = d' := by decide
  obtain ⟨i, rfl⟩ := Nat.exists_eq_add_of_le hstart
  have hi : i ∈ List.range len := List.mem_range.mpr (by omega)
  exact hinj _ (Nat.mod_lt _ (by decide)) _ (Nat.mod_lt _ (by decide))
    (List.map_inj_left.mp h i hi)

/-- The text shows every digit. -/
theorem digit_of_toString {id id' : Uuid} (h : id.toString = id'.toString)
    {k : ℕ} (hk : k < 32) :
    id.bits.toNat / 16 ^ k % 16 = id'.bits.toNat / 16 ^ k % 16 := by
  have hlist := congrArg String.toList h
  rw [toList_toString, toList_toString] at hlist
  have hlength (start len : ℕ) :
      (hexDigits id start len).length = (hexDigits id' start len).length := by
    rw [length_hexDigits, length_hexDigits]
  obtain ⟨h0, hlist⟩ := List.append_inj hlist (hlength 0 8)
  obtain ⟨h8, hlist⟩ := List.append_inj (List.cons.inj hlist).2 (hlength 8 4)
  obtain ⟨h12, hlist⟩ := List.append_inj (List.cons.inj hlist).2 (hlength 12 4)
  obtain ⟨h16, hlist⟩ := List.append_inj (List.cons.inj hlist).2 (hlength 16 4)
  have h20 := (List.cons.inj hlist).2
  have hplace : 31 - (31 - k) = k := by omega
  rw [← hplace]
  rcases Nat.lt_or_ge (31 - k) 8 with hlt | hge
  · exact digit_of_hexDigits h0 (Nat.zero_le _) hlt
  rcases Nat.lt_or_ge (31 - k) 12 with hlt | hge
  · exact digit_of_hexDigits h8 hge hlt
  rcases Nat.lt_or_ge (31 - k) 16 with hlt | hge
  · exact digit_of_hexDigits h12 hge hlt
  rcases Nat.lt_or_ge (31 - k) 20 with hlt | hge
  · exact digit_of_hexDigits h16 hge hlt
  · exact digit_of_hexDigits h20 hge (by omega)

theorem toString_inj {id id' : Uuid}
    (h : id.toString = id'.toString) : id = id' := by
  have hmod : ∀ k ≤ 32, id.bits.toNat % 16 ^ k = id'.bits.toNat % 16 ^ k := by
    intro k hk
    induction k with
    | zero => rw [Nat.pow_zero, Nat.mod_one, Nat.mod_one]
    | succ k ih => rw [Nat.mod_pow_succ, Nat.mod_pow_succ, ih (by omega),
      digit_of_toString h (by omega)]
  have heq := hmod 32 (Nat.le_refl _)
  have hlt (id : Uuid) : id.bits.toNat < 16 ^ 32 := id.bits.isLt
  rw [Nat.mod_eq_of_lt (hlt id), Nat.mod_eq_of_lt (hlt id')] at heq
  cases id
  cases id'
  exact congrArg Uuid.mk (BitVec.eq_of_toNat_eq heq)

end Uuid

end Servcat
