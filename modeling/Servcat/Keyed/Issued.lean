/-
Keys that a counter has handed out: how a collection of them stays free of
duplicates.
-/
import Mathlib.Data.List.Nodup
import Mathlib.Data.List.Perm.Subperm
import Mathlib.Data.List.Range

namespace Keyed

variable {κ : Type} {name : Nat → κ} {counter : Nat} {keys : List κ}

/-- Names made of a label and the counter in decimal digits. -/
theorem append_toString_injective (label : String) :
    Function.Injective fun k : ℕ => label ++ toString k := by
  intro k l h
  have hdigits : Nat.toDigits 10 k = Nat.toDigits 10 l := by
    simpa [Nat.repr, String.ext_iff] using h
  rw [← Nat.ofDigitChars_ten_toDigits (n := k), hdigits,
    Nat.ofDigitChars_ten_toDigits]

/-- The keys are distinct, and the counter has reached all of them. -/
structure Issued (name : Nat → κ) (counter : Nat) (keys : List κ) : Prop where
  nodup : keys.Nodup
  reached : ∀ key ∈ keys, ∃ k ≤ counter, key = name k

namespace Issued

/-- Keys may be dropped and put into another order. -/
theorem subperm {keys' : List κ} (h : Issued name counter keys)
    (hkeys : keys'.Subperm keys) : Issued name counter keys' where
  nodup := by
    obtain ⟨l, hperm, hsub⟩ := hkeys
    exact hperm.nodup_iff.mp (hsub.nodup h.nodup)
  reached key hkey := h.reached key (hkeys.subset hkey)

/-- The next key is not among those that were handed out. -/
theorem fresh (hname : Function.Injective name) (h : Issued name counter keys) :
    name (counter + 1) ∉ keys := by
  intro hmem
  obtain ⟨k, hk, heq⟩ := h.reached _ hmem
  have hsucc := hname heq
  omega

theorem issue (hname : Function.Injective name) (h : Issued name counter keys) :
    Issued name (counter + 1) (keys ++ [name (counter + 1)]) where
  nodup := by
    rw [List.nodup_append]
    refine ⟨h.nodup, List.nodup_singleton _, ?_⟩
    rintro key hkey _ hlast rfl
    rw [List.mem_singleton.mp hlast] at hkey
    exact h.fresh hname hkey
  reached key hkey := by
    rcases List.mem_append.mp hkey with hkey | hlast
    · obtain ⟨k, hk, rfl⟩ := h.reached key hkey
      exact ⟨k, Nat.le_succ_of_le hk, rfl⟩
    · exact ⟨counter + 1, le_rfl, List.mem_singleton.mp hlast⟩

/-- All keys that a new counter has handed out. -/
theorem first (hname : Function.Injective name) (n : Nat) :
    Issued name n ((List.range' 1 n).map name) where
  nodup := List.Nodup.map hname List.nodup_range'
  reached key hkey := by
    obtain ⟨k, hk, rfl⟩ := List.mem_map.mp hkey
    have hle := (List.mem_range'_1.mp hk).2
    exact ⟨k, by omega, rfl⟩

/-- The counter may start anew from a number that no key is beyond. -/
theorem restart {counter' : Nat} (h : Issued name counter keys)
    (hle : ∀ k, name k ∈ keys → k ≤ counter') : Issued name counter' keys where
  nodup := h.nodup
  reached key hkey := by
    obtain ⟨k, -, rfl⟩ := h.reached key hkey
    exact ⟨k, hle k hkey, rfl⟩

end Issued

/-- A counter behind a key hands it out again. -/
theorem not_nodup_of_lt {k : Nat} (hkey : name k ∈ keys) (hlt : counter < k) :
    ¬(keys ++ (List.range' (counter + 1) (k - counter)).map name).Nodup := by
  intro h
  have hagain : name k ∈ (List.range' (counter + 1) (k - counter)).map name :=
    List.mem_map_of_mem (List.mem_range'_1.mpr ⟨hlt, by omega⟩)
  exact (List.nodup_append.mp h).2.2 _ hkey _ hagain rfl

end Keyed
