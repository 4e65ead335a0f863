/-
Rounding of rational numbers to a binary floating-point format, to nearest and
ties to even.  Overflow is the business of the user of a format.
-/
import Mathlib.Data.Int.Log
import Mathlib.Data.Rat.Floor
import Mathlib.Algebra.Order.Field.Power
import Mathlib.Tactic.Linarith
import Mathlib.Tactic.FieldSimp
import Mathlib.Tactic.Positivity

namespace Numeric

/-- The nearest integer; of two, the even one. -/
def roundEven (q : ℚ) : ℤ :=
  if q - ⌊q⌋ < 1 / 2 then ⌊q⌋
  else if 1 / 2 < q - ⌊q⌋ then ⌊q⌋ + 1
  else if ⌊q⌋ % 2 = 0 then ⌊q⌋
  else ⌊q⌋ + 1

@[simp] theorem roundEven_intCast (n : ℤ) : roundEven n = n := by
  simp [roundEven]

theorem floor_le_roundEven (q : ℚ) : ⌊q⌋ ≤ roundEven q := by
  unfold roundEven
  split_ifs <;> omega

theorem roundEven_le_floor_succ (q : ℚ) : roundEven q ≤ ⌊q⌋ + 1 := by
  unfold roundEven
  split_ifs <;> omega

theorem roundEven_mono {p q : ℚ} (h : p ≤ q) : roundEven p ≤ roundEven q := by
  have hfloor : ⌊p⌋ ≤ ⌊q⌋ := Int.floor_le_floor h
  rcases hfloor.lt_or_eq with hlt | heq
  · calc
      roundEven p ≤ ⌊p⌋ + 1 := roundEven_le_floor_succ p
      _ ≤ ⌊q⌋ := hlt
      _ ≤ roundEven q := floor_le_roundEven q
  · unfold roundEven
    rw [heq]
    split_ifs <;> first | omega | linarith

theorem le_roundEven {n : ℤ} {q : ℚ} (h : (n : ℚ) ≤ q) : n ≤ roundEven q := by
  have hmono := roundEven_mono h
  rwa [roundEven_intCast] at hmono

theorem roundEven_le {n : ℤ} {q : ℚ} (h : q ≤ n) : roundEven q ≤ n := by
  have hmono := roundEven_mono h
  rwa [roundEven_intCast] at hmono

theorem roundEven_neg (q : ℚ) : roundEven (-q) = -roundEven q := by
  by_cases hint : (⌊q⌋ : ℚ) = q
  · rw [← hint, roundEven_intCast, ← Int.cast_neg, roundEven_intCast]
  · have hlow : (⌊q⌋ : ℚ) < q := lt_of_le_of_ne (Int.floor_le q) hint
    have hhigh : q < ⌊q⌋ + 1 := Int.lt_floor_add_one q
    have hfloor : ⌊-q⌋ = -⌊q⌋ - 1 := by
      rw [Int.floor_eq_iff]
      push_cast
      constructor <;> linarith
    unfold roundEven
    rw [hfloor]
    push_cast
    split_ifs <;> first | omega | linarith

/-- A binary format by the bits of its significands and its least exponent. -/
structure Format where
  precision : ℕ
  minExponent : ℤ

namespace Format

variable (F : Format)

/-- The numbers of the format, were its exponents not bounded above. -/
def Holds (x : ℚ) : Prop :=
  ∃ m e : ℤ, |m| < 2 ^ F.precision ∧ F.minExponent ≤ e ∧ x = m * 2 ^ e

/-- The exponent of the last place of the numbers around `q`. -/
def unit (q : ℚ) : ℤ :=
  max (Int.log 2 |q| + 1 - F.precision) F.minExponent

def round (q : ℚ) : ℚ :=
  roundEven (q / 2 ^ F.unit q) * 2 ^ F.unit q

variable {F}

@[simp] theorem round_zero : F.round 0 = 0 := by
  simp [round, roundEven]

theorem unit_neg (q : ℚ) : F.unit (-q) = F.unit q := by
  rw [unit, unit, abs_neg]

theorem round_neg (q : ℚ) : F.round (-q) = -F.round q := by
  rw [round, round, unit_neg, neg_div, roundEven_neg, Int.cast_neg, neg_mul]
theorem Holds.neg {x : ℚ} (h : F.Holds x) : F.Holds (-x) := by
  obtain ⟨m, e, hm, he, rfl⟩ := h
  refine ⟨-m, e, ?_, he, ?_⟩
  · rwa [abs_neg]
  · push_cast
    ring

theorem holds_intCast {n : ℤ} (hn : |n| < 2 ^ F.precision)
    (he : F.minExponent ≤ 0) : F.Holds n :=
  ⟨n, 0, hn, he, by simp⟩

theorem zpow_eq_intCast_mul {e u : ℤ} (h : u ≤ e) :
    ∃ n : ℤ, (2 : ℚ) ^ e = n * 2 ^ u := by
  obtain ⟨k, hk⟩ := Int.le.dest h
  refine ⟨2 ^ k, ?_⟩
  rw [← hk, add_comm, zpow_add₀ two_ne_zero, zpow_natCast]
  push_cast
  rfl

/-- A number on the grid of the last places around it is not changed. -/
theorem round_eq_self {x : ℚ} {m e : ℤ} (hx : x = m * 2 ^ e)
    (he : F.unit x ≤ e) : F.round x = x := by
  obtain ⟨n, hn⟩ := zpow_eq_intCast_mul he
  have hgrid : x / 2 ^ F.unit x = ((m * n : ℤ) : ℚ) := by
    rw [div_eq_iff (by positivity), Int.cast_mul, mul_assoc, ← hn, ← hx]
  unfold round
  rw [hgrid, roundEven_intCast, ← hgrid]
  field_simp

theorem unit_le {x : ℚ} {m e : ℤ} (hx : x = m * 2 ^ e) (hne : x ≠ 0)
    (hm : |m| < 2 ^ F.precision) (he : F.minExponent ≤ e) : F.unit x ≤ e := by
  have hbound : |x| < ((2 : ℕ) : ℚ) ^ ((F.precision : ℤ) + e) := by
    rw [hx, abs_mul, abs_of_pos (by positivity : (0 : ℚ) < 2 ^ e),
      Nat.cast_ofNat, zpow_add₀ two_ne_zero, zpow_natCast]
    apply mul_lt_mul_of_pos_right _ (by positivity)
    exact_mod_cast hm
  have hlog := (Int.lt_zpow_iff_log_lt one_lt_two (abs_pos.mpr hne)).mp hbound
  unfold unit
  omega

theorem Holds.round_eq {x : ℚ} (h : F.Holds x) : F.round x = x := by
  obtain ⟨m, e, hm, he, hx⟩ := h
  by_cases hne : x = 0
  · simp [hne]
  · exact round_eq_self hx (unit_le hx hne hm he)

theorem abs_lt_zpow (x : ℚ) : |x| < 2 ^ (F.precision + F.unit x) := by
  have hlog : |x| < ((2 : ℕ) : ℚ) ^ (Int.log 2 |x| + 1) :=
    Int.lt_zpow_succ_log_self one_lt_two |x|
  have hle : Int.log 2 |x| + 1 ≤ F.precision + F.unit x := by
    unfold unit
    omega
  exact hlog.trans_le (zpow_le_zpow_right₀ one_le_two hle)

/-- Rounding ends in the format: a carry out of the significand is a power of
two, which the next exponent holds. -/
theorem holds_round (hF : 0 < F.precision) (x : ℚ) : F.Holds (F.round x) := by
  have hpos : (0 : ℚ) < 2 ^ F.unit x := by positivity
  have hscaled : |x / 2 ^ F.unit x| < ((2 ^ F.precision : ℤ) : ℚ) := by
    rw [abs_div, abs_of_pos hpos, div_lt_iff₀ hpos]
    have hbound := F.abs_lt_zpow x
    rw [zpow_add₀ two_ne_zero, zpow_natCast] at hbound
    exact_mod_cast hbound
  obtain ⟨hlow, hhigh⟩ := abs_lt.mp hscaled
  have hle : roundEven (x / 2 ^ F.unit x) ≤ 2 ^ F.precision :=
    roundEven_le hhigh.le
  have hge : -2 ^ F.precision ≤ roundEven (x / 2 ^ F.unit x) := by
    apply le_roundEven
    push_cast at hlow ⊢
    exact hlow.le
  have hmin : F.minExponent ≤ F.unit x := le_max_right _ _
  have hcarry : (2 : ℤ) ^ F.precision = 2 ^ (F.precision - 1) * 2 := by
    rw [← pow_succ, Nat.sub_add_cancel hF]
  have hsmall : |(2 : ℤ) ^ (F.precision - 1)| < 2 ^ F.precision := by
    rw [abs_of_pos (by positivity)]
    exact pow_lt_pow_right₀ one_lt_two (by omega)
  unfold round
  rcases hle.lt_or_eq with hlt | heq
  · rcases hge.lt_or_eq with hgt | heq
    · exact ⟨_, F.unit x, abs_lt.mpr ⟨hgt, hlt⟩, hmin, rfl⟩
    · refine ⟨-2 ^ (F.precision - 1), F.unit x + 1, ?_, by omega, ?_⟩
      · rwa [abs_neg]
      · rw [← heq, hcarry, zpow_add_one₀ two_ne_zero]
        push_cast
        ring
  · refine ⟨2 ^ (F.precision - 1), F.unit x + 1, hsmall, by omega, ?_⟩
    rw [heq, hcarry, zpow_add_one₀ two_ne_zero]
    push_cast
    ring

theorem round_nonneg {x : ℚ} (h : 0 ≤ x) : 0 ≤ F.round x := by
  have hround : 0 ≤ roundEven (x / 2 ^ F.unit x) := by
    apply le_roundEven
    push_cast
    positivity
  unfold round
  exact mul_nonneg (by exact_mod_cast hround) (by positivity)

theorem unit_mono {x y : ℚ} (hx : 0 < x) (h : x ≤ y) : F.unit x ≤ F.unit y := by
  have hlog : Int.log 2 |x| ≤ Int.log 2 |y| := by
    rw [abs_of_pos hx, abs_of_pos (hx.trans_le h)]
    exact Int.log_mono_right hx h
  unfold unit
  omega

/-- A power of two is on every grid around it, so rounding does not cross it. -/
theorem round_le_zpow {x : ℚ} {k : ℤ} (hk : F.unit x ≤ k) (h : x ≤ 2 ^ k) :
    F.round x ≤ 2 ^ k := by
  obtain ⟨n, hn⟩ := zpow_eq_intCast_mul hk
  have hpos : (0 : ℚ) < 2 ^ F.unit x := by positivity
  have hround : roundEven (x / 2 ^ F.unit x) ≤ n := by
    apply roundEven_le
    rw [div_le_iff₀ hpos, ← hn]
    exact h
  unfold round
  rw [hn]
  apply mul_le_mul_of_nonneg_right _ hpos.le
  exact_mod_cast hround

theorem zpow_le_round {x : ℚ} {k : ℤ} (hk : F.unit x ≤ k) (h : 2 ^ k ≤ x) :
    2 ^ k ≤ F.round x := by
  obtain ⟨n, hn⟩ := zpow_eq_intCast_mul hk
  have hpos : (0 : ℚ) < 2 ^ F.unit x := by positivity
  have hround : n ≤ roundEven (x / 2 ^ F.unit x) := by
    apply le_roundEven
    rw [le_div_iff₀ hpos, ← hn]
    exact h
  unfold round
  rw [hn]
  apply mul_le_mul_of_nonneg_right _ hpos.le
  exact_mod_cast hround

/-- Rounding keeps the order: on one grid because it does so for integers, and
across grids because a power of two lies between. -/
theorem round_mono {x y : ℚ} (hF : 0 < F.precision) (hx : 0 ≤ x) (h : x ≤ y) :
    F.round x ≤ F.round y := by
  rcases hx.eq_or_lt with rfl | hx
  · rw [round_zero]
    exact round_nonneg h
  · have hunits : F.unit x ≤ F.unit y := unit_mono hx h
    rcases hunits.lt_or_eq with hlt | heq
    · have hy : 0 < y := hx.trans_le h
      have hlog : Int.log 2 |x| + 1 ≤ Int.log 2 |y| := by
        unfold unit at hlt
        omega
      have hunit : F.unit y ≤ Int.log 2 |y| := by
        unfold unit at hlt ⊢
        omega
      have hbelow : x ≤ 2 ^ Int.log 2 |y| := by
        have hlt := Int.lt_zpow_succ_log_self (b := 2) one_lt_two |x|
        rw [Nat.cast_ofNat, abs_of_pos hx] at hlt
        rw [abs_of_pos hx] at hlog
        exact (hlt.trans_le (zpow_le_zpow_right₀ one_le_two hlog)).le
      have habove : (2 : ℚ) ^ Int.log 2 |y| ≤ y := by
        have hle :=
          Int.zpow_log_le_self (b := 2) one_lt_two (abs_pos.mpr hy.ne')
        rw [Nat.cast_ofNat] at hle
        exact hle.trans_eq (abs_of_pos hy)
      exact (round_le_zpow (hlt.le.trans hunit) hbelow).trans
        (zpow_le_round hunit habove)
    · unfold round
      rw [heq]
      apply mul_le_mul_of_nonneg_right _ (by positivity)
      have hmono : roundEven (x / 2 ^ F.unit y) ≤
          roundEven (y / 2 ^ F.unit y) := by
        apply roundEven_mono
        exact div_le_div_of_nonneg_right h (by positivity)
      exact_mod_cast hmono

theorem lt_of_round_lt {x b : ℚ} (hF : 0 < F.precision) (hb : F.Holds b)
    (hpos : 0 ≤ b) (h : F.round x < b) : x < b := by
  by_contra hle
  have hmono := round_mono hF hpos (not_lt.mp hle)
  rw [hb.round_eq] at hmono
  exact absurd h (not_lt.mpr hmono)

theorem lt_of_lt_round {x b : ℚ} (hF : 0 < F.precision) (hb : F.Holds b)
    (hpos : 0 ≤ x) (h : b < F.round x) : b < x := by
  by_contra hle
  have hmono := round_mono hF hpos (not_lt.mp hle)
  rw [hb.round_eq] at hmono
  exact absurd h (not_lt.mpr hmono)

/-- The numbers of the format that are no integers are smaller than the bound of
its significands. -/
theorem Holds.lt_of_den_ne_one {x : ℚ} (h : F.Holds x) (hden : x.den ≠ 1) :
    |x| < 2 ^ F.precision := by
  obtain ⟨m, e, hm, -, rfl⟩ := h
  have he : e < 0 := by
    by_contra hle
    obtain ⟨k, rfl⟩ := Int.eq_ofNat_of_zero_le (not_lt.mp hle)
    apply hden
    have hint : (m : ℚ) * 2 ^ ((k : ℕ) : ℤ) = ((m * 2 ^ k : ℤ) : ℚ) := by
      push_cast
      rw [zpow_natCast]
    rw [hint]
    exact Rat.den_intCast _
  have hle : (2 : ℚ) ^ e ≤ 1 := zpow_le_one_of_nonpos₀ one_le_two he.le
  calc
    |(m : ℚ) * 2 ^ e| = |(m : ℚ)| * 2 ^ e := by
      rw [abs_mul, abs_of_pos (by positivity : (0 : ℚ) < 2 ^ e)]
    _ ≤ |(m : ℚ)| * 1 := by gcongr
    _ < 2 ^ F.precision := by
      rw [mul_one]
      exact_mod_cast hm

end Format

end Numeric
