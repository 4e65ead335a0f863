/-
Decimals: the value of a decimal text, and the shortest decimal that a number of
a binary format is the rounding of.
-/
import Servcat.Numeric.Rounding
import Mathlib.Data.Nat.Prime.Basic
import Mathlib.Tactic.GCongr

namespace Numeric

/-- An optional sign, `true` for minus, and the rest. -/
def signed : List Char → Bool × List Char
  | '+' :: rest => (false, rest)
  | '-' :: rest => (true, rest)
  | text => (false, text)

/-- One or more digits. -/
def digitsValue? (text : List Char) : Option ℕ :=
  if text ≠ [] ∧ text.all Char.isDigit then some (Nat.ofDigitChars 10 text 0)
  else none

/-- Digits with at most one point among or beside them. -/
def mantissaValue? (text : List Char) : Option ℚ :=
  let (whole, rest) := text.span fun c => c ≠ '.'
  let fraction := rest.drop 1
  (digitsValue? (whole ++ fraction)).map fun n => n / 10 ^ fraction.length

/-- The exponent after an `e`, zero where there is none. -/
def exponentValue? : List Char → Option ℤ
  | [] => some 0
  | _ :: text =>
      let (negative, digits) := signed text
      (digitsValue? digits).map fun n => if negative then -n else n

/-- The value of a decimal text: sign, digits with a point, exponent. -/
def decimalValue? (text : String) : Option ℚ :=
  let (negative, body) := signed text.toList
  let (mantissa, exponent) := body.span fun c => c ≠ 'e' ∧ c ≠ 'E'
  (mantissaValue? mantissa).bind fun m =>
    (exponentValue? exponent).map fun e => (if negative then -m else m) * 10 ^ e

/-- `digits * 10 ^ exponent`. -/
structure Decimal where
  digits : ℕ
  exponent : ℤ
deriving DecidableEq, Repr

namespace Decimal

def value (d : Decimal) : ℚ :=
  d.digits * 10 ^ d.exponent

/-- How many digits the decimal has before the point. -/
def width (d : Decimal) : ℤ :=
  d.exponent + (Nat.toDigits 10 d.digits).length

theorem value_natCast {d : Decimal} (he : 0 ≤ d.exponent) :
    d.value = ((d.digits * 10 ^ d.exponent.toNat : ℕ) : ℚ) := by
  have hexponent : d.exponent = (d.exponent.toNat : ℤ) :=
    (Int.toNat_of_nonneg he).symm
  unfold value
  conv_lhs => rw [hexponent, zpow_natCast]
  push_cast
  rfl

theorem width_le {d : Decimal} {k : ℕ} (he : 0 ≤ d.exponent)
    (hpos : 0 < d.digits)
    (h : d.digits * 10 ^ d.exponent.toNat < 10 ^ k) : d.width ≤ k := by
  have hexponent : d.exponent.toNat < k := by
    apply (Nat.pow_lt_pow_iff_right (by decide : 1 < 10)).mp
    calc
      10 ^ d.exponent.toNat ≤ d.digits * 10 ^ d.exponent.toNat :=
        Nat.le_mul_of_pos_left _ hpos
      _ < 10 ^ k := h
  have hdigits : d.digits < 10 ^ (k - d.exponent.toNat) := by
    have hsplit : 10 ^ k =
        10 ^ (k - d.exponent.toNat) * 10 ^ d.exponent.toNat := by
      rw [← pow_add]
      congr 1
      omega
    rw [hsplit] at h
    exact Nat.lt_of_mul_lt_mul_right h
  have hlength :=
    (Nat.length_toDigits_le_iff (by decide) (by omega)).mpr hdigits
  unfold width
  omega

/-- With `10 ^ k` written as one digit. -/
def carry (k : ℕ) (d : Decimal) : Decimal :=
  if d.digits = 10 ^ k then ⟨1, d.exponent + k⟩ else d

/-- The nearer one of two decimals around `x`; of two as near, the one whose
last digit is even. -/
def nearer (x : ℚ) (below above : Decimal) : Decimal :=
  if x - below.value < above.value - x then below
  else if above.value - x < x - below.value then above
  else if below.digits % 2 = 0 then below
  else above

end Decimal

namespace Format

variable (F : Format)

/-- The exponent of the last of `k` digits of `x`. -/
def lastPlace (x : ℚ) (k : ℕ) : ℤ :=
  Int.log 10 x + 1 - k

/-- The decimal of `k` digits that rounds to `x`, the nearer one of two. -/
def withDigits (x : ℚ) (k : ℕ) : Option Decimal :=
  let scaled := x / 10 ^ lastPlace x k
  let below : Decimal := ⟨⌊scaled⌋.toNat, lastPlace x k⟩
  let above := Decimal.carry k ⟨⌈scaled⌉.toNat, lastPlace x k⟩
  if F.round below.value = x then
    if F.round above.value = x then some (Decimal.nearer x below above)
    else some below
  else if F.round above.value = x then some above
  else none

/-- So many digits write `x` out: its denominator is a power of two. -/
def digitsNeeded (x : ℚ) : ℕ :=
  (Int.log 10 x + 1 + Nat.log 2 x.den).toNat

/-- The shortest decimal that rounds to `x`, for a positive `x` of
the format. -/
def shortest (x : ℚ) : Decimal :=
  ((List.range' 1 (digitsNeeded x)).findSome? (F.withDigits x)).getD ⟨0, 0⟩

variable {F}

theorem withDigits_spec {x : ℚ} {k : ℕ} {d : Decimal}
    (h : F.withDigits x k = some d) :
    F.round d.value = x ∧ lastPlace x k ≤ d.exponent := by
  have hcarry : ∀ digits : ℕ,
      lastPlace x k ≤ (Decimal.carry k ⟨digits, lastPlace x k⟩).exponent := by
    intro digits
    unfold Decimal.carry
    split <;> simp
  unfold withDigits at h
  dsimp only at h
  split_ifs at h with hbelow habove habove
  · obtain rfl := Option.some.inj h
    unfold Decimal.nearer
    split_ifs
    · exact ⟨hbelow, le_rfl⟩
    · exact ⟨habove, hcarry _⟩
    · exact ⟨hbelow, le_rfl⟩
    · exact ⟨habove, hcarry _⟩
  · obtain rfl := Option.some.inj h
    exact ⟨hbelow, le_rfl⟩
  · obtain rfl := Option.some.inj h
    exact ⟨habove, hcarry _⟩

/-- Where `k` digits write `x` out, they are found. -/
theorem withDigits_isSome {x : ℚ} {k n : ℕ} (hx : F.Holds x)
    (hn : x = n * 10 ^ lastPlace x k) : (F.withDigits x k).isSome = true := by
  have hpos : (10 : ℚ) ^ lastPlace x k ≠ 0 := by positivity
  have hscaled : x / 10 ^ lastPlace x k = n := by
    rw [div_eq_iff hpos]
    exact hn
  have hbelow : F.round (Decimal.value ⟨n, lastPlace x k⟩) = x := by
    unfold Decimal.value
    rw [← hn]
    exact hx.round_eq
  unfold withDigits
  simp only [hscaled, Int.floor_natCast, Int.toNat_natCast, hbelow, ↓reduceIte]
  split_ifs <;> rfl

/-- The search ends no later than at a number of digits that is enough. -/
theorem exists_withDigits_shortest {x : ℚ} {k : ℕ} (hk : 1 ≤ k)
    (hneeded : k ≤ digitsNeeded x) (h : (F.withDigits x k).isSome = true) :
    ∃ k' ≤ k, F.withDigits x k' = some (F.shortest x) := by
  have hmem : k ∈ List.range' 1 k := by
    rw [List.mem_range'_1]
    omega
  have hsome : ((List.range' 1 k).findSome? (F.withDigits x)).isSome = true :=
    List.findSome?_isSome_iff.mpr ⟨k, hmem, h⟩
  obtain ⟨d, hd⟩ := Option.isSome_iff_exists.mp hsome
  have hstart : List.range' 1 k <+: List.range' 1 (digitsNeeded x) := by
    refine ⟨List.range' (1 + k) (digitsNeeded x - k), ?_⟩
    rw [List.range'_append_1]
    congr 1
    omega
  obtain ⟨k', hk', hfound⟩ := List.exists_of_findSome?_eq_some hd
  have hshortest : F.shortest x = d := by
    unfold shortest
    rw [hstart.findSome?_eq_some hd]
    rfl
  refine ⟨k', ?_, ?_⟩
  · rw [List.mem_range'_1] at hk'
    omega
  · rw [hshortest]
    exact hfound

theorem exists_den_eq_two_pow {x : ℚ}
    (hx : F.Holds x) : ∃ j, x.den = 2 ^ j := by
  obtain ⟨m, e, -, -, hx⟩ := hx
  have hscale : x = Rat.divInt (m * 2 ^ e.toNat) (2 ^ (-e).toNat) := by
    rw [Rat.divInt_eq_div, hx]
    push_cast
    rw [eq_div_iff (by positivity), mul_assoc, ← zpow_natCast, ← zpow_natCast,
      ← zpow_add₀ two_ne_zero]
    congr 2
    omega
  have hdvd : x.den ∣ 2 ^ (-e).toNat := by
    have h := Rat.den_dvd (m * 2 ^ e.toNat) (2 ^ (-e).toNat)
    rw [← hscale] at h
    exact_mod_cast h
  obtain ⟨j, -, hj⟩ := (Nat.dvd_prime_pow Nat.prime_two).mp hdvd
  exact ⟨j, hj⟩

/-- With the digits needed a positive number of the format is written out. -/
theorem digitsNeeded_spec {x : ℚ} (hx : F.Holds x) (hpos : 0 < x) :
    1 ≤ digitsNeeded x ∧ ∃ n :
      ℕ, x = n * 10 ^ lastPlace x (digitsNeeded x) := by
  obtain ⟨j, hj⟩ := exists_den_eq_two_pow hx
  have hnum : (1 : ℚ) ≤ x.num := by
    exact_mod_cast Rat.num_pos.mpr hpos
  have hfraction : x = x.num / 2 ^ j := by
    conv_lhs => rw [← Rat.num_div_den x, hj]
    push_cast
    rfl
  have hlog : -(j : ℤ) ≤ Int.log 10 x := by
    apply (Int.zpow_le_iff_le_log (by norm_num) hpos).mp
    calc
      ((10 : ℕ) : ℚ) ^ (-(j : ℤ)) = 1 / 10 ^ j := by simp
      _ ≤ 1 / 2 ^ j := by gcongr; norm_num
      _ ≤ x.num / 2 ^ j := by gcongr
      _ = x := hfraction.symm
  have hneeded : (digitsNeeded x : ℤ) = Int.log 10 x + 1 + j := by
    unfold digitsNeeded
    rw [hj, Nat.log_pow one_lt_two]
    omega
  have hlast : lastPlace x (digitsNeeded x) = -j := by
    unfold lastPlace
    omega
  refine ⟨by omega, x.num.toNat * 5 ^ j, ?_⟩
  have hten : (10 : ℚ) ^ j = 2 ^ j * 5 ^ j := by
    rw [← mul_pow]
    norm_num
  have hcast : ((x.num.toNat : ℕ) : ℚ) = x.num := by
    exact_mod_cast Int.toNat_of_nonneg (Rat.num_pos.mpr hpos).le
  rw [hlast, zpow_neg, zpow_natCast, hten]
  push_cast
  rw [hcast]
  conv_lhs => rw [hfraction]
  field_simp

theorem digitsNeeded_natCast (n : ℕ) :
    1 ≤ (Int.log 10 (n : ℚ) + 1).toNat ∧
      (Int.log 10 (n : ℚ) + 1).toNat ≤ digitsNeeded (n : ℚ) ∧
      lastPlace (n : ℚ) (Int.log 10 (n : ℚ) + 1).toNat = 0 := by
  have hlog : 0 ≤ Int.log 10 (n : ℚ) := by
    rw [Int.log_natCast]
    positivity
  unfold digitsNeeded lastPlace
  omega

/-- The shortest decimal reads back as the number it was found for. -/
theorem round_shortest {x : ℚ} (hx : F.Holds x) (hpos : 0 < x) :
    F.round (F.shortest x).value = x := by
  obtain ⟨hneeded, n, hn⟩ := digitsNeeded_spec hx hpos
  obtain ⟨k, -, hk⟩ :=
    exists_withDigits_shortest hneeded le_rfl (withDigits_isSome hx hn)
  exact (withDigits_spec hk).1

/-- The shortest decimal of an integer is an integer. -/
theorem shortest_exponent_nonneg {n : ℕ} (hx : F.Holds (n : ℚ)) :
    0 ≤ (F.shortest (n : ℚ)).exponent := by
  obtain ⟨hone, hneeded, hlast⟩ := digitsNeeded_natCast n
  have hfound :=
    withDigits_isSome (k := (Int.log 10 (n : ℚ) + 1).toNat) (n := n) hx
      (by rw [hlast]; simp)
  obtain ⟨k, hk, hshortest⟩ := exists_withDigits_shortest hone hneeded hfound
  have hexponent := (withDigits_spec hshortest).2
  have hmono : lastPlace (n : ℚ) (Int.log 10 (n : ℚ) + 1).toNat ≤
      lastPlace (n : ℚ) k := by
    unfold lastPlace
    omega
  omega

end Format

end Numeric
