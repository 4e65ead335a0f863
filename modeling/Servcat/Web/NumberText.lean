/-
The text that the script makes of a number, read by the script again.
-/
import Servcat.Web.NumberBranches
import Mathlib.Data.List.TakeWhile

namespace Servcat

open Numeric

theorem span_of_forall {p : Char → Bool} {text : List Char}
    (h : ∀ c ∈ text, p c = true) : text.span p = (text, []) := by
  rw [List.span_eq_takeWhile_dropWhile, List.takeWhile_eq_self_iff.mpr h,
    List.dropWhile_eq_nil_iff.mpr h]

theorem span_append_cons {p : Char → Bool} {text rest : List Char} {c : Char}
    (h : ∀ c ∈ text, p c = true) (hc : p c = false) :
    (text ++ c :: rest).span p = (text, c :: rest) := by
  rw [List.span_eq_takeWhile_dropWhile, List.takeWhile_append_of_pos h,
    List.dropWhile_append_of_pos h]
  simp [hc]

theorem ne_of_isDigit {c d : Char} (hc : c.isDigit = true)
    (hd : d.isDigit = false) : c ≠ d := by
  rintro rfl
  rw [hc] at hd
  cases hd

theorem mantissaValue?_digits {text : List Char} (hne : text ≠ [])
    (hdigits : ∀ c ∈ text, c.isDigit = true) :
    mantissaValue? text = some (Nat.ofDigitChars 10 text 0 : ℚ) := by
  have hpoint : ∀ c ∈ text, decide (c ≠ '.') = true := fun c hc =>
    decide_eq_true (ne_of_isDigit (hdigits c hc) (by decide))
  simp only [mantissaValue?, span_of_forall hpoint, List.drop_nil,
    List.append_nil, digitsValue?_eq_some hne hdigits]
  simp

theorem mantissaValue?_point {whole fraction : List Char}
    (hne : whole ++ fraction ≠ [])
    (hdigits : ∀ c ∈ whole ++ fraction, c.isDigit = true) :
    mantissaValue? (whole ++ '.' :: fraction) =
      some (Nat.ofDigitChars 10 (whole ++ fraction)
        0 / 10 ^ fraction.length : ℚ) := by
  have hpoint : ∀ c ∈ whole, decide (c ≠ '.') = true := fun c hc =>
    decide_eq_true (ne_of_isDigit (hdigits c (List.mem_append_left _ hc))
      (by decide))
  have hspan : (whole ++ '.' :: fraction).span (fun c => c ≠ '.') =
      (whole, '.' :: fraction) := span_append_cons hpoint (by decide)
  simp only [mantissaValue?, hspan, List.drop_succ_cons,
    List.drop_zero, digitsValue?_eq_some hne hdigits]
  rfl

theorem exponentValue?_power (n : ℤ) :
    exponentValue?
      ('e' :: (if 0 ≤ n then '+' else '-') :: Nat.toDigits 10 n.natAbs) =
      some n := by
  have hdigits := digitsValue?_eq_some (by simp : Nat.toDigits 10 n.natAbs ≠ [])
    fun c hc => Nat.isDigit_of_mem_toDigits (by decide) (by decide) hc
  rw [Nat.ofDigitChars_ten_toDigits] at hdigits
  by_cases hn : 0 ≤ n
  · simp [exponentValue?, if_pos hn, signed, hdigits, abs_of_nonneg hn]
  · simp [exponentValue?, if_neg hn, signed, hdigits, abs_of_neg (not_le.mp hn)]


/-- A mantissa consists of digits and points. -/
theorem mem_of_mantissaValue? {text : List Char} {m : ℚ}
    (hm : mantissaValue? text = some m) {c : Char} (hc : c ∈ text) :
    c.isDigit = true ∨ c = '.' := by
  have hspan : text.span (fun c => c ≠ '.') = (text.takeWhile fun c => c ≠ '.',
      text.dropWhile fun c => c ≠ '.') := List.span_eq_takeWhile_dropWhile _ _
  simp only [mantissaValue?, hspan, digitsValue?] at hm
  split at hm
  · rename_i hall
    have hdigit := List.all_eq_true.mp hall.2
    rw [← List.takeWhile_append_dropWhile (p := fun c => decide (c ≠ '.'))
      (l := text)] at hc
    rcases List.mem_append.mp hc with hwhole | hrest
    · exact .inl (hdigit c (List.mem_append_left _ hwhole))
    · cases hpoint : text.dropWhile fun c => decide (c ≠ '.') with
      | nil => rw [hpoint] at hrest; cases hrest
      | cons d fraction =>
          have hd : decide (d ≠ '.') = false := by
            have hhead := List.head_dropWhile_not
                (p := fun c => decide (c ≠ '.')) (l := text)
              (by rw [hpoint]; exact List.cons_ne_nil d fraction)
            simpa only [hpoint, List.head_cons] using hhead
          rw [hpoint] at hrest hdigit
          rcases List.mem_cons.mp hrest with rfl | hfraction
          · right
            simpa using hd
          · exact .inl (hdigit c (List.mem_append_right _ hfraction))
  · cases hm

theorem decimalValue?_body {mantissa tail : List Char} {m : ℚ} {e : ℤ}
    (hm : mantissaValue? mantissa = some m) (he : exponentValue? tail = some e)
    (htail : ∀ c ∈ tail.head?, c = 'e') :
    decimalValue? (String.ofList (mantissa ++ tail)) = some (m * 10 ^ e) ∧
      decimalValue? (String.ofList ('-' :: (mantissa ++ tail))) = some
        (-(m * 10 ^ e)) := by
  have hspan : (mantissa ++ tail).span (fun c => c ≠ 'e' ∧ c ≠ 'E') =
      (mantissa, tail) := by
    have hall : ∀ c ∈ mantissa, decide (c ≠ 'e' ∧ c ≠ 'E') = true := by
      intro c hc
      rcases mem_of_mantissaValue? hm hc with hdigit | rfl
      · exact decide_eq_true
          ⟨ne_of_isDigit hdigit (by decide), ne_of_isDigit hdigit (by decide)⟩
      · decide
    cases tail with
    | nil =>
        rw [List.append_nil]
        exact span_of_forall hall
    | cons c rest =>
        obtain rfl : c = 'e' := htail c rfl
        exact span_append_cons hall (by decide)
  have hsigned : signed (mantissa ++ tail) = (false, mantissa ++ tail) := by
    cases mantissa with
    | nil => cases hm
    | cons c rest =>
        unfold signed
        split
        · rename_i h
          obtain rfl := (List.cons.inj h).1
          exact absurd (mem_of_mantissaValue? hm List.mem_cons_self) (by decide)
        · rename_i h
          obtain rfl := (List.cons.inj h).1
          exact absurd (mem_of_mantissaValue? hm List.mem_cons_self) (by decide)
        · rfl
  constructor
  · simp only [decimalValue?, String.toList_ofList, hsigned, hspan, hm, he]
    simp
  · simp only [decimalValue?, String.toList_ofList, signed, hspan, hm, he]
    simp

section Digits

variable {digits : List Char} (hdigits : ∀ c ∈ digits, c.isDigit = true)

include hdigits

theorem mantissaValue?_zeros (hne : digits ≠ []) (j : ℕ) :
    mantissaValue? (digits ++ List.replicate j '0') =
      some ((Nat.ofDigitChars 10 digits 0 : ℚ) * 10 ^ j) := by
  have hall : ∀ c ∈ digits ++ List.replicate j '0', c.isDigit = true := by
    intro c hc
    rcases List.mem_append.mp hc with hdigit | hzero
    · exact hdigits c hdigit
    · rw [List.eq_of_mem_replicate hzero]
      decide
  rw [mantissaValue?_digits (by simp [hne]) hall, Nat.ofDigitChars_append,
    Nat.ofDigitChars_replicate_zero]
  push_cast
  rw [mul_comm]

theorem mantissaValue?_take (hne : digits ≠ []) (i : ℕ) :
    mantissaValue? (digits.take i ++ '.' :: digits.drop i) =
      some ((Nat.ofDigitChars 10 digits 0 : ℚ) / 10 ^ (digits.length - i)) := by
  have happend : digits.take i ++ digits.drop i = digits :=
    List.take_append_drop i digits
  rw [mantissaValue?_point (by rwa [happend]) (by rwa [happend]), happend,
    List.length_drop]

theorem mantissaValue?_fraction (j : ℕ) :
    mantissaValue? ('0' :: '.' :: (List.replicate j '0' ++ digits)) =
      some ((Nat.ofDigitChars 10 digits 0 : ℚ) / 10 ^ (j + digits.length)) := by
  have hall : ∀ c ∈ ['0'] ++ (List.replicate j '0' ++ digits),
      c.isDigit = true := by
    intro c hc
    rcases List.mem_append.mp hc with hzero | hc
    · rw [List.mem_singleton.mp hzero]
      decide
    rcases List.mem_append.mp hc with hzero | hdigit
    · rw [List.eq_of_mem_replicate hzero]
      decide
    · exact hdigits c hdigit
  have hpoint := mantissaValue?_point (by simp) hall
  rw [List.singleton_append] at hpoint
  rw [hpoint, List.singleton_append, Nat.ofDigitChars_cons,
    Nat.ofDigitChars_append, Nat.ofDigitChars_replicate_zero,
    List.length_append, List.length_replicate]
  simp

end Digits

theorem div_pow_mul_zpow (m : ℚ) (k : ℕ) (e : ℤ) :
    m / 10 ^ k * 10 ^ e = m * 10 ^ (e - k) := by
  rw [zpow_sub₀ (by norm_num), zpow_natCast]
  ring

def IsNumberChar (c : Char) : Prop :=
  c.isDigit = true ∨ c = '.' ∨ c = 'e' ∨ c = '+' ∨ c = '-'

theorem isNumberChar_of_mem_power {n : ℤ} {c : Char}
    (hc : c ∈ 'e' :: (if 0 ≤ n then '+' else '-') :: Nat.toDigits 10 n.natAbs) :
    IsNumberChar c := by
  rcases List.mem_cons.mp hc with rfl | hc
  · exact .inr (.inr (.inl rfl))
  rcases List.mem_cons.mp hc with rfl | hc
  · split <;> simp [IsNumberChar]
  · exact .inl (Nat.isDigit_of_mem_toDigits (by decide) (by decide) hc)

/-- A decimal is laid out as a mantissa and an exponent whose value it is. -/
theorem layOut_eq (d : Decimal) :
    ∃ mantissa tail m e, layOut d = mantissa ++ tail ∧
      mantissaValue? mantissa = some m ∧
      exponentValue? tail = some e ∧ m * 10 ^ e = d.value ∧
      (∀ c ∈ tail.head?, c = 'e') ∧ ∀ c ∈ tail, IsNumberChar c := by
  have hvalue : Nat.ofDigitChars 10 (Nat.toDigits 10 d.digits) 0 = d.digits :=
    Nat.ofDigitChars_ten_toDigits
  have hdigits : ∀ c ∈ Nat.toDigits 10 d.digits, c.isDigit = true := fun c hc =>
    Nat.isDigit_of_mem_toDigits (by decide) (by decide) hc
  have hne : Nat.toDigits 10 d.digits ≠ [] := by simp
  unfold layOut Decimal.value
  generalize Nat.toDigits 10 d.digits = digits at *
  have hlength : 0 < digits.length := List.length_pos_iff.mpr hne
  rw [← hvalue]
  dsimp only
  split
  · refine ⟨_, [], _, 0, (List.append_nil _).symm,
      mantissaValue?_zeros hdigits hne _, rfl, ?_, by simp, by simp⟩
    rw [zpow_zero, mul_one, ← zpow_natCast]
    congr 2
    omega
  · split
    · refine ⟨_, [], _, 0, (List.append_nil _).symm,
        mantissaValue?_take hdigits hne _, rfl, ?_, by simp, by simp⟩
      rw [div_pow_mul_zpow]
      congr 2
      omega
    · split
      · refine ⟨_, [], _, 0, (List.append_nil _).symm,
          mantissaValue?_fraction hdigits _, rfl, ?_, by simp, by simp⟩
        rw [div_pow_mul_zpow]
        congr 2
        omega
      · have hpower := exponentValue?_power (d.exponent + digits.length - 1)
        split
        · refine ⟨_, _, _, _, rfl, mantissaValue?_digits hne hdigits, hpower,
            ?_, by simp, fun c hc => isNumberChar_of_mem_power hc⟩
          congr 2
          omega
        · refine ⟨_, _, _, _, rfl, mantissaValue?_take hdigits hne 1, hpower,
            ?_, by simp, fun c hc => isNumberChar_of_mem_power hc⟩
          rw [div_pow_mul_zpow]
          congr 2
          omega

theorem isNumberChar_of_mem_layOut {d : Decimal} {c : Char}
    (hc : c ∈ layOut d) : IsNumberChar c := by
  obtain ⟨mantissa, tail, m, e, hlay, hm, -, -, -, htail⟩ := layOut_eq d
  rw [hlay] at hc
  rcases List.mem_append.mp hc with hc | hc
  · rcases mem_of_mantissaValue? hm hc with hdigit | hpoint
    · exact .inl hdigit
    · exact .inr (.inl hpoint)
  · exact htail c hc

theorem layOut_ne_nil (d : Decimal) : layOut d ≠ [] := by
  obtain ⟨mantissa, tail, m, e, hlay, hm, -⟩ := layOut_eq d
  rw [hlay]
  rintro h
  rw [(List.append_eq_nil_iff.mp h).1] at hm
  cases hm

theorem decimalValue?_layOut (d : Decimal) :
    decimalValue? (String.ofList (layOut d)) = some d.value ∧
      decimalValue? (String.ofList ('-' :: layOut d)) = some (-d.value) := by
  obtain ⟨mantissa, tail, m, e, hlay, hm, he, hvalue, htail, -⟩ := layOut_eq d
  rw [hlay, ← hvalue]
  exact decimalValue?_body hm he htail

/-- `Number(String(x))` -/
theorem scriptNumber_numberText {x : ℚ} (hx : binary64.Holds x)
    (hlt : |x| < 2 ^ 1024) : scriptNumber (numberText x) = some x := by
  have hdouble : ∀ q, binary64.round q = x → double q = some x := by
    intro q hq
    rw [double, hq, if_pos hlt]
  rcases lt_trichotomy x 0 with hneg | rfl | hpos
  · have hround := Format.round_shortest hx.neg (neg_pos.mpr hneg)
    have htext : numberText x =
        String.ofList ('-' :: layOut (binary64.shortest (-x))) := by
      rw [numberText, if_neg hneg.ne, if_pos hneg]
    rw [scriptNumber, htext, (decimalValue?_layOut _).2]
    apply hdouble
    rw [Format.round_neg, hround, neg_neg]
  · decide +kernel
  · have hround := Format.round_shortest hx hpos
    have htext : numberText x =
        String.ofList (layOut (binary64.shortest x)) := by
      rw [numberText, if_neg hpos.ne', if_neg hpos.not_gt]
    rw [scriptNumber, htext, (decimalValue?_layOut _).1]
    exact hdouble _ hround

theorem numberText_chars {x : ℚ} :
    numberText x ≠ "" ∧ ∀ c ∈ (numberText x).toList, IsNumberChar c := by
  unfold numberText
  split
  · exact ⟨by decide, by simp [IsNumberChar]⟩
  · split
    · refine ⟨by simp [← String.toList_inj], ?_⟩
      intro c hc
      rw [String.toList_ofList] at hc
      rcases List.mem_cons.mp hc with rfl | hc
      · simp [IsNumberChar]
      · exact isNumberChar_of_mem_layOut hc
    · refine ⟨by simpa [← String.toList_inj] using layOut_ne_nil _, ?_⟩
      intro c hc
      rw [String.toList_ofList] at hc
      exact isNumberChar_of_mem_layOut hc

end Servcat
