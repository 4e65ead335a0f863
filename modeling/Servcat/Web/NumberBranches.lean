/-
Branches on number answers.  The builder saves an integral number as an integer
literal and the form makes a float of every answer, so that the two are equal
only where the literal is read as a float.
-/
import Servcat.Web.Values

namespace Servcat

open Numeric

theorem digitsValue?_eq_some {text : List Char} (hne : text ≠ [])
    (hdigits : ∀ c ∈ text, c.isDigit = true) :
    digitsValue? text = some (Nat.ofDigitChars 10 text 0) := by
  have hall : text.all Char.isDigit = true := List.all_eq_true.mpr hdigits
  simp [digitsValue?, hne, hall]

theorem digitsValue?_eq_none {text : List Char} {c : Char} (hc : c ∈ text)
    (hdigit : c.isDigit = false) : digitsValue? text = none := by
  have hall : ¬text.all Char.isDigit = true := by
    intro h
    rw [List.all_eq_true.mp h c hc] at hdigit
    cases hdigit
  simp [digitsValue?, hall]

/-- Both with and without a minus sign in front. -/
def ReadsAsInteger (text : List Char) (n : ℕ) : Prop :=
  integerLiteral? text = some (false, n) ∧
    integerLiteral? ('-' :: text) = some (true, n)

def ReadsAsFloat (text : List Char) : Prop :=
  integerLiteral? text = none ∧ integerLiteral? ('-' :: text) = none

theorem readsAsInteger {text : List Char} (hne : text ≠ [])
    (hdigits : ∀ c ∈ text, c.isDigit = true) :
    ReadsAsInteger text (Nat.ofDigitChars 10 text 0) := by
  have hvalue := digitsValue?_eq_some hne hdigits
  obtain ⟨first, rest, rfl⟩ := List.exists_cons_of_ne_nil hne
  constructor
  · unfold integerLiteral?
    split
    · rename_i digits heq
      obtain ⟨rfl, rfl⟩ := List.cons.inj heq
      have hminus := hdigits '-' List.mem_cons_self
      exact absurd hminus (by decide)
    · rw [hvalue]
      rfl
  · simp [integerLiteral?, hvalue]

theorem readsAsFloat {text : List Char} {c : Char} (hc : c ∈ text)
    (hdigit : c.isDigit = false) (hminus : c ≠ '-') : ReadsAsFloat text := by
  constructor
  · unfold integerLiteral?
    split
    · rename_i digits
      rw [digitsValue?_eq_none
        ((List.mem_cons.mp hc).resolve_left hminus) hdigit]
      rfl
    · rw [digitsValue?_eq_none hc hdigit]
      rfl
  · simp [integerLiteral?, digitsValue?_eq_none hc hdigit]

theorem layOut_readsAsInteger {d : Decimal} (he : 0 ≤ d.exponent)
    (hn : d.width ≤ 21) :
    ReadsAsInteger (layOut d) (d.digits * 10 ^ d.exponent.toNat) := by
  unfold Decimal.width at hn
  have hlay : layOut d =
      Nat.toDigits 10 d.digits ++ List.replicate d.exponent.toNat '0' := by
    have hcase : ((Nat.toDigits 10 d.digits).length : ℤ) ≤
        d.exponent + (Nat.toDigits 10 d.digits).length ∧
        d.exponent + (Nat.toDigits 10 d.digits).length ≤ 21 := by omega
    unfold layOut
    dsimp only
    rw [if_pos hcase]
    congr 2
    omega
  have hvalue : Nat.ofDigitChars 10 (layOut d) 0 =
      d.digits * 10 ^ d.exponent.toNat := by
    rw [hlay, Nat.ofDigitChars_append, Nat.ofDigitChars_ten_toDigits,
      Nat.ofDigitChars_replicate_zero, Nat.mul_comm]
  rw [← hvalue]
  apply readsAsInteger
  · rw [hlay]
    simp
  · intro c hc
    rw [hlay] at hc
    rcases List.mem_append.mp hc with hdigit | hzero
    · exact Nat.isDigit_of_mem_toDigits (by decide) (by decide) hdigit
    · rw [List.eq_of_mem_replicate hzero]
      decide

theorem layOut_readsAsFloat {d : Decimal}
    (h : ¬(0 ≤ d.exponent ∧ d.width ≤ 21)) :
    ReadsAsFloat (layOut d) := by
  unfold Decimal.width at h
  have hmark : '.' ∈ layOut d ∨ 'e' ∈ layOut d := by
    unfold layOut
    dsimp only
    split_ifs
    · omega
    all_goals simp
  rcases hmark with hmark | hmark
  · exact readsAsFloat hmark (by decide) (by decide)
  · exact readsAsFloat hmark (by decide) (by decide)

theorem binary64_precision : 0 < binary64.precision := by
  decide

theorem binary64_holds_natCast {n : ℕ}
    (hn : n < 2 ^ 53) : binary64.Holds (n : ℚ) := by
  have habs : |(n : ℤ)| < 2 ^ 53 := by
    rw [abs_of_nonneg (by omega)]
    exact_mod_cast hn
  exact_mod_cast Format.holds_intCast (F := binary64) habs (by decide)

theorem binary64_holds_two_pow (k : ℕ) : binary64.Holds (2 ^ k : ℚ) :=
  ⟨1, k, by decide, by show (-1074 : ℤ) ≤ k; omega, by simp⟩

/-- A double that is no integer is not the rounding of one. -/
theorem den_eq_one_of_round_natCast {x : ℚ} {n : ℕ} (hx : binary64.Holds x)
    (hn : binary64.round n = x) : x.den = 1 := by
  by_contra hden
  have hsmall : |x| < 2 ^ 53 := hx.lt_of_den_ne_one hden
  have hlt : (n : ℚ) < 2 ^ 53 := by
    apply Format.lt_of_round_lt binary64_precision (binary64_holds_two_pow 53)
      (by positivity)
    rw [hn]
    exact (le_abs_self x).trans_lt hsmall
  have hholds : binary64.Holds (n : ℚ) :=
    binary64_holds_natCast (by exact_mod_cast hlt)
  rw [hholds.round_eq] at hn
  rw [← hn] at hden
  exact hden (Rat.den_natCast n)

theorem natCast_num_of_den_eq_one {x : ℚ} (hpos : 0 ≤ x) (hden : x.den = 1) :
    ∃ n : ℕ, x = n := by
  refine ⟨x.num.toNat, ?_⟩
  have hnum : ((x.num.toNat : ℤ) : ℚ) = x.num := by
    rw [Int.toNat_of_nonneg (Rat.num_nonneg.mpr hpos)]
  rw [← Int.cast_natCast, hnum]
  exact (Rat.coe_int_num_of_den_eq_one hden).symm

/-- The integer that the shortest decimal of a large enough double
spells out. -/
def spelled (x : ℚ) : ℕ :=
  (binary64.shortest x).digits * 10 ^ (binary64.shortest x).exponent.toNat

/-- The text of a positive double is an integer literal, and then the double is
an integer and the rounding of the literal, or it is none, and then the double
is no integer below `2 ^ 64`. -/
theorem layOut_shortest {x : ℚ} (hx : binary64.Holds x) (hpos : 0 < x) :
    ReadsAsInteger (layOut (binary64.shortest x)) (spelled x) ∧
        binary64.round (spelled x) = x ∧ x.den = 1 ∨
      ReadsAsFloat (layOut (binary64.shortest x)) ∧
      ¬(x.den = 1 ∧ x < 2 ^ 64) := by
  have hround := Format.round_shortest hx hpos
  by_cases hcase : 0 ≤ (binary64.shortest x).exponent ∧
    (binary64.shortest x).width ≤ 21
  · obtain ⟨hexponent, hwidth⟩ := hcase
    rw [Decimal.value_natCast hexponent] at hround
    exact .inl ⟨layOut_readsAsInteger hexponent hwidth, hround,
      den_eq_one_of_round_natCast hx hround⟩
  · refine .inr ⟨layOut_readsAsFloat hcase, ?_⟩
    rintro ⟨hden, hlt⟩
    obtain ⟨n, rfl⟩ := natCast_num_of_den_eq_one hpos.le hden
    have hexponent := Format.shortest_exponent_nonneg hx
    rw [Decimal.value_natCast hexponent] at hround
    have hvalue : ((spelled n : ℕ) : ℚ) < 2 ^ 64 := by
      apply Format.lt_of_round_lt binary64_precision (binary64_holds_two_pow 64)
        (by positivity)
      exact hround.trans_lt hlt
    have hdigits : 0 < (binary64.shortest n).digits := by
      apply Nat.pos_of_ne_zero
      intro hzero
      rw [hzero, Nat.zero_mul, Nat.cast_zero, Format.round_zero] at hround
      exact hpos.ne hround
    have hsmall : spelled n < 2 ^ 64 := by exact_mod_cast hvalue
    have hbound : (2 : ℕ) ^ 64 < 10 ^ 21 := by norm_num
    have hwidth := Decimal.width_le hexponent hdigits (hsmall.trans hbound)
    exact hcase ⟨hexponent, hwidth⟩

/-- At the bounds of the integers `serde_json` reads, the literal
is past them. -/
theorem lt_spelled_two_pow :
    2 ^ 63 < spelled (2 ^ 63) ∧ 2 ^ 64 < spelled (2 ^ 64) := by
  decide +kernel

theorem lt_spelled {x : ℚ} {k : ℕ} (hround : binary64.round (spelled x) = x)
    (hk : 2 ^ k < spelled (2 ^ k)) (h : 2 ^ k ≤ x) : 2 ^ k < spelled x := by
  rcases h.eq_or_lt with rfl | hlt
  · exact hk
  · have hspelled : (2 : ℚ) ^ k < spelled x := by
      apply Format.lt_of_lt_round binary64_precision (binary64_holds_two_pow k)
        (by positivity)
      rw [hround]
      exact hlt
    exact_mod_cast hspelled

theorem spelled_lt {x : ℚ} {k : ℕ} (hround : binary64.round (spelled x) = x)
    (h : x < 2 ^ k) : spelled x < 2 ^ k := by
  have hspelled : ((spelled x : ℕ) : ℚ) < 2 ^ k := by
    apply Format.lt_of_round_lt binary64_precision (binary64_holds_two_pow k)
      (by positivity)
    rw [hround]
    exact h
  exact_mod_cast hspelled

theorem spelled_pos {x : ℚ} (hround : binary64.round (spelled x) = x)
    (hpos : 0 < x) : 0 < spelled x := by
  apply Nat.pos_of_ne_zero
  intro hzero
  rw [hzero, Nat.cast_zero, Format.round_zero] at hround
  exact hpos.ne hround

/-- An integer that is written as a literal `serde_json` reads as an integer. -/
def FitsInteger (x : ℚ) : Prop :=
  x.den = 1 ∧ -2 ^ 63 < x ∧ x < 2 ^ 64

instance (x : ℚ) : Decidable (FitsInteger x) :=
  inferInstanceAs (Decidable (_ ∧ _ ∧ _))

theorem numberText_of_pos {x : ℚ} (hpos : 0 < x) :
    (numberText x).toList = layOut (binary64.shortest x) := by
  simp [numberText, hpos.ne', hpos.not_gt]

theorem numberText_of_neg {x : ℚ} (hneg : x < 0) :
    (numberText x).toList = '-' :: layOut (binary64.shortest (-x)) := by
  simp [numberText, hneg.ne, hneg]

/-- An integral number of the builder that fits stays an integer. -/
theorem readNumber_of_fits (readFloat : ReadFloat) {x : ℚ}
    (hx : binary64.Holds x) (hfits : FitsInteger x) :
    ∃ n, readNumber readFloat (numberText x) = some n ∧ ∀ y, n ≠ .float y := by
  obtain ⟨hden, hlow, hhigh⟩ := hfits
  rcases lt_trichotomy x 0 with hneg | rfl | hpos
  · have hpos : 0 < -x := by linarith
    have hbound : -x < 2 ^ 63 := by linarith
    rcases layOut_shortest hx.neg hpos with ⟨hreads, hround, -⟩ | ⟨-, hnot⟩
    · have hlt := spelled_lt hround hbound
      have hzero := spelled_pos hround hpos
      refine ⟨.negInt (Int64.ofInt (-spelled (-x))), ?_, by simp⟩
      simp only [readNumber, numberText_of_neg hneg, hreads.2]
      rw [if_pos ⟨hzero, hlt.le⟩]
    · exact absurd ⟨by simpa using hden, hbound.trans (by norm_num)⟩ hnot
  · exact ⟨.posInt 0, rfl, by simp⟩
  · rcases layOut_shortest hx hpos with ⟨hreads, hround, -⟩ | ⟨-, hnot⟩
    · have hlt := spelled_lt hround hhigh
      refine ⟨.posInt (UInt64.ofNat (spelled x)), ?_, by simp⟩
      simp only [readNumber, numberText_of_pos hpos, hreads.1]
      rw [if_pos hlt]
    · exact absurd ⟨hden, hhigh⟩ hnot

/-- Every other number is read as a float. -/
theorem readNumber_of_not_fits {readFloat : ReadFloat} {x : ℚ}
    (hx : binary64.Holds x) (hfits : ¬FitsInteger x) :
    readNumber readFloat (numberText x) =
      (readFloat (numberText x)).map JsonNumber.float := by
  rcases lt_trichotomy x 0 with hneg | rfl | hpos
  · have hpos : 0 < -x := by linarith
    rcases layOut_shortest hx.neg hpos with ⟨hreads, hround, hden⟩ | ⟨hreads, -⟩
    · have hbound : 2 ^ 63 ≤ -x := by
        by_contra hlt
        exact hfits ⟨by simpa using hden, by linarith, by linarith⟩
      have hlt := lt_spelled hround lt_spelled_two_pow.1 hbound
      simp only [readNumber, numberText_of_neg hneg, hreads.2]
      rw [if_neg fun h => hlt.not_ge h.2]
    · simp only [readNumber, numberText_of_neg hneg, hreads.2]
  · exact absurd (by decide) hfits
  · rcases layOut_shortest hx hpos with ⟨hreads, hround, hden⟩ | ⟨hreads, -⟩
    · have hbound : 2 ^ 64 ≤ x := by
        by_contra hlt
        exact hfits ⟨hden, by linarith, not_le.mp hlt⟩
      have hlt := lt_spelled hround lt_spelled_two_pow.2 hbound
      simp only [readNumber, numberText_of_pos hpos, hreads.1]
      rw [if_neg hlt.not_gt]
    · simp only [readNumber, numberText_of_pos hpos, hreads.1]

theorem holds_of_double {q x : ℚ}
    (h : double q = some x) : binary64.Holds x := by
  unfold double at h
  split at h
  · obtain rfl := Option.some.inj h
    exact Format.holds_round binary64_precision q
  · cases h

theorem holds_of_scriptNumber {raw : String} {x : ℚ}
    (h : scriptNumber raw = some x) : binary64.Holds x := by
  unfold scriptNumber at h
  split at h
  · exact holds_of_double h
  · dsimp only at h
    split at h
    · obtain rfl := Option.some.inj h
      exact binary64_holds_natCast (n := 0) (by decide)
    · obtain ⟨q, -, hq⟩ := Option.bind_eq_some_iff.mp h
      exact holds_of_double hq

/-- The builder makes the same double of a decimal text as the form. -/
theorem scriptNumber_eq_parseF64 {raw : String} {x : ℚ}
    (h : parseF64 raw = some x) : scriptNumber raw = some x := by
  obtain ⟨q, hq, hx⟩ := Option.bind_eq_some_iff.mp h
  simp [scriptNumber, hq, hx]

/-- A value of the builder that the server reads as the float `x`. -/
def ReadsBackAs (readFloat : ReadFloat) (raw : String) (x : ℚ) : Prop :=
  ∃ y, scriptNumber raw = some y ∧ ¬FitsInteger y ∧
    readFloat (numberText y) = some x

theorem read_eq_float_iff {readFloat : ReadFloat} {raw : String} {x : ℚ} :
    (coerceValue raw .number).read readFloat = some (.number (.float x)) ↔
      ReadsBackAs readFloat raw x := by
  unfold coerceValue ReadsBackAs
  cases hraw : scriptNumber raw with
  | none => simp [ScriptValue.read]
  | some y =>
      have hy := holds_of_scriptNumber hraw
      by_cases hfits : FitsInteger y
      · obtain ⟨n, hn, hfloat⟩ := readNumber_of_fits readFloat hy hfits
        simp [ScriptValue.read, hn, hfloat, hfits]
      · simp [ScriptValue.read, readNumber_of_not_fits hy hfits, hfits]

theorem mem_of_mapM_eq_some {α β : Type} {f : α → Option β} {l : List α}
    {l' : List β} (h : l.mapM f = some l') (b : β) :
    b ∈ l' ↔ ∃ a ∈ l, f a = some b := by
  induction l generalizing l' with
  | nil =>
      obtain rfl : [] = l' := by simpa using h
      simp
  | cons a rest ih =>
      simp only [List.mapM_cons, Option.pure_def, Option.bind_eq_bind,
        Option.bind_eq_some_iff] at h
      obtain ⟨first, hfirst, tail, htail, hl⟩ := h
      obtain rfl := Option.some.inj hl
      simp [ih htail, hfirst, eq_comm]

/-- A condition on numbers holds of an answer if and only if the server read the
double of the answer for one of its values. -/
theorem evalCondition_built_iff {readFloat : ReadFloat} {t : String} {x : ℚ}
    (ht : parseF64 t = some x) {step : BranchDraft}
    (hop : step.conditionOp = .equals ∨ step.conditionOp = .in)
    (htype : step.conditionValueType = .number) {condition : Condition}
    (hread : (buildConditionJson step).read readFloat = some condition)
    (answers : Answers) :
    Engine.evalCondition condition
        (answers.insert step.conditionFieldKey
          (coerceAnswer (some .number) t)) = true ↔
      ∃ raw ∈ step.compared, ReadsBackAs readFloat raw x := by
  have hanswer : coerceAnswer (some .number) t = .number (.float x) := by
    simp [coerceAnswer, ht]
  rcases hop with hop | hop
  · simp only [buildConditionJson, hop, htype, ConditionJson.read,
      Option.map_eq_some_iff] at hread
    obtain ⟨value, hvalue, rfl⟩ := hread
    simp only [BranchDraft.compared, hop, List.mem_singleton, exists_eq_left]
    rw [← read_eq_float_iff, hvalue]
    simp only [Engine.evalCondition, JsonMap.get?_insert, ↓reduceIte, hanswer,
      beq_iff_eq, Option.some.injEq]
    exact eq_comm
  · simp only [buildConditionJson, hop, htype, ConditionJson.read,
      Option.map_eq_some_iff] at hread
    obtain ⟨values, hvalues, rfl⟩ := hread
    have hmem := mem_of_mapM_eq_some hvalues (.number (.float x))
    simp only [List.mem_map, exists_exists_and_eq_and,
      read_eq_float_iff] at hmem
    simp only [BranchDraft.compared, hop]
    rw [← hmem]
    simp only [Engine.evalCondition, JsonMap.get?_insert, ↓reduceIte, hanswer,
      Option.any_some, List.contains_iff_mem]

/-- A condition on a number question, built to compare with the text `t`,
is true of the answer `t` if and only if the double of `t` is not written
as an integer and is read back as itself; or else another listed value is
read as it. -/
theorem number_branch_iff {readFloat : ReadFloat} {t : String} {x : ℚ}
    (ht : parseF64 t = some x) {step : BranchDraft}
    (hop : step.conditionOp = .equals ∨ step.conditionOp = .in)
    (htype : step.conditionValueType = .number) (hcompared : t ∈ step.compared)
    {condition : Condition}
    (hread : (buildConditionJson step).read readFloat = some condition)
    (answers : Answers) :
    Engine.evalCondition condition
        (answers.insert step.conditionFieldKey
          (coerceAnswer (some .number) t)) = true ↔
      (¬FitsInteger x ∧ readFloat (numberText x) = some x) ∨
        ∃ raw ∈ step.compared, raw ≠ t ∧ ReadsBackAs readFloat raw x := by
  have hself : ReadsBackAs readFloat t x ↔
      ¬FitsInteger x ∧ readFloat (numberText x) = some x := by
    simp [ReadsBackAs, scriptNumber_eq_parseF64 ht]
  rw [evalCondition_built_iff ht hop htype hread answers, ← hself]
  constructor
  · rintro ⟨raw, hraw, hback⟩
    by_cases heq : raw = t
    · subst heq
      exact .inl hback
    · exact .inr ⟨raw, hraw, heq, hback⟩
  · rintro (hback | ⟨raw, hraw, -, hback⟩)
    · exact ⟨t, hcompared, hback⟩
    · exact ⟨raw, hraw, hback⟩

/-- A reader that rounds every literal correctly. -/
def roundingReader : ReadFloat :=
  fun text => (decimalValue? text).bind double

/-- "Is it `t` hours?" -/
def hoursDraft (t : String) : BranchDraft where
  conditionOp := .equals
  conditionFieldKey := "hours"
  conditionValueType := .number
  conditionValue := t
  conditionValues := ""

theorem number_branch_iff_half :
    Engine.evalCondition (.equals "hours" (.number (.float (5 / 2))))
        (JsonMap.insert [] "hours" (coerceAnswer (some .number) "2.5")) = true ↔
      (¬FitsInteger (5 / 2) ∧
        roundingReader (numberText (5 / 2)) = some (5 / 2)) ∨
        ∃ raw ∈ (hoursDraft "2.5").compared,
          raw ≠ "2.5" ∧ ReadsBackAs roundingReader raw (5 / 2) := by
  have hvalue : (coerceValue "2.5" .number).read roundingReader =
      some (.number (.float (5 / 2))) := by
    decide +kernel
  have hread : (buildConditionJson (hoursDraft "2.5")).read roundingReader =
      some (.equals "hours" (.number (.float (5 / 2)))) :=
    congrArg (Option.map (Condition.equals "hours")) hvalue
  exact number_branch_iff (by decide +kernel) (.inl rfl) rfl
    (by decide) hread []

/-- The condition built for `5` is false of the answer `5`. -/
theorem number_branch_five_false :
    parseF64 "5" = some 5 ∧
      (buildConditionJson (hoursDraft "5")).read roundingReader =
        some (.equals "hours" (.number (.posInt 5))) ∧
      Engine.evalCondition (.equals "hours" (.number (.posInt 5)))
        (JsonMap.insert [] "hours" (coerceAnswer (some .number) "5")) =
          false := by
  have hvalue : (coerceValue "5" .number).read roundingReader =
      some (.number (.posInt 5)) := by
    decide +kernel
  have hanswer : coerceAnswer (some .number) "5" = .number (.float 5) := by
    decide +kernel
  refine ⟨by decide +kernel, congrArg (Option.map (Condition.equals "hours"))
    hvalue, ?_⟩
  rw [hanswer]
  rfl

end Servcat
