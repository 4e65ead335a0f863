/-
How a target time is shown, and which target times are shown alike.
-/
import Servcat.Model.Records
import Mathlib

namespace Servcat

namespace TargetUnit

def noun (unit : TargetUnit) (value : Int32) : String :=
  match unit, decide (value = 1) with
  | minutes, true => "minute"
  | minutes, false => "minutes"
  | hours, true => "hour"
  | hours, false => "hours"
  | businessDays, true => "business day"
  | businessDays, false => "business days"
  | calendarDays, true => "day"
  | calendarDays, false => "days"

theorem noun_inj {unit unit' : TargetUnit} {value : Int32} :
    unit.noun value = unit'.noun value ↔ unit = unit' := by
  constructor
  · intro h
    unfold noun at h
    cases hvalue : decide (value = 1) <;> rw [hvalue] at h <;> revert h <;>
      cases unit <;> cases unit' <;> decide
  · rintro rfl
    rfl

end TargetUnit

/-- A day is 24 hours, and only a whole number of days is shown as days. -/
def formatTarget (value : Int32) (unit : TargetUnit) : String :=
  if unit = .hours ∧ value ≠ 0 ∧ value % 24 = 0 then
    let days := value / 24
    s!"{days} {TargetUnit.calendarDays.noun days}"
  else
    s!"{value} {unit.noun value}"

/-- A number of hours, and as many calendar days. -/
structure SameSpan (hours days : Int32 × TargetUnit) : Prop where
  hours_unit : hours.2 = .hours
  days_unit : days.2 = .calendarDays
  ne_zero : hours.1 ≠ 0
  span : hours.1.toInt = 24 * days.1.toInt

namespace TargetTime

variable {value value' : Int32} {unit unit' : TargetUnit}

/-- The value and the unit that are written out. -/
def shown (value : Int32) (unit : TargetUnit) : Int32 × TargetUnit :=
  if unit = .hours ∧ value ≠ 0 ∧ value % 24 = 0 then (value / 24, .calendarDays)
  else (value, unit)

def text (target : Int32 × TargetUnit) : String :=
  s!"{target.1} {target.2.noun target.1}"

theorem formatTarget_eq :
    formatTarget value unit = text (shown value unit) := by
  unfold formatTarget shown
  split <;> rfl

theorem space_notMem (value : Int32) : ' ' ∉ (toString value).toList := by
  have hdigits (n : ℕ) : ' ' ∉ n.repr.toList := by
    intro hmem
    rw [Nat.toList_repr] at hmem
    exact absurd (Nat.isDigit_of_mem_toDigits (by decide) (by decide) hmem)
      (by decide)
  have htext : toString value = Int.repr value.toInt := rfl
  rw [htext, Int.repr_eq_if]
  split
  · exact hdigits value.toInt.toNat
  · rw [String.toList_append, List.mem_append, not_or]
    exact ⟨by decide, hdigits _⟩

theorem toString_inj : toString value = toString value' ↔ value = value' := by
  constructor
  · exact fun h => Int32.toInt_inj.mp (Int.repr_injective h)
  · rintro rfl
    rfl

/-- A text is read up to its first space. -/
theorem append_space_inj {xs ys : List Char} (hxs : ' ' ∉ xs) (hys : ' ' ∉ ys)
    {xs' ys' : List Char}
    (h : xs ++ ' ' :: xs' = ys ++ ' ' :: ys') : xs = ys ∧ xs' = ys' := by
  have hprefix : ∀ zs zs' : List Char, ' ' ∉ zs →
      (zs ++ ' ' :: zs').takeWhile (· ≠ ' ') = zs := by
    intro zs zs' hzs
    have hpos : ∀ c ∈ zs, decide (c ≠ ' ') = true := by
      intro c hc
      exact decide_eq_true (ne_of_mem_of_not_mem hc hzs)
    rw [List.takeWhile_append_of_pos hpos]
    simp
  have heq : xs = ys := by
    rw [← hprefix xs xs' hxs, h, hprefix ys ys' hys]
  subst heq
  exact ⟨rfl, (List.cons.inj (List.append_cancel_left h)).2⟩

theorem toList_text (target : Int32 × TargetUnit) :
    (text target).toList =
      (toString target.1).toList ++ ' ' :: (target.2.noun target.1).toList := by
  have htext : text target =
      toString target.1 ++ (" " ++ target.2.noun target.1) :=
    String.append_assoc
  rw [htext, String.toList_append, String.toList_append]
  rfl

theorem text_inj {target target' : Int32 × TargetUnit} :
    text target = text target' ↔ target = target' := by
  constructor
  · intro h
    rw [← String.toList_inj, toList_text, toList_text] at h
    obtain ⟨hvalue, hnoun⟩ :=
      append_space_inj (space_notMem _) (space_notMem _) h
    rw [String.toList_inj, toString_inj] at hvalue
    rw [hvalue, String.toList_inj, TargetUnit.noun_inj] at hnoun
    exact Prod.ext hvalue hnoun
  · rintro rfl
    rfl

/-- Dividing by the hours of a day never overflows. -/
theorem toInt_div_day (value : Int32) :
    (value / 24).toInt = value.toInt.tdiv 24 :=
  Int32.toInt_div_of_ne_right value 24 (by decide)

theorem toInt_mod_day (value : Int32) :
    (value % 24).toInt = value.toInt.tmod 24 :=
  Int32.toInt_mod value 24

/-- A whole number of days is that many times the hours of a day. -/
theorem toInt_of_whole (h : value % 24 = 0) :
    value.toInt = 24 * (value / 24).toInt := by
  have hmod := toInt_mod_day value
  rw [h, Int32.toInt_zero] at hmod
  have hsum := Int.mul_tdiv_add_tmod value.toInt 24
  rw [toInt_div_day]
  omega

/-- A day is never zero hours. -/
theorem whole_of_toInt {days : Int32} (h : value.toInt = 24 * days.toInt) :
    value % 24 = 0 ∧ value / 24 = days := by
  rw [← Int32.toInt_inj, ← Int32.toInt_inj, toInt_mod_day, toInt_div_day, h]
  exact ⟨Int.mul_tmod_right 24 _, Int.mul_tdiv_cancel_left _ (by decide)⟩

theorem shown_cases (value : Int32) (unit : TargetUnit) :
    shown value unit = (value, unit) ∨
      SameSpan (value, unit) (shown value unit) := by
  unfold shown
  split
  · rename_i h
    obtain ⟨hunit, hne, hwhole⟩ := h
    exact .inr ⟨hunit, rfl, hne, toInt_of_whole hwhole⟩
  · exact .inl rfl

theorem shown_of_sameSpan (h : SameSpan (value, unit) (value', unit')) :
    shown value unit = (value', unit') ∧
    shown value' unit' = (value', unit') := by
  obtain ⟨rfl, rfl, hne, hspan⟩ := h
  obtain ⟨hwhole, hdays⟩ := whole_of_toInt hspan
  constructor
  · rw [shown, if_pos ⟨rfl, hne, hwhole⟩, hdays]
  · exact if_neg (by simp)

theorem sameSpan_inj {days : Int32 × TargetUnit}
    (h : SameSpan (value, unit) days) (h' : SameSpan (value', unit') days) :
    (value, unit) = (value', unit') := by
  have hvalue : value = value' := Int32.toInt_inj.mp (h.span.trans h'.span.symm)
  exact Prod.ext hvalue (h.hours_unit.trans h'.hours_unit.symm)

theorem shown_eq_iff : shown value unit = shown value' unit' ↔
    (value, unit) = (value', unit') ∨
      SameSpan (value, unit) (value', unit') ∨
        SameSpan (value', unit') (value, unit) := by
  constructor
  · intro h
    rcases shown_cases value unit with hself | hspan <;>
      rcases shown_cases value' unit' with hself' | hspan'
    · exact .inl (hself.symm.trans (h.trans hself'))
    · exact .inr (.inr (hself ▸ h ▸ hspan'))
    · exact .inr (.inl (hself' ▸ h ▸ hspan))
    · exact .inl (sameSpan_inj (h ▸ hspan) hspan')
  · rintro (heq | hspan | hspan)
    · rw [(Prod.mk.inj heq).1, (Prod.mk.inj heq).2]
    · exact (shown_of_sameSpan hspan).1.trans (shown_of_sameSpan hspan).2.symm
    · exact (shown_of_sameSpan hspan).2.trans (shown_of_sameSpan hspan).1.symm

theorem formatTarget_inj : formatTarget value unit = formatTarget value' unit' ↔
    (value, unit) = (value', unit') ∨
      SameSpan (value, unit) (value', unit') ∨
        SameSpan (value', unit') (value, unit) := by
  rw [formatTarget_eq, formatTarget_eq, text_inj, shown_eq_iff]

end TargetTime

open TargetTime in
/-- The text of a target time says the target time, up to whole
days in hours. -/
theorem formatTarget_unambiguous (value value' : Int32)
    (unit unit' : TargetUnit) :
    (formatTarget value unit = formatTarget value' unit' ↔
      (value, unit) = (value', unit') ∨
        SameSpan (value, unit) (value', unit') ∨
          SameSpan (value', unit') (value, unit)) ∧
      (formatTarget value unit = formatTarget value' unit' →
        (unit = .businessDays ∨ unit = .minutes ∨
          unit = .hours ∧ value % 24 ≠ 0) → (value, unit) = (value', unit')) ∧
      (value / 24).toInt = value.toInt.tdiv 24 ∧
      (value % 24).toInt = value.toInt.tmod 24 := by
  refine ⟨formatTarget_inj, fun htext hunit => ?_, toInt_div_day value,
    toInt_mod_day value⟩
  rcases formatTarget_inj.mp htext with heq | hspan | hspan
  · exact heq
  · have hhours : unit = .hours := hspan.hours_unit
    have hwhole := (whole_of_toInt hspan.span).1
    rcases hunit with rfl | rfl | ⟨-, hpart⟩
    · cases hhours
    · cases hhours
    · exact absurd hwhole hpart
  · have hdays : unit = .calendarDays := hspan.days_unit
    rcases hunit with rfl | rfl | ⟨rfl, -⟩ <;> cases hdays

example :
    formatTarget 48 .hours = "2 days" ∧
    formatTarget (-24) .hours = "-1 days" := by
  decide +kernel

end Servcat
