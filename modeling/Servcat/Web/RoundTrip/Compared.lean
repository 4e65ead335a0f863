/-
The values that a condition compares with, loaded into the text fields of the
builder and read from them again.
-/
import Servcat.Web.Builder
import Servcat.Web.Listed

namespace Servcat

open Numeric
open JsValue (parse parseItems read? readItems?)

section Numbers

theorem abs_lt_of_double {q x : ℚ}
    (h : double q = some x) : |x| < 2 ^ 1024 := by
  unfold double at h
  split at h
  · rename_i hlt
    obtain rfl := Option.some.inj h
    exact hlt
  · cases h

theorem JsNumber.ofText_of_scriptNumber {raw : String} {x : ℚ}
    (h : scriptNumber raw = some x) : ofText raw = .finite x := by
  rw [ofText, h]

/-- `Number(String(x))` for a number from JSON. -/
theorem JsNumber.ofText_text_ofRat (q : ℚ) :
    ofText (ofRat q).text = ofRat q := by
  unfold ofRat
  split
  · rename_i x hx
    exact ofText_of_scriptNumber
      (scriptNumber_numberText (holds_of_double hx) (abs_lt_of_double hx))
  · cases decide (q < 0) <;> decide

theorem IsNumberChar.not_space {c : Char} (hc : IsNumberChar c) :
    isBrowserSpace c = false := by
  rcases hc with hdigit | rfl | rfl | rfl | rfl
  · have hrange : 48 ≤ c.toNat ∧ c.toNat ≤ 57 := by
      rw [Char.isDigit, Bool.and_eq_true, decide_eq_true_eq,
        decide_eq_true_eq] at hdigit
      exact ⟨UInt32.le_iff_toNat_le.mp hdigit.1,
        UInt32.le_iff_toNat_le.mp hdigit.2⟩
    simp only [isBrowserSpace, isWhitespace, Bool.or_eq_false_iff,
      Bool.and_eq_false_iff, decide_eq_false_iff_not, beq_eq_false_iff_ne]
    omega
  all_goals decide

theorem isPiece_text_ofRat (q : ℚ) :
    IsPiece isBrowserSpace (JsNumber.ofRat q).text := by
  unfold JsNumber.ofRat
  split
  · rename_i x hx
    obtain ⟨hne, hchars⟩ := numberText_chars (x := x)
    refine ⟨hne, ?_, trim_eq_self fun c hc => (hchars c hc).not_space⟩
    intro hcomma
    exact absurd (hchars ',' hcomma) (by unfold IsNumberChar; decide)
  · cases decide (q < 0) <;> decide

theorem spelled_natCast {n : ℕ} (hn : n < 2 ^ 53)
    (hround : binary64.round (spelled n) = n) : spelled n = n := by
  have hlt : ((spelled n : ℕ) : ℚ) < 2 ^ 53 := by
    apply Format.lt_of_round_lt binary64_precision (binary64_holds_two_pow 53)
      (by positivity)
    rw [hround]
    exact_mod_cast hn
  have hholds := binary64_holds_natCast (n := spelled n) (by exact_mod_cast hlt)
  rw [hholds.round_eq] at hround
  exact_mod_cast hround

/-- The script does not change the small integers. -/
theorem JsonNumber.stable_posInt (readFloat : ReadFloat) {n : UInt64}
    (hn : n.toNat < 2 ^ 53) : (posInt n).Stable readFloat := by
  have hholds : binary64.Holds (n.toNat : ℚ) := binary64_holds_natCast hn
  have hsmall : |(n.toNat : ℚ)| < 2 ^ 1024 := by
    rw [Nat.abs_cast]
    have hlt : (n.toNat : ℚ) < 2 ^ 53 := by exact_mod_cast hn
    exact hlt.trans (pow_lt_pow_right₀ one_lt_two (by omega))
  have hdouble : double n.toNat = some (n.toNat : ℚ) := by
    rw [double, hholds.round_eq, if_pos hsmall]
  unfold Stable reread? Servcat.reread? value
  rw [hdouble, Option.bind_some]
  rcases Nat.eq_zero_or_pos n.toNat with hzero | hpos
  · have hn0 : n = 0 := UInt64.toNat_inj.mp hzero
    subst hn0
    rfl
  · have hposq : (0 : ℚ) < n.toNat := by exact_mod_cast hpos
    rcases layOut_shortest hholds hposq with ⟨hreads, hround, -⟩ | ⟨-, hnot⟩
    · rw [spelled_natCast hn hround] at hreads
      simp only [readNumber, numberText_of_pos hposq, hreads.1]
      rw [if_pos n.toNat_lt, UInt64.ofNat_toNat]
    · exact absurd ⟨Rat.den_natCast _, by exact_mod_cast n.toNat_lt⟩ hnot

end Numbers

namespace Builder

variable {readFloat : ReadFloat} {ref : Ref}

section Compared

/-- The values that an equality can be checked with in the builder. -/
def KeepsCompared (readFloat : ReadFloat) : JsonValue → Prop
  | .string _ => True
  | .bool _ => True
  | .number n => n.Stable readFloat
  | _ => False

/-- The lists that the builder can write between commas. -/
def KeepsList (readFloat : ReadFloat) (values : List JsonValue) : Prop :=
  (∃ ns : List JsonNumber, values = ns.map .number ∧
    ∀ n ∈ ns, n.Stable readFloat) ∨ (∃ bs : List Bool, values = bs.map .bool) ∨
      ∃ ss : List String, values = ss.map .string ∧
        ∀ s ∈ ss, IsPiece isBrowserSpace s

theorem stable_iff {n : JsonNumber} :
    n.Readable readFloat ∧
    (JsonValue.number n).mapNumbers (·.reread? readFloat) = .number n ↔
      n.Stable readFloat := by
  rw [JsonValue.mapNumbers_number_eq_self]
  constructor
  · exact And.right
  · intro h
    refine ⟨?_, h⟩
    intro x hx
    have hread : readNumber readFloat (numberText x) = some n := by
      simpa [JsonNumber.Stable, JsonNumber.reread?, reread?, hx] using h
    rw [hread]
    rfl

theorem compared_iff (v : JsonValue) :
    ((textOrBlank? (parse ref v)).bind fun text =>
        (coerceValue text (valueType (parse ref v))).read? readFloat) = some v ↔
      KeepsCompared readFloat v := by
  cases v with
  | null =>
      simp [parse, textOrBlank?, coerceValue, valueType, read?, KeepsCompared]
  | bool b =>
      cases b <;>
        simp [parse, textOrBlank?, coerceValue, valueType, read?, KeepsCompared,
          JsValue.text?]
  | string s =>
      simp [parse, textOrBlank?, coerceValue, valueType, read?, KeepsCompared,
        JsValue.text?]
  | number n =>
      simp only [parse, textOrBlank?, JsValue.text?, Option.bind_some,
        valueType, coerceValue, JsNumber.ofText_text_ofRat,
        JsValue.read?_number_eq_some, KeepsCompared, stable_iff]
  | array items =>
      simp [parse, textOrBlank?, coerceValue, valueType, read?, KeepsCompared,
        Option.bind_eq_some_iff]
  | object entries =>
      simp [parse, textOrBlank?, coerceValue, valueType, read?, KeepsCompared,
        Option.bind_eq_some_iff]

/-- The text of a value that is not made of others. -/
def plainText : JsonValue → String
  | .bool b => if b then "true" else "false"
  | .number n => (JsNumber.ofRat n.value).text
  | .string s => s
  | _ => ""

def IsPlain : JsonValue → Prop
  | .array _ => False
  | .object _ => False
  | _ => True

theorem textOrBlank?_parse {v : JsonValue} (h : IsPlain v) :
    textOrBlank? (parse ref v) = some (plainText v) := by
  cases v with
  | null | bool _ | number _ | string _ => rfl
  | array _ | object _ => cases h

theorem itemTexts?_cons (item : JsValue) (rest : List JsValue) :
    JsValue.itemTexts? (item :: rest) =
      (textOrBlank? item).bind fun text =>
        (JsValue.itemTexts? rest).map (text :: ·) := by
  cases item <;> simp [JsValue.itemTexts?, textOrBlank?]

theorem itemTexts?_parseItems {values : List JsonValue}
    (h : ∀ v ∈ values, IsPlain v) (index : ℕ) :
    JsValue.itemTexts? (parseItems ref index values) = some
      (values.map plainText) := by
  induction values generalizing index with
  | nil => rfl
  | cons v rest ih =>
      rw [parseItems, itemTexts?_cons,
        textOrBlank?_parse (h v List.mem_cons_self),
        ih fun w hw => h w (List.mem_cons_of_mem _ hw)]
      rfl

theorem readItems?_map {α : Type} {f : α → JsValue} {values : List JsonValue}
    (l : List α) :
    readItems? readFloat (l.map f) = some values ↔
      List.Forall₂ (fun a v => (f a).read? readFloat = some v) l values := by
  rw [JsValue.readItems?_eq_mapM, List.mapM_map, mapM_eq_some]
  rfl

/-- The values of a list that is loaded and written again. -/
def rebuiltList (readFloat : ReadFloat)
    (values : List JsValue) : Option (List JsonValue) :=
  (JsValue.itemTexts? values).bind fun texts =>
    readItems? readFloat
      ((listed isBrowserSpace (String.intercalate ", " texts)).map fun v =>
      coerceValue v ((values.head?.map valueType).getD .string))

theorem isPiece_plainText_bool (b : Bool) :
    IsPiece isBrowserSpace (plainText (.bool b)) := by
  cases b <;> decide

theorem rebuiltList_of_pieces {values : List JsonValue}
    (hplain : ∀ v ∈ values, IsPlain v)
    (hpiece : ∀ v ∈ values, IsPiece isBrowserSpace (plainText v)) :
    rebuiltList readFloat (parseItems ref 0 values) = some values ↔
      ∀ v ∈ values, (coerceValue (plainText v)
        (((parseItems ref 0 values).head?.map valueType).getD .string)).read?
          readFloat = some v := by
  have hlisted : listed isBrowserSpace
      (String.intercalate ", " (values.map plainText)) =
      values.map plainText := by
    rw [listed_intercalate (by decide), List.filter_eq_self]
    · intro text htext
      obtain ⟨v, hv, rfl⟩ := List.mem_map.mp htext
      exact decide_eq_true (hpiece v hv).1
    · intro text htext
      obtain ⟨v, hv, rfl⟩ := List.mem_map.mp htext
      exact .inr (hpiece v hv)
  rw [rebuiltList, itemTexts?_parseItems hplain, Option.bind_some, hlisted,
    readItems?_map, List.forall₂_map_left_iff, List.forall₂_same]

/-- What a list of one type is read as. -/
theorem rebuiltList_eq_some {values : List JsonValue} {items : List JsValue}
    (h : rebuiltList readFloat items = some values) :
    ∃ texts, JsValue.itemTexts? items = some texts ∧
      List.Forall₂ (fun piece v =>
        (coerceValue piece ((items.head?.map valueType).getD .string)).read?
          readFloat = some v)
        (listed isBrowserSpace (String.intercalate ", " texts)) values := by
  obtain ⟨texts, htexts, hread⟩ := Option.bind_eq_some_iff.mp h
  exact ⟨texts, htexts, (readItems?_map _).mp hread⟩

/-- A blank that is not listed is missing from what comes back. -/
theorem numbers_of_length {values : List JsonValue}
    (hnumbers : ∀ v ∈ values, v = .null ∨ ∃ n, v = .number n)
    (hlength : (listed isBrowserSpace (String.intercalate ", "
      (values.map plainText))).length = values.length) :
    ∀ v ∈ values, ∃ n, v = .number n := by
  rw [listed_intercalate (by decide)] at hlength
  · intro v hv
    rcases hnumbers v hv with rfl | hn
    · have hblank := List.length_filter_eq_length_iff.mp
        (hlength.trans (List.length_map _).symm) ""
        (List.mem_map.mpr ⟨_, hv, rfl⟩)
      simp at hblank
    · exact hn
  · intro text htext
    obtain ⟨v, hv, rfl⟩ := List.mem_map.mp htext
    rcases hnumbers v hv with rfl | ⟨n, rfl⟩
    · exact .inl rfl
    · exact .inr (isPiece_text_ofRat _)

theorem exists_map_of_forall {α : Type} {f : α → JsonValue}
    {values : List JsonValue} (h : ∀ v ∈ values, ∃ a, v = f a) :
    ∃ l : List α, values = l.map f := by
  induction values with
  | nil => exact ⟨[], rfl⟩
  | cons v rest ih =>
      obtain ⟨a, rfl⟩ := h v List.mem_cons_self
      obtain ⟨l, rfl⟩ := ih fun w hw => h w (List.mem_cons_of_mem _ hw)
      exact ⟨a :: l, rfl⟩

theorem exists_of_forall₂ {α β : Type} {R : α → β → Prop} {l : List α}
    {m : List β} (h : List.Forall₂ R l m) {b : β}
    (hb : b ∈ m) : ∃ a ∈ l, R a b := by
  induction h with
  | nil => cases hb
  | cons hab _ ih =>
      rcases List.mem_cons.mp hb with rfl | hb
      · exact ⟨_, List.mem_cons_self, hab⟩
      · obtain ⟨a, ha, hR⟩ := ih hb
        exact ⟨a, List.mem_cons_of_mem _ ha, hR⟩

/-- The type that the builder takes for a list: that of its first value. -/
theorem listType_of_forall (type : ValueType) {values : List JsonValue}
    (h : ∀ v ∈ values, ∀ ref, valueType (parse ref v) = type) {v : JsonValue}
    (hv : v ∈ values) :
    ((parseItems ref 0 values).head?.map valueType).getD .string = type := by
  cases values with
  | nil => cases hv
  | cons first rest => exact h first List.mem_cons_self _

theorem coerceValue_number_iff (n : JsonNumber) :
    (coerceValue (plainText (.number n)) .number).read? readFloat = some
      (.number n) ↔ n.Stable readFloat := by
  rw [plainText, coerceValue, JsNumber.ofText_text_ofRat,
    JsValue.read?_number_eq_some, stable_iff]

theorem null_or_number_of_read? {x : JsNumber} {v : JsonValue}
    (h : read? readFloat (.number x) = some v) :
    v = .null ∨ ∃ n, v = .number n := by
  cases x with
  | finite x =>
      obtain ⟨n, -, rfl⟩ := Option.map_eq_some_iff.mp h
      exact .inr ⟨n, rfl⟩
  | infinity _ | nan => exact .inl (Option.some.inj h).symm

theorem keepsList_of_rebuiltList {values : List JsonValue}
    (h : rebuiltList readFloat (parseItems ref 0 values) = some values) :
    KeepsList readFloat values := by
  obtain ⟨texts, htexts, hread⟩ := rebuiltList_eq_some h
  cases htype : ((parseItems ref 0 values).head?.map valueType).getD
    .string with
  | string =>
      have hstrings : ∀ v ∈ values, ∃ s, v = JsonValue.string s := by
        intro v hv
        obtain ⟨piece, -, hpiece⟩ := exists_of_forall₂ hread hv
        rw [htype] at hpiece
        exact ⟨piece, (Option.some.inj hpiece).symm⟩
      obtain ⟨ss, rfl⟩ := exists_map_of_forall hstrings
      refine .inr (.inr ⟨ss, rfl, ?_⟩)
      intro s hs
      obtain ⟨piece, hmem, hpiece⟩ :=
        exists_of_forall₂ hread (List.mem_map_of_mem hs)
      rw [htype] at hpiece
      obtain rfl : piece = s := JsonValue.string.inj (Option.some.inj hpiece)
      exact isPiece_of_mem_listed hmem
  | boolean =>
      have hbools : ∀ v ∈ values, ∃ b, v = JsonValue.bool b := by
        intro v hv
        obtain ⟨piece, -, hpiece⟩ := exists_of_forall₂ hread hv
        rw [htype] at hpiece
        exact ⟨_, (Option.some.inj hpiece).symm⟩
      exact .inr (.inl (exists_map_of_forall hbools))
  | number =>
      have hnumbers : ∀ v ∈ values,
          v = .null ∨ ∃ n, v = JsonValue.number n := by
        intro v hv
        obtain ⟨piece, -, hpiece⟩ := exists_of_forall₂ hread hv
        rw [htype] at hpiece
        exact null_or_number_of_read? hpiece
      have hplain : ∀ v ∈ values, IsPlain v := by
        intro v hv
        rcases hnumbers v hv with rfl | ⟨n, rfl⟩ <;> trivial
      obtain rfl : values.map plainText = texts :=
        Option.some.inj ((itemTexts?_parseItems hplain 0).symm.trans htexts)
      obtain ⟨ns, rfl⟩ :=
        exists_map_of_forall (numbers_of_length hnumbers hread.length_eq)
      refine .inl ⟨ns, rfl, ?_⟩
      intro n hn
      have hpieces : ∀ v ∈ ns.map JsonValue.number,
          IsPiece isBrowserSpace (plainText v) := by
        intro v hv
        obtain ⟨n, -, rfl⟩ := List.mem_map.mp hv
        exact isPiece_text_ofRat _
      have hback :=
        (rebuiltList_of_pieces hplain hpieces).mp h _ (List.mem_map_of_mem hn)
      rw [htype] at hback
      exact (coerceValue_number_iff n).mp hback

/-- Pieces of one type come back. -/
theorem rebuiltList_map {α : Type} {f : α → JsonValue} {l : List α}
    {type : ValueType} (hplain : ∀ a, IsPlain (f a))
    (htype : ∀ a ref, valueType (parse ref (f a)) = type)
    (hpiece : ∀ a ∈ l, IsPiece isBrowserSpace (plainText (f a)))
    (hback : ∀ a ∈ l,
      (coerceValue (plainText (f a)) type).read? readFloat = some (f a)) :
    rebuiltList readFloat (parseItems ref 0 (l.map f)) = some (l.map f) := by
  rw [rebuiltList_of_pieces]
  · intro v hv
    rw [listType_of_forall type _ hv]
    · obtain ⟨a, ha, rfl⟩ := List.mem_map.mp hv
      exact hback a ha
    · intro w hw ref
      obtain ⟨a, -, rfl⟩ := List.mem_map.mp hw
      exact htype a ref
  · intro v hv
    obtain ⟨a, -, rfl⟩ := List.mem_map.mp hv
    exact hplain a
  · intro v hv
    obtain ⟨a, ha, rfl⟩ := List.mem_map.mp hv
    exact hpiece a ha

theorem rebuiltList_of_keepsList {values : List JsonValue}
    (h : KeepsList readFloat values) :
    rebuiltList readFloat (parseItems ref 0 values) = some values := by
  rcases h with ⟨ns, rfl, hstable⟩ | ⟨bs, rfl⟩ | ⟨ss, rfl, hpieces⟩
  · exact rebuiltList_map (fun _ => trivial) (fun _ _ => rfl)
      (fun _ _ => isPiece_text_ofRat _) fun n hn =>
        (coerceValue_number_iff n).mpr (hstable n hn)
  · refine rebuiltList_map (fun _ => trivial) (fun _ _ => rfl)
      (fun b _ => isPiece_plainText_bool b) fun b _ => ?_
    cases b <;> rfl
  · exact rebuiltList_map (fun _ => trivial) (fun _ _ => rfl) hpieces
      fun _ _ => rfl

theorem rebuiltList_iff (values : List JsonValue) :
    rebuiltList readFloat (parseItems ref 0 values) = some values ↔
      KeepsList readFloat values :=
  ⟨keepsList_of_rebuiltList, rebuiltList_of_keepsList⟩

end Compared

end Builder

end Servcat
