/-
Conditions that are loaded into the builder and written again.
-/
import Servcat.Web.RoundTrip.Compared
import Servcat.Model.Deserialize

namespace Servcat

open JsValue (parse parseItems read? readItems? literal)

namespace Builder

variable {readFloat : ReadFloat} {ref : Ref}

section Access

theorem get?_parse {entries : JsonMap} {key : String} {v : JsonValue}
    (h : entries.get? key = some v) :
    (parse ref (.object entries)).get? key = some (parse (key :: ref) v) := by
  rw [parse, JsValue.get?, JsValue.lookup_parseEntries, h]
  rfl

@[simp] theorem or_string (s : String) :
    (JsValue.string s).or (.string "") = .string s := by
  by_cases h : s = "" <;> simp [JsValue.or, JsValue.truthy, h]

theorem or_parse_object (entries : JsonMap) (other : JsValue) :
    (parse ref (.object entries)).or other = parse ref (.object entries) :=
  rfl

theorem or_array (items : List JsValue) (other : JsValue) :
    (JsValue.array ref items).or other = .array ref items :=
  rfl

theorem textOf?_parse {entries : JsonMap} {key s : String}
    (h : entries.get? key = some (.string s)) :
    textOf? (parse ref (.object entries)) key = some (.string s) := by
  rw [textOf?, get?_parse h, Option.map_some, parse, or_string]

theorem readEntries?_cons {key : String} {value : JsValue}
    {rest : List (String × JsValue)} (h : value ≠ .undefined) :
    JsValue.readEntries? readFloat ((key, value) :: rest) =
      (read? readFloat value).bind fun value =>
        (JsValue.readEntries? readFloat rest).map ((key, value) :: ·) := by
  cases value <;> first | exact absurd rfl h | simp only [JsValue.readEntries?]

theorem read?_array (items : List JsValue) :
    read? readFloat (.array ref items) =
      (readItems? readFloat items).map .array := by
  rw [read?]

end Access

section Conditions

/-- The condition of a branch that is loaded and written again. -/
def rebuiltCondition (readFloat : ReadFloat) (step : BuilderStep)
    (condition : JsValue) : Option JsonValue :=
  (hydrateCondition step condition).bind fun step =>
    (buildConditionJson step).read? readFloat

/-- The condition is an object whose operator is one that the
builder can edit. -/
def writesSimpleOp : JsonValue → Bool
  | .object entries =>
      match JsonMap.get? entries "op" with
      | some (.string op) => op ∈ ["equals", "not_equals", "exists", "in"]
      | _ => false
  | _ => false

/-- The conditions that come back when they are written anew. -/
def KeepsEdited (readFloat : ReadFloat) : Condition → Prop
  | .equals _ value => KeepsCompared readFloat value
  | .notEquals _ value => KeepsCompared readFloat value
  | .in _ values => KeepsList readFloat values
  | _ => True

/-- The conditions that come back from the builder: what it can edit is written
anew, and everything else as it was. -/
def KeepsCondition (readFloat : ReadFloat) (v : JsonValue)
    (c : Condition) : Prop :=
  if writesSimpleOp v then KeepsEdited readFloat c
  else (∀ n ∈ v.numbers, n.Readable readFloat) ∧
    ∀ n ∈ c.numbers, n.Stable readFloat

theorem fixesTags : Condition.FixesTags (·.reread? readFloat) := by
  intro n hn
  apply JsonNumber.stable_posInt
  calc
    n.toNat < 7 := hn
    _ < 2 ^ 53 := by norm_num

theorem rebuilt_verbatim {v : JsonValue} {c : Condition}
    (h : Condition.ofJson? v = some c) :
    ((read? readFloat (parse ref v)).bind Condition.ofJson? = some c) ↔
      (∀ n ∈ v.numbers, n.Readable readFloat) ∧
      ∀ n ∈ c.numbers, n.Stable readFloat := by
  simp only [Option.bind_eq_some_iff, JsValue.read?_parse, and_assoc,
    exists_and_left, exists_eq_left']
  rw [Condition.ofJson?_mapNumbers fixesTags h, Option.some.injEq,
    Condition.mapNumbers_eq_self]
  rfl

theorem read?_compared (op fieldKey text : String) (type : ValueType) :
    (literal [("op", .string op), ("field_key", .string fieldKey),
        ("value", coerceValue text type)]).read? readFloat =
      ((coerceValue text type).read? readFloat).map fun v =>
        .object [("op", .string op), ("field_key", .string fieldKey),
          ("value", v)] := by
  have hvalue : coerceValue text type ≠ .undefined := by
    cases type <;> simp [coerceValue]
  rw [literal, read?, readEntries?_cons (by simp), readEntries?_cons (by simp),
    readEntries?_cons hvalue]
  cases (coerceValue text type).read? readFloat <;> rfl

theorem rebuiltCondition_equals (step : BuilderStep) {entries : JsonMap}
    {op fieldKey : String} {value : JsonValue}
    (hop : op = "equals" ∨ op = "not_equals")
    (htag : entries.get? "op" = some (.string op))
    (hkey : entries.get? "field_key" = some (.string fieldKey))
    (hvalue : entries.get? "value" = some value) :
    rebuiltCondition readFloat step (parse ref (.object entries)) =
      ((textOrBlank? (parse ("value" :: ref) value)).bind fun text =>
        (coerceValue text (valueType (parse ("value" :: ref) value))).read?
          readFloat).map
          fun v =>
            .object [("op", .string op), ("field_key", .string fieldKey),
              ("value", v)] := by
  have hop' : (parse ref (.object entries)).get? "op" = some (.string op) :=
    get?_parse htag
  rcases hop with rfl | rfl
  · simp only [rebuiltCondition, hydrateCondition, or_parse_object, hop',
      get?_parse hvalue, textOf?_parse hkey, simpleOp?, Option.bind_eq_bind,
      Option.bind_some]
    cases textOrBlank? (parse ("value" :: ref) value) with
    | none => rfl
    | some text =>
        exact read?_compared "equals" fieldKey text
          (valueType (parse ("value" :: ref) value))
  · simp only [rebuiltCondition, hydrateCondition, or_parse_object, hop',
      get?_parse hvalue, textOf?_parse hkey, simpleOp?, Option.bind_eq_bind,
      Option.bind_some]
    cases textOrBlank? (parse ("value" :: ref) value) with
    | none => rfl
    | some text =>
        exact read?_compared "not_equals" fieldKey text
          (valueType (parse ("value" :: ref) value))

theorem rebuiltCondition_exists (step : BuilderStep) {entries : JsonMap}
    {fieldKey : String} (htag : entries.get? "op" = some (.string "exists"))
    (hkey : entries.get? "field_key" = some (.string fieldKey)) :
    rebuiltCondition readFloat step (parse ref (.object entries)) =
      some
        (.object [("op", .string "exists"),
          ("field_key", .string fieldKey)]) := by
  have hop' : (parse ref (.object entries)).get? "op" =
      some (.string "exists") :=
    get?_parse htag
  simp only [rebuiltCondition, hydrateCondition, or_parse_object, hop',
    textOf?_parse hkey, simpleOp?, Option.bind_eq_bind, Option.bind_some]
  rfl

theorem rebuiltCondition_in (step : BuilderStep) {entries : JsonMap}
    {fieldKey : String} {values : List JsonValue}
    (htag : entries.get? "op" = some (.string "in"))
    (hkey : entries.get? "field_key" = some (.string fieldKey))
    (hvalues : entries.get? "values" = some (.array values)) :
    rebuiltCondition readFloat step (parse ref (.object entries)) =
      (rebuiltList readFloat (parseItems ("values" :: ref) 0 values)).map
        fun values =>
        .object [("op", .string "in"), ("field_key", .string fieldKey),
          ("values", .array values)] := by
  have hop' : (parse ref (.object entries)).get? "op" = some (.string "in") :=
    get?_parse htag
  have hvalues' : (parse ref (.object entries)).get? "values" =
      some (.array ("values" :: ref) (parseItems ("values" :: ref) 0 values)) :=
    get?_parse hvalues
  simp only [rebuiltCondition, hydrateCondition, or_parse_object,
    hop', hvalues', textOf?_parse hkey, simpleOp?, Option.bind_eq_bind,
    Option.bind_some, or_array, rebuiltList]
  cases JsValue.itemTexts? (parseItems ("values" :: ref) 0 values) with
  | none => rfl
  | some texts =>
      simp only [Option.bind_some, buildConditionJson, simpleOp?]
      rw [literal, read?, readEntries?_cons (by simp),
        readEntries?_cons (by simp), readEntries?_cons (by simp), read?_array]
      generalize readItems? readFloat (List.map _ _) = built
      cases built <;> rfl

theorem hydrateCondition_verbatim {step : BuilderStep} {condition op : JsValue}
    (htruthy : condition.truthy = true) (hop : condition.get? "op" = some op)
    (hsimple : simpleOp? op = none) :
    rebuiltCondition readFloat step condition = condition.read? readFloat := by
  have hor : ∀ other, condition.or other = condition :=
    fun other => if_pos htruthy
  simp [rebuiltCondition, hydrateCondition, hor, hop, hsimple,
    buildConditionJson, htruthy]

/-- What the builder cannot edit it keeps as it is. -/
theorem rebuiltCondition_verbatim (step : BuilderStep) {v : JsonValue}
    (htagged : (v.tagged? "op").isSome = true)
    (hsimple : writesSimpleOp v = false) :
    rebuiltCondition readFloat step (parse ref v) = read? readFloat
      (parse ref v) := by
  cases v with
  | null | bool _ | number _ | string _ => cases htagged
  | array items => exact hydrateCondition_verbatim rfl rfl rfl
  | object entries =>
      cases htag : JsonMap.get? entries "op" with
      | none => simp [JsonValue.tagged?, htag] at htagged
      | some tag =>
          refine hydrateCondition_verbatim rfl (get?_parse htag) ?_
          cases tag with
          | string op =>
              have hnot : op ∉ ["equals", "not_equals", "exists", "in"] := by
                simpa [writesSimpleOp, htag] using hsimple
              simp only [List.mem_cons, List.not_mem_nil, or_false,
                not_or] at hnot
              simp [parse, simpleOp?, hnot]
          | _ => rfl

theorem exists_of_writesSimpleOp {v : JsonValue} (h : writesSimpleOp v = true) :
    ∃ entries op, v = .object entries ∧
      JsonMap.get? entries "op" = some (.string op) ∧
      (op = "equals" ∨ op = "not_equals" ∨ op = "exists" ∨ op = "in") := by
  cases v with
  | object entries =>
      simp only [writesSimpleOp] at h
      split at h
      · rename_i op hop
        exact ⟨entries, op, rfl, hop, by simpa using h⟩
      · cases h
  | _ => cases h

/-- A value that is read as a part `k` of what the whole is read as. -/
theorem map_bind_part {α β γ δ : Type} {x : Option α} {f : α → β}
    {read : β → Option γ} {p : α → Option δ} {k : δ → γ}
    (hread : ∀ a, read (f a) = (p a).map k) (hk : ∀ d e, k d = k e → d = e)
    {d : δ} : (x.map f).bind read = some (k d) ↔ x.bind p = some d := by
  cases x with
  | none => simp
  | some a =>
      simp only [Option.map_some, Option.bind_some, hread,
        Option.map_eq_some_iff]
      constructor
      · rintro ⟨e, he, hke⟩
        rw [he, hk e d hke]
      · exact fun h => ⟨d, h, rfl⟩

theorem map_bind_eq_some {α β γ : Type} {x : Option α} {f : α → β}
    {read : β → Option γ} {k : α → γ} (hread : ∀ a, read (f a) = some (k a))
    (hk : ∀ a b, k a = k b → a = b) {a : α} :
    (x.map f).bind read = some (k a) ↔ x = some a := by
  rw [map_bind_part (p := some) hread hk, Option.bind_fun_some]

/-- A condition that the builder edits. -/
theorem keepsEdited_iff (step : BuilderStep) {entries : JsonMap} {op : String}
    {c : Condition} (htag : entries.get? "op" = some (.string op))
    (hop : op = "equals" ∨ op = "not_equals" ∨ op = "exists" ∨ op = "in")
    (hwritten : c.Written (.string op) (.object entries)) :
    (rebuiltCondition readFloat step (parse ref (.object entries))).bind
      Condition.ofJson? = some c ↔ KeepsEdited readFloat c := by
  rcases hop with rfl | rfl | rfl | rfl
  · cases c with
    | equals fieldKey value =>
        obtain ⟨-, hkey, hvalue⟩ := hwritten
        rw [rebuiltCondition_equals step (.inl rfl) htag hkey hvalue,
          KeepsEdited, ← compared_iff value]
        apply map_bind_eq_some
        · exact fun v => Condition.ofJson?_of_written rfl ⟨rfl, rfl, rfl⟩
        · exact fun _ _ h => (Condition.equals.inj h).2
    | _ => exact absurd hwritten.1 (by decide)
  · cases c with
    | notEquals fieldKey value =>
        obtain ⟨-, hkey, hvalue⟩ := hwritten
        rw [rebuiltCondition_equals step (.inr rfl) htag hkey hvalue,
          KeepsEdited, ← compared_iff value]
        apply map_bind_eq_some
        · exact fun v => Condition.ofJson?_of_written rfl ⟨rfl, rfl, rfl⟩
        · exact fun _ _ h => (Condition.notEquals.inj h).2
    | _ => exact absurd hwritten.1 (by decide)
  · cases c with
    | «exists» fieldKey =>
        obtain ⟨-, hkey⟩ := hwritten
        rw [rebuiltCondition_exists step htag hkey, Option.bind_some]
        exact iff_of_true (Condition.ofJson?_of_written rfl ⟨rfl, rfl⟩) trivial
    | _ => exact absurd hwritten.1 (by decide)
  · cases c with
    | «in» fieldKey values =>
        obtain ⟨-, hkey, hvalues⟩ := hwritten
        rw [rebuiltCondition_in step htag hkey hvalues, KeepsEdited,
          ← rebuiltList_iff values]
        apply map_bind_eq_some
        · exact fun values => Condition.ofJson?_of_written rfl ⟨rfl, rfl, rfl⟩
        · exact fun _ _ h => (Condition.in.inj h).2
    | _ => exact absurd hwritten.1 (by decide)

theorem keepsCondition_iff (step : BuilderStep) {v : JsonValue} {c : Condition}
    (h : Condition.ofJson? v = some c) :
    (rebuiltCondition readFloat step (parse ref v)).bind
      Condition.ofJson? = some c ↔
      KeepsCondition readFloat v c := by
  obtain ⟨tag, content, htagged, hwritten⟩ := Condition.written_of_ofJson? h
  unfold KeepsCondition
  split
  · rename_i hsimple
    obtain ⟨entries, op, rfl, htag, hop⟩ := exists_of_writesSimpleOp hsimple
    rw [JsonValue.tagged?, htag] at htagged
    obtain ⟨rfl, rfl⟩ := Prod.mk.inj (Option.some.inj htagged)
    exact keepsEdited_iff step htag hop hwritten
  · rename_i hsimple
    rw [rebuiltCondition_verbatim step (by simp [htagged])
      (by simpa using hsimple), rebuilt_verbatim h]

end Conditions

end Builder

end Servcat
