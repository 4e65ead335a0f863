/-
Approver rules and kinds of steps that are loaded into the builder and
written again.
-/
import Servcat.Web.RoundTrip.Conditions

namespace Servcat

open JsValue (parse parseItems read? readItems? readItems?_eq_mapM literal)

namespace Builder

variable {readFloat : ReadFloat} {ref : Ref}

section Kinds

variable {parseUuid : String → Option Uuid}

/-- The name of a variant comes back in the form in which it was given. -/
theorem unitVariant?_parse {α : Type} {variants : List (String × α)}
    {v : JsonValue} {a : α} (h : v.unitVariant? variants = some a)
    (hblank : variants.lookup "" = none) :
    (parse ref v).truthy = true ∧ read? readFloat (parse ref v) = some v := by
  unfold JsonValue.unitVariant? at h
  split at h
  · rename_i name
    refine ⟨?_, rfl⟩
    have hname : name ≠ "" := by
      rintro rfl
      rw [hblank] at h
      cases h
    simpa [parse, JsValue.truthy] using hname
  · exact ⟨rfl, rfl⟩
  · exact ⟨rfl, rfl⟩
  · cases h

theorem or_of_truthy {value other : JsValue} (h : value.truthy = true) :
    value.or other = value :=
  if_pos h

theorem mem_of_lookup {α : Type} {variants : List (String × α)} {name : String}
    {a : α} (h : variants.lookup name = some a) : (name, a) ∈ variants := by
  obtain ⟨before, after, rfl, -⟩ := List.lookup_eq_some_iff.mp h
  simp

/-- The approver rule of a step that is loaded and written again. -/
def rebuiltResolution (readFloat : ReadFloat) (step : BuilderStep)
    (resolution : JsValue) : Option JsonValue :=
  (hydrateApproverResolution step resolution).bind fun step =>
    (buildApproverResolutionJson step).read? readFloat

/-- The approver rules that come back: those whose type is a text, and the one
that the builder takes for what it does not know. -/
def KeepsResolution (v : JsonValue) (r : ApproverResolution) : Prop :=
  r = .managerOfRequester ∨
    ∃ entries type, v = .object entries ∧
      JsonMap.get? entries "type" = some (.string type)

theorem rebuiltResolution_default (step : BuilderStep)
    {resolution type : JsValue} (htruthy : resolution.truthy = true)
    (htype : resolution.get? "type" = some type)
    (hstatic : type ≠ .string "static")
    (hrole : type ≠ .string "role_in_department") :
    rebuiltResolution readFloat step resolution =
      some (.object [("type", .string "manager_of_requester")]) := by
  have hor : type.or (.string "manager_of_requester") ≠ .string "static" ∧
      type.or (.string "manager_of_requester") ≠
        .string "role_in_department" := by
    unfold JsValue.or
    split
    · exact ⟨hstatic, hrole⟩
    · exact ⟨by simp, by simp⟩
  simp only [rebuiltResolution, hydrateApproverResolution,
    or_of_truthy htruthy, htype, Option.bind_eq_bind, Option.bind_some]
  generalize type.or (.string "manager_of_requester") = approverType at hor
  split
  · exact absurd rfl hor.1
  · exact absurd rfl hor.2
  · simp only [Option.bind_some, buildApproverResolutionJson]
    rfl

theorem rebuiltResolution_static (step : BuilderStep) {entries : JsonMap}
    {userId : String} (htype : entries.get? "type" = some (.string "static"))
    (huser : entries.get? "user_id" = some (.string userId)) :
    rebuiltResolution readFloat step (parse ref (.object entries)) =
      some
        (.object [("type", .string "static"),
          ("user_id", .string userId)]) := by
  have htype' : (parse ref (.object entries)).get? "type" =
      some (.string "static") :=
    get?_parse htype
  have hor : (JsValue.string "static").or (.string "manager_of_requester") =
      .string "static" := or_of_truthy (by decide)
  simp only [rebuiltResolution, hydrateApproverResolution, or_parse_object,
    htype', hor, textOf?_parse huser, Option.bind_eq_bind, Option.bind_some]
  rfl

theorem rebuiltResolution_role (step : BuilderStep) {entries : JsonMap}
    {role : JsonValue}
    (htype : entries.get? "type" = some (.string "role_in_department"))
    (hrole : entries.get? "role" = some role)
    (hback : ∀ ref, (parse ref role).truthy = true ∧
      read? readFloat (parse ref role) = some role) :
    rebuiltResolution readFloat step (parse ref (.object entries)) =
      some
        (.object [("type", .string "role_in_department"), ("role", role)]) := by
  have htype' : (parse ref (.object entries)).get? "type" =
      some (.string "role_in_department") := get?_parse htype
  have hor : (JsValue.string "role_in_department").or
      (.string "manager_of_requester") =
      .string "role_in_department" := or_of_truthy (by decide)
  obtain ⟨htruthy, hread⟩ := hback ("role" :: ref)
  have hdefined : parse ("role" :: ref) role ≠ .undefined := by
    intro h
    rw [h] at htruthy
    cases htruthy
  simp only [rebuiltResolution, hydrateApproverResolution, or_parse_object,
    htype', hor, get?_parse hrole, or_of_truthy htruthy, Option.bind_eq_bind,
    Option.bind_some, buildApproverResolutionJson]
  rw [literal, read?, readEntries?_cons (by simp),
    readEntries?_cons hdefined, hread]
  rfl

theorem static_of_ofJson? {entries : JsonMap} {r : ApproverResolution}
    (h : (do
      let entries ← JsonValue.record? ["user_id"] (.object entries)
      some (ApproverResolution.static
        (← entries.field? (fun id => id.string?.bind parseUuid) "user_id"))) =
          some r) :
    ∃ userId, entries.get? "user_id" = some (.string userId) ∧
      (parseUuid userId).map ApproverResolution.static = some r := by
  simp only [JsonValue.record?, JsonMap.field?, Option.bind_eq_bind,
    Option.bind_some, Option.bind_eq_some_iff] at h
  obtain ⟨id, ⟨value, hvalue, userId, huser, hid⟩, hr⟩ := h
  cases value with
  | string s =>
      obtain rfl := Option.some.inj huser
      exact ⟨s, hvalue, by rw [hid]; exact hr⟩
  | _ => cases huser

theorem role_of_ofJson? {entries : JsonMap} {r : ApproverResolution}
    (h : (do
      let entries ← JsonValue.record? ["role"] (.object entries)
      some (ApproverResolution.roleInDepartment
        (← entries.field? (JsonValue.unitVariant? Role.variants) "role"))) =
          some r) :
    ∃ role, entries.get? "role" = some role ∧
      (role.unitVariant? Role.variants).map
        ApproverResolution.roleInDepartment = some r := by
  simp only [JsonValue.record?, JsonMap.field?, Option.bind_eq_bind,
    Option.bind_some, Option.bind_eq_some_iff] at h
  obtain ⟨role, ⟨value, hvalue, hrole⟩, hr⟩ := h
  exact ⟨value, hvalue, by rw [hrole]; exact hr⟩

/-- A type that the builder does not know. -/
theorem keepsResolution_unknown (step : BuilderStep) {v : JsonValue}
    {r : ApproverResolution} {type : JsValue}
    (htruthy : (parse ref v).truthy = true)
    (htype : (parse ref v).get? "type" = some type)
    (hunknown : ∀ name, type ≠ .string name)
    (hform : ∀ entries name, v = .object entries →
      JsonMap.get? entries "type" ≠ some (.string name)) :
    (rebuiltResolution readFloat step (parse ref v)).bind
        (ApproverResolution.ofJson? parseUuid) = some r ↔
          KeepsResolution v r := by
  rw [rebuiltResolution_default step htruthy htype (hunknown _) (hunknown _)]
  show some ApproverResolution.managerOfRequester = some r ↔ _
  constructor
  · exact fun h => .inl (Option.some.inj h).symm
  · rintro (rfl | ⟨entries, name, hv, hname⟩)
    · rfl
    · exact absurd hname (hform entries name hv)

theorem keepsResolution_iff (step : BuilderStep) {v : JsonValue}
    {r : ApproverResolution}
    (h : ApproverResolution.ofJson? parseUuid v = some r) :
    (rebuiltResolution readFloat step (parse ref v)).bind
        (ApproverResolution.ofJson? parseUuid) = some r ↔
          KeepsResolution v r := by
  simp only [ApproverResolution.ofJson?, Option.bind_eq_bind,
    Option.bind_eq_some_iff] at h
  obtain ⟨⟨tag, content⟩, htagged, variant, hvariant, h⟩ := h
  cases v with
  | null | bool _ | number _ | string _ => cases htagged
  | array items =>
      exact keepsResolution_unknown step rfl rfl (by simp) (by simp)
  | object entries =>
      obtain ⟨tag', htag, htagged⟩ := Option.map_eq_some_iff.mp htagged
      obtain ⟨rfl, rfl⟩ := Prod.mk.inj htagged
      cases tag' with
      | null | bool _ | array _ | object _ => cases hvariant
      | number n =>
          refine keepsResolution_unknown step rfl (get?_parse htag)
            (by simp [parse]) ?_
          rintro entries' name ⟨⟩ hname
          rw [htag] at hname
          cases hname
      | string name =>
          refine iff_of_true ?_ (.inr ⟨entries, name, rfl, htag⟩)
          have hmem := mem_of_lookup hvariant
          simp only [ApproverTag.variants, List.mem_cons, Prod.mk.injEq,
            List.not_mem_nil, or_false] at hmem
          rcases hmem with ⟨rfl, rfl⟩ | ⟨rfl, rfl⟩ | ⟨rfl, rfl⟩
          · obtain ⟨userId, huser, hid⟩ := static_of_ofJson? h
            rw [rebuiltResolution_static step htag huser, Option.bind_some]
            rw [← hid]
            show (Option.bind (parseUuid userId) _) = _
            cases parseUuid userId <;> rfl
          · rw [rebuiltResolution_default step rfl (get?_parse htag)
              (by simp [parse]) (by simp [parse])]
            exact h
          · obtain ⟨role, hrole, hr⟩ := role_of_ofJson? h
            obtain ⟨variant, hvariant, -⟩ := Option.map_eq_some_iff.mp hr
            rw [rebuiltResolution_role step htag hrole fun _ =>
                unitVariant?_parse hvariant rfl, Option.bind_some, ← hr]
            show Option.bind (role.unitVariant? Role.variants) _ = _
            cases role.unitVariant? Role.variants <;> rfl

section Lists

/-- Item by item. -/
theorem forall₂_parseItems {β : Type} {R : JsValue → β → Prop}
    {S D : JsonValue → β → Prop} {items : List JsonValue} {m : List β}
    (hD : List.Forall₂ D items m)
    (h : ∀ ref v b, D v b → (R (parse ref v) b ↔ S v b)) (index : ℕ) :
    List.Forall₂ R (parseItems ref index items) m ↔ List.Forall₂ S items m := by
  induction hD generalizing index with
  | nil => simp [parseItems]
  | cons hd _ ih => simp only [parseItems, List.forall₂_cons, h _ _ _ hd, ih]

end Lists

section Options

def optionToJson (o : BuilderOption) : JsValue :=
  literal [("value", o.value), ("label", o.label)]

/-- The options of a question that are loaded and written again. -/
def rebuiltOptions (readFloat : ReadFloat) (options : List JsValue) :
    Option (List QuestionOption) :=
  ((options.mapM hydrateOption).bind fun options =>
    readItems? readFloat (options.map optionToJson)).bind
      (List.mapM QuestionOption.ofJson?)

/-- The options that come back: the builder takes those that are not objects for
blank ones. -/
def KeepsOption (v : JsonValue) (o : QuestionOption) : Prop :=
  o = ⟨"", ""⟩ ∨ ∃ entries, v = .object entries

theorem rebuiltOption_iff {v : JsonValue} {o : QuestionOption}
    (h : QuestionOption.ofJson? v = some o) :
    ((hydrateOption (parse ref v)).bind fun o =>
        (read? readFloat (optionToJson o)).bind QuestionOption.ofJson?) =
          some o ↔
      KeepsOption v o := by
  simp only [QuestionOption.ofJson?, Option.bind_eq_bind,
    Option.bind_eq_some_iff, JsonMap.field?_string?_eq_some,
    Option.some.injEq] at h
  obtain ⟨entries, hrecord, value, hvalue, label, hlabel, rfl⟩ := h
  cases v with
  | null | bool _ | number _ | string _ => cases hrecord
  | array items =>
      show some (⟨"", ""⟩ : QuestionOption) = some ⟨value, label⟩ ↔ _
      simp [KeepsOption, eq_comm]
  | object entries =>
      obtain rfl := Option.some.inj hrecord
      simp only [hydrateOption, textOf?_parse hvalue, textOf?_parse hlabel,
        Option.bind_eq_bind, Option.bind_some]
      exact iff_of_true rfl (.inr ⟨_, rfl⟩)

theorem rebuiltOptions_iff (ref : Ref) {items : List JsonValue}
    {options : List QuestionOption}
    (h : items.mapM QuestionOption.ofJson? = some options) (index : ℕ) :
    rebuiltOptions readFloat (parseItems ref index items) = some options ↔
      List.Forall₂ KeepsOption items options := by
  have hstep : ∀ options : List BuilderOption,
      readItems? readFloat (options.map optionToJson) =
        options.mapM fun o => read? readFloat (optionToJson o) := by
    intro options
    rw [readItems?_eq_mapM, List.mapM_map]
    rfl
  rw [rebuiltOptions]
  simp only [hstep]
  rw [mapM_bind_mapM, mapM_bind_mapM, mapM_eq_some]
  exact forall₂_parseItems (mapM_eq_some.mp h) (fun ref v o ho => by
    rw [Option.bind_assoc]
    exact rebuiltOption_iff ho) index

end Options

section Specs

variable {step : BuilderStep} {k : JsValue}

theorem string_inj {value : JsValue} {s t : String} (hs : value = .string s)
    (ht : value = .string t) : s = t :=
  JsValue.string.inj (hs.symm.trans ht)

theorem hydrateFields_question (h : step.kind = .string "question") :
    hydrateFields step k =
      (k.get? "options").bind fun options =>
        (match options.or (.array [] []) with
          | .array _ items => items.mapM hydrateOption
          | _ => none).bind fun options =>
            (textOf? k "field_key").bind fun fieldKey =>
              (k.get? "input_type").bind fun inputType =>
                (k.get? "required").bind fun required =>
                  (textOf? k "next").map fun next =>
                    { step with
                      fieldKey := fieldKey,
                      inputType := inputType.or (.string "text"),
                      required := required.truthy, options := options,
                      next := next } := by
  unfold hydrateFields
  split
  case h_1 =>
    simp only [Option.bind_eq_bind, Option.map_eq_bind]
    congr 1
    funext options
    generalize options.or (.array [] []) = options
    cases options <;> rfl
  case h_6 => exact absurd h ‹_›
  all_goals exact absurd (string_inj h ‹_›) (by decide)

theorem hydrateFields_branch (h : step.kind = .string "branch") :
    hydrateFields step k =
      (k.get? "condition").bind fun condition =>
        (hydrateCondition step condition).bind fun step =>
          (textOf? k "on_true").bind fun onTrue =>
            (textOf? k "on_false").map fun onFalse =>
              { step with onTrue := onTrue, onFalse := onFalse } := by
  unfold hydrateFields
  split
  case h_2 =>
    simp only [Option.bind_eq_bind, Option.map_eq_bind]
    rfl
  case h_6 => exact absurd h ‹_›
  all_goals exact absurd (string_inj h ‹_›) (by decide)

theorem hydrateFields_waitForApproval
    (h : step.kind = .string "wait_for_approval") :
    hydrateFields step k =
      (k.get? "approver_resolution").bind fun resolution =>
        (hydrateApproverResolution step resolution).bind fun step =>
          (textOf? k "on_approve").bind fun onApprove =>
            (textOf? k "on_reject").bind fun onReject =>
              (k.get? "timeout_seconds").bind fun value =>
                (textOrBlank? value).map fun text =>
                  { step with
                    onApprove := onApprove, onReject := onReject,
                    timeoutSeconds := text } := by
  unfold hydrateFields
  split
  case h_3 =>
    simp only [Option.bind_eq_bind, Option.map_eq_bind]
    rfl
  case h_6 => exact absurd h ‹_›
  all_goals exact absurd (string_inj h ‹_›) (by decide)

theorem hydrateFields_submitTicket (h : step.kind = .string "submit_ticket") :
    hydrateFields step k = (textOf? k "next").map fun next =>
      { step with next := next } := by
  unfold hydrateFields
  split
  case h_4 =>
    rw [Option.map_eq_bind]
    rfl
  case h_6 => exact absurd h ‹_›
  all_goals exact absurd (string_inj h ‹_›) (by decide)

theorem hydrateFields_end (h : step.kind = .string "end") :
    hydrateFields step k = (k.get? "outcome").map fun outcome =>
      { step with outcome := outcome.or (.string "completed") } := by
  unfold hydrateFields
  split
  case h_5 =>
    rw [Option.map_eq_bind]
    rfl
  case h_6 => exact absurd h ‹_›
  all_goals exact absurd (string_inj h ‹_›) (by decide)

theorem kindToJson_question (h : step.kind = .string "question") :
    kindToJson step = literal
      [("type", .string "question"), ("field_key", step.fieldKey),
      ("input_type", step.inputType), ("required", .boolean step.required),
      ("options", .array []
        (if isChoiceInput step.inputType then step.options.map optionToJson
         else [])),
      ("next", step.next)] := by
  unfold kindToJson
  split
  case h_1 => rfl
  case h_6 => exact absurd h ‹_›
  all_goals exact absurd (string_inj h ‹_›) (by decide)

theorem kindToJson_branch (h : step.kind = .string "branch") :
    kindToJson step = literal [("type", .string "branch"),
      ("condition", buildConditionJson step), ("on_true", step.onTrue),
      ("on_false", step.onFalse)] := by
  unfold kindToJson
  split
  case h_2 => rfl
  case h_6 => exact absurd h ‹_›
  all_goals exact absurd (string_inj h ‹_›) (by decide)

theorem kindToJson_waitForApproval
    (h : step.kind = .string "wait_for_approval") :
    kindToJson step = literal [("type", .string "wait_for_approval"),
      ("approver_resolution", buildApproverResolutionJson step),
      ("on_approve", step.onApprove), ("on_reject", step.onReject),
      ("timeout_seconds",
        if step.timeoutSeconds = "" then .null
        else .number (.ofText step.timeoutSeconds))] := by
  unfold kindToJson
  split
  case h_3 => rfl
  case h_6 => exact absurd h ‹_›
  all_goals exact absurd (string_inj h ‹_›) (by decide)

theorem kindToJson_submitTicket (h : step.kind = .string "submit_ticket") :
    kindToJson step = literal
      [("type", .string "submit_ticket"), ("next", step.next)] := by
  unfold kindToJson
  split
  case h_4 => rfl
  case h_6 => exact absurd h ‹_›
  all_goals exact absurd (string_inj h ‹_›) (by decide)

theorem kindToJson_end (h : step.kind = .string "end") :
    kindToJson step = literal
      [("type", .string "end"), ("outcome", step.outcome)] := by
  unfold kindToJson
  split
  case h_5 => rfl
  case h_6 => exact absurd h ‹_›
  all_goals exact absurd (string_inj h ‹_›) (by decide)

end Specs

/-- The kind of a step that is loaded and written again. -/
def rebuiltKind (readFloat : ReadFloat) (step : BuilderStep) (k : JsValue) :
    Option JsonValue :=
  (hydrateFields step k).bind fun step => (kindToJson step).read? readFloat

/-- The input type is written as the name of one that has options. -/
def WritesChoice (entries : JsonMap) : Prop :=
  entries.get? "input_type" = some (.string "select") ∨
    entries.get? "input_type" = some (.string "multi_select")

instance (entries : JsonMap) : Decidable (WritesChoice entries) :=
  inferInstanceAs (Decidable (_ ∨ _))

/-- Only choices keep their options. -/
def KeepsOptions (entries : JsonMap) (options : List QuestionOption) : Prop :=
  if WritesChoice entries then
    ∀ items, entries.get? "options" = some (.array items) →
      List.Forall₂ KeepsOption items options
  else options = []

/-- The time comes back from the script as it was. -/
def KeepsTimeout (readFloat : ReadFloat)
    (timeoutSeconds : Option Int64) : Prop :=
  ∀ seconds, timeoutSeconds = some seconds →
    ((reread? readFloat seconds.toInt).bind
      fun n => (JsonValue.number n).int64?) = some seconds

/-- The kinds of steps that come back. -/
def KeepsKind (readFloat : ReadFloat) (entries : JsonMap) : StepKind → Prop
  | .question _ _ _ options _ => KeepsOptions entries options
  | .branch condition _ _ =>
      ∀ v, entries.get? "condition" = some v →
        KeepsCondition readFloat v condition
  | .waitForApproval resolution _ _ timeoutSeconds =>
      (∀ v, entries.get? "approver_resolution" = some v →
        KeepsResolution v resolution) ∧ KeepsTimeout readFloat timeoutSeconds
  | .submitTicket _ => True
  | .end _ => True

theorem isChoiceInput_parse (v : JsonValue) :
    isChoiceInput (parse ref v) = true ↔
      v = .string "select" ∨ v = .string "multi_select" := by
  cases v with
  | string s =>
      simp only [parse, isChoiceInput, JsonValue.string.injEq]
      split <;> simp_all
  | _ => simp [parse, isChoiceInput]

theorem rebuiltKind_submitTicket {step : BuilderStep} {entries : JsonMap}
    {next : String} (hkind : step.kind = .string "submit_ticket")
    (hnext : entries.get? "next" = some (.string next)) :
    (rebuiltKind readFloat step (parse ref (.object entries))).bind
      (StepKind.ofJson? parseUuid) = some (.submitTicket next) := by
  rw [rebuiltKind, hydrateFields_submitTicket hkind, textOf?_parse hnext,
    Option.map_some, Option.bind_some, kindToJson_submitTicket]
  · rfl
  · exact hkind

theorem rebuiltKind_end {step : BuilderStep} {entries : JsonMap} {v : JsonValue}
    {outcome : EndOutcome} (hkind : step.kind = .string "end")
    (hv : entries.get? "outcome" = some v)
    (houtcome : v.unitVariant? EndOutcome.variants = some outcome) :
    (rebuiltKind readFloat step (parse ref (.object entries))).bind
      (StepKind.ofJson? parseUuid) = some (.end outcome) := by
  obtain ⟨htruthy, hread⟩ : (parse ("outcome" :: ref) v).truthy = true ∧
      read? readFloat (parse ("outcome" :: ref) v) = some v :=
    unitVariant?_parse houtcome rfl
  have hdefined : parse ("outcome" :: ref) v ≠ .undefined := by
    intro h
    rw [h] at htruthy
    cases htruthy
  rw [rebuiltKind, hydrateFields_end hkind, get?_parse hv, Option.map_some,
    Option.bind_some, or_of_truthy htruthy, kindToJson_end, literal, read?,
    readEntries?_cons (by simp), readEntries?_cons hdefined, hread]
  · show Option.bind (v.unitVariant? EndOutcome.variants) _ = _
    rw [houtcome]
    rfl
  · exact hkind

theorem exists_hydrateOptions (ref : Ref) {items : List JsonValue}
    {options : List QuestionOption}
    (h : items.mapM QuestionOption.ofJson? = some options) (index : ℕ) :
    ∃ built, (parseItems ref index items).mapM hydrateOption = some built := by
  induction items generalizing options index with
  | nil => exact ⟨[], rfl⟩
  | cons v rest ih =>
      obtain ⟨o, rest', ho, hrest, rfl⟩ :=
        List.forall₂_cons_left_iff.mp (mapM_eq_some.mp h)
      obtain ⟨built, hbuilt⟩ := ih (mapM_eq_some.mpr hrest) (index + 1)
      have hv : ∃ b,
          hydrateOption (parse (toString index :: ref) v) = some b := by
        cases v with
        | null | bool _ | number _ | string _ => cases ho
        | array _ | object _ => exact ⟨_, rfl⟩
      obtain ⟨b, hb⟩ := hv
      refine ⟨b :: built, ?_⟩
      rw [parseItems, List.mapM_cons, hb, hbuilt]
      rfl

theorem read?_question {inputType : JsValue} {v : JsonValue}
    (hdefined : inputType ≠ .undefined)
    (hread : inputType.read? readFloat = some v) (fieldKey next : String)
    (required : Bool) (options : List JsValue) :
    (literal [("type", .string "question"), ("field_key", .string fieldKey),
        ("input_type", inputType), ("required", .boolean required),
        ("options", .array [] options), ("next", .string next)]).read?
          readFloat =
      (readItems? readFloat options).map fun options =>
        .object [("type", .string "question"), ("field_key", .string fieldKey),
          ("input_type", v), ("required", .bool required),
            ("options", .array options),
          ("next", .string next)] := by
  rw [literal, read?, readEntries?_cons (by simp), readEntries?_cons (by simp),
    readEntries?_cons hdefined, readEntries?_cons (by simp),
      readEntries?_cons (by simp),
    readEntries?_cons (by simp), hread, read?_array]
  cases readItems? readFloat options <;> rfl

/-- The options of a question, and what the builder finds in their place. -/
theorem exists_options (ref : Ref) {entries : JsonMap}
    {options : List QuestionOption} (h : (match entries.get? "options" with
      | none => some []
      | some options => options.list? QuestionOption.ofJson?) = some options) :
    ∃ items ref' value, items.mapM QuestionOption.ofJson? = some options ∧
      (parse ref (.object entries)).get? "options" = some value ∧
      value.or (.array [] []) = .array ref' (parseItems ref' 0 items) ∧
      (KeepsOptions entries options ↔
        if WritesChoice entries then List.Forall₂ KeepsOption items options
        else options = []) := by
  cases hget : entries.get? "options" with
  | none =>
      rw [hget] at h
      obtain rfl := Option.some.inj h
      refine ⟨[], [], .undefined, rfl, ?_, rfl, ?_⟩
      · rw [parse, JsValue.get?, JsValue.lookup_parseEntries, hget]
        rfl
      · simp [KeepsOptions, hget]
  | some value =>
      rw [hget] at h
      obtain ⟨items, harray, hitems⟩ := Option.bind_eq_some_iff.mp h
      cases value with
      | array items' =>
          obtain rfl := Option.some.inj harray
          exact ⟨items', "options" :: ref, _, hitems, get?_parse hget, rfl,
            by simp [KeepsOptions, hget]⟩
      | _ => cases harray

theorem keepsQuestion_iff {step : BuilderStep} {entries : JsonMap}
    {v : JsonValue} {fieldKey next : String} {inputType : InputType}
    {required : Bool} {options : List QuestionOption}
    (hkind : step.kind = .string "question")
    (hkey : entries.get? "field_key" = some (.string fieldKey))
    (hv : entries.get? "input_type" = some v)
    (hinput : v.unitVariant? InputType.variants = some inputType)
    (hrequired : entries.get? "required" = some (.bool required))
    (hoptions : (match entries.get? "options" with
      | none => some []
      | some options => options.list? QuestionOption.ofJson?) = some options)
    (hnext : entries.get? "next" = some (.string next)) :
    (rebuiltKind readFloat step (parse ref (.object entries))).bind
        (StepKind.ofJson? parseUuid) =
          some (.question fieldKey inputType required options next) ↔
      KeepsOptions entries options := by
  obtain ⟨items, ref', value, hitems, hvalue, hor, hkeeps⟩ :=
    exists_options ref hoptions
  obtain ⟨htruthy, hread⟩ : (parse ("input_type" :: ref) v).truthy = true ∧
      read? readFloat (parse ("input_type" :: ref) v) = some v :=
    unitVariant?_parse hinput rfl
  have hdefined : parse ("input_type" :: ref) v ≠ .undefined := by
    intro h
    rw [h] at htruthy
    cases htruthy
  have hchoice : isChoiceInput (parse ("input_type" :: ref) v) = true ↔
      WritesChoice entries := by
    rw [isChoiceInput_parse, WritesChoice, hv, Option.some.injEq,
      Option.some.injEq]
  obtain ⟨built, hbuilt⟩ := exists_hydrateOptions ref' hitems 0
  have hkindJson : rebuiltKind readFloat step (parse ref (.object entries)) =
      (readItems? readFloat
        (if isChoiceInput (parse ("input_type" :: ref) v) then built.map
          optionToJson
          else [])).map fun options =>
        .object [("type", .string "question"), ("field_key", .string fieldKey),
          ("input_type", v), ("required", .bool required),
            ("options", .array options),
          ("next", .string next)] := by
    simp only [rebuiltKind, hydrateFields_question hkind, hvalue, hor, hbuilt,
      textOf?_parse hkey, get?_parse hv, get?_parse hrequired,
        textOf?_parse hnext,
      or_of_truthy htruthy, Option.bind_some, Option.map_some]
    rw [kindToJson_question]
    · exact read?_question hdefined hread fieldKey next required _
    · exact hkind
  rw [hkindJson, hkeeps]
  have hpart : ∀ options : List JsonValue, StepKind.ofJson? parseUuid
      (.object [("type", .string "question"), ("field_key", .string fieldKey),
        ("input_type", v), ("required", .bool required),
          ("options", .array options),
        ("next", .string next)]) = (options.mapM QuestionOption.ofJson?).map
          fun options =>
            .question fieldKey inputType required options next := by
    intro options
    show Option.bind (v.unitVariant? InputType.variants) _ = _
    rw [hinput]
    show Option.bind (options.mapM QuestionOption.ofJson?) _ = _
    cases options.mapM QuestionOption.ofJson? <;> rfl
  rw [map_bind_part hpart fun _ _ h => (StepKind.question.inj h).2.2.2.1]
  by_cases hwrites : WritesChoice entries
  · rw [if_pos (hchoice.mpr hwrites), if_pos hwrites,
      ← rebuiltOptions_iff ref' hitems 0, rebuiltOptions, hbuilt,
        Option.bind_some]
  · rw [if_neg (mt hchoice.mp hwrites), if_neg hwrites]
    show some [] = some options ↔ _
    rw [Option.some.injEq, eq_comm]

theorem buildConditionJson_ne_undefined (step : BuilderStep) :
    buildConditionJson step ≠ .undefined := by
  unfold buildConditionJson
  dsimp only
  split
  · split
    · rename_i htruthy
      intro h
      rw [h] at htruthy
      cases htruthy
    · simp [literal]
  all_goals simp [literal]

theorem read?_branch {condition : JsValue} (h : condition ≠ .undefined)
    (onTrue onFalse : String) :
    (literal [("type", .string "branch"), ("condition", condition),
        ("on_true", .string onTrue), ("on_false", .string onFalse)]).read?
          readFloat =
      (condition.read? readFloat).map fun v =>
        .object [("type", .string "branch"), ("condition", v),
          ("on_true", .string onTrue), ("on_false", .string onFalse)] := by
  rw [literal, read?, readEntries?_cons (by simp), readEntries?_cons h,
    readEntries?_cons (by simp), readEntries?_cons (by simp)]
  cases read? readFloat condition <;> rfl

theorem keepsBranch_iff {step : BuilderStep} {entries : JsonMap} {v : JsonValue}
    {condition : Condition} {onTrue onFalse : String}
    (hkind : step.kind = .string "branch")
    (hv : entries.get? "condition" = some v)
    (hcondition : Condition.ofJson? v = some condition)
    (htrue : entries.get? "on_true" = some (.string onTrue))
    (hfalse : entries.get? "on_false" = some (.string onFalse)) :
    (rebuiltKind readFloat step (parse ref (.object entries))).bind
        (StepKind.ofJson? parseUuid) = some (.branch condition onTrue onFalse) ↔
      KeepsCondition readFloat v condition := by
  have hkindJson : rebuiltKind readFloat step (parse ref (.object entries)) =
      (rebuiltCondition readFloat step
        (parse ("condition" :: ref) v)).map fun v =>
        .object [("type", .string "branch"), ("condition", v),
          ("on_true", .string onTrue), ("on_false", .string onFalse)] := by
    simp only [rebuiltKind, hydrateFields_branch hkind, get?_parse hv,
      textOf?_parse htrue, textOf?_parse hfalse, rebuiltCondition,
      Option.bind_some]
    cases hbuilt : hydrateCondition step (parse ("condition" :: ref) v) with
    | none => rfl
    | some built =>
        have hkind' : built.kind = .string "branch" :=
          (hydrateCondition_same hbuilt).kind.trans hkind
        simp only [Option.map_some, Option.bind_some]
        rw [kindToJson_branch]
        · exact read?_branch (buildConditionJson_ne_undefined built)
            onTrue onFalse
        · exact hkind'
  rw [hkindJson]
  refine (map_bind_part (k := fun condition => StepKind.branch condition onTrue
    onFalse) ?_
    fun _ _ h => (StepKind.branch.inj h).1).trans
      (keepsCondition_iff step hcondition)
  intro v
  show Option.bind (Condition.ofJson? v) _ = _
  cases Condition.ofJson? v <;> rfl

/-- The time limit of an approval that is loaded and written again. -/
def rebuiltTimeout (readFloat : ReadFloat)
    (timeoutSeconds : JsValue) : Option JsonValue :=
  (textOrBlank? timeoutSeconds).bind fun text =>
    (if text = "" then JsValue.null else .number (.ofText text)).read? readFloat

theorem rebuiltTimeout_number (n : JsonNumber) :
    rebuiltTimeout readFloat (parse ref (.number n)) =
      read? readFloat (.number (.ofRat n.value)) := by
  have hne : (JsNumber.ofRat n.value).text ≠ "" :=
    (isPiece_text_ofRat n.value).1
  simp only [rebuiltTimeout, parse, textOrBlank?, JsValue.text?,
    Option.bind_some, if_neg hne, JsNumber.ofText_text_ofRat]

theorem value_of_int64? {n : JsonNumber} {seconds : Int64}
    (h : (JsonValue.number n).int64? = some seconds) :
    n.value = seconds.toInt := by
  cases n with
  | posInt n =>
      simp only [JsonValue.int64?] at h
      split at h
      · rename_i hlt
        obtain rfl := Option.some.inj h
        rw [Int64.toInt_ofNat_of_lt hlt]
        simp [JsonNumber.value]
      · cases h
  | negInt n =>
      obtain rfl := Option.some.inj h
      rfl
  | float x => cases h

theorem keepsTimeout_iff {value : Option JsonValue}
    {timeoutSeconds : Option Int64}
    (h : JsonValue.optional? JsonValue.int64? value = some timeoutSeconds) :
    ((rebuiltTimeout readFloat
      ((value.map (parse ref)).getD .undefined)).bind fun v =>
      JsonValue.optional? JsonValue.int64? (some v)) = some timeoutSeconds ↔
      KeepsTimeout readFloat timeoutSeconds := by
  cases value with
  | none =>
      obtain rfl := Option.some.inj h
      exact iff_of_true rfl (by simp [KeepsTimeout])
  | some value =>
      cases value with
      | null =>
          obtain rfl := Option.some.inj h
          exact iff_of_true rfl (by simp [KeepsTimeout])
      | number n =>
          obtain ⟨seconds, hseconds, rfl⟩ := Option.map_eq_some_iff.mp h
          rw [Option.map_some, Option.getD_some, rebuiltTimeout_number,
            value_of_int64? hseconds]
          simp only [KeepsTimeout, Option.some.injEq, forall_eq']
          unfold JsNumber.ofRat reread?
          cases double (seconds.toInt : ℚ) with
          | none =>
              refine iff_of_false (fun h => ?_) (fun h => ?_) <;> cases h
          | some x =>
              simp only [read?, Option.bind_some]
              cases readNumber readFloat (numberText x) with
              | none =>
                  refine iff_of_false (fun h => ?_) (fun h => ?_) <;> cases h
              | some m =>
                  show (JsonValue.number m).int64?.map
                    some = (some seconds).map some ↔ _
                  exact Option.map_inj_right fun _ _ h => Option.some.inj h
      | bool _ | string _ | array _ | object _ => cases h

theorem buildApproverResolutionJson_ne_undefined (step : BuilderStep) :
    buildApproverResolutionJson step ≠ .undefined := by
  unfold buildApproverResolutionJson
  split <;> simp [literal]

theorem read?_waitForApproval {resolution : JsValue}
    (h : resolution ≠ .undefined) (onApprove onReject text : String) :
    (literal [("type", .string "wait_for_approval"),
      ("approver_resolution", resolution),
        ("on_approve", .string onApprove), ("on_reject", .string onReject),
        ("timeout_seconds",
          if text = "" then .null else .number (.ofText text))]).read?
              readFloat =
      (resolution.read? readFloat).bind fun v =>
        ((if text = "" then JsValue.null else .number (.ofText text)).read?
          readFloat).map fun timeout =>
            .object [("type", .string "wait_for_approval"),
              ("approver_resolution", v), ("on_approve", .string onApprove),
              ("on_reject", .string onReject),
              ("timeout_seconds", timeout)] := by
  have htimeout : (if text = "" then JsValue.null else .number (.ofText text)) ≠
      .undefined := by
    split <;> simp
  rw [literal, read?, readEntries?_cons (by simp), readEntries?_cons h,
    readEntries?_cons (by simp), readEntries?_cons (by simp),
      readEntries?_cons htimeout]
  cases read? readFloat resolution with
  | none => rfl
  | some v =>
      generalize read? readFloat
        (if text = "" then JsValue.null else _) = timeout
      cases timeout <;> rfl

/-- A value that is read as two parts of what the whole is read as. -/
theorem bind_map_parts {α β γ δ ε ζ : Type} {x : Option α} {y : Option β}
    {f : α → β → γ} {read : γ → Option δ} {p : α → Option ε} {q : β → Option ζ}
    {k : ε → ζ → δ}
    (hread : ∀ a b, read (f a b) = (p a).bind fun d => (q b).map (k d))
    (hk : ∀ d e d' e', k d e = k d' e' → d = d' ∧ e = e') {d : ε} {e : ζ} :
    (x.bind fun a => y.map (f a)).bind read = some (k d e) ↔
      x.bind p = some d ∧ y.bind q = some e := by
  cases x with
  | none => simp
  | some a =>
      cases y with
      | none => simp
      | some b =>
          simp only [Option.bind_some, Option.map_some, hread,
            Option.bind_eq_some_iff, Option.map_eq_some_iff]
          constructor
          · rintro ⟨d', hd, e', he, hke⟩
            obtain ⟨rfl, rfl⟩ := hk d' e' d e hke
            exact ⟨hd, he⟩
          · rintro ⟨hd, he⟩
            exact ⟨d, hd, e, he, rfl⟩

theorem keepsWaitForApproval_iff {step : BuilderStep} {entries : JsonMap}
    {v : JsonValue} {resolution : ApproverResolution}
    {onApprove onReject : String} {timeoutSeconds : Option Int64}
    (hkind : step.kind = .string "wait_for_approval")
    (hv : entries.get? "approver_resolution" = some v)
    (hresolution : ApproverResolution.ofJson? parseUuid v = some resolution)
    (happrove : entries.get? "on_approve" = some (.string onApprove))
    (hreject : entries.get? "on_reject" = some (.string onReject))
    (htimeout : JsonValue.optional? JsonValue.int64?
      (entries.get? "timeout_seconds") = some timeoutSeconds) :
    (rebuiltKind readFloat step (parse ref (.object entries))).bind
        (StepKind.ofJson? parseUuid) =
          some (.waitForApproval resolution onApprove onReject timeoutSeconds) ↔
      KeepsResolution v resolution ∧ KeepsTimeout readFloat timeoutSeconds := by
  have hget : (parse ref (.object entries)).get? "timeout_seconds" =
      some (((entries.get? "timeout_seconds").map
        (parse ("timeout_seconds" :: ref))).getD .undefined) := by
    rw [parse, JsValue.get?, JsValue.lookup_parseEntries]
  have hkindJson : rebuiltKind readFloat step (parse ref (.object entries)) =
      (rebuiltResolution readFloat step
          (parse ("approver_resolution" :: ref) v)).bind fun v =>
        (rebuiltTimeout readFloat (((entries.get? "timeout_seconds").map
            (parse ("timeout_seconds" :: ref))).getD .undefined)).map
          fun timeout =>
            .object [("type", .string "wait_for_approval"),
              ("approver_resolution", v), ("on_approve", .string onApprove),
              ("on_reject", .string onReject),
              ("timeout_seconds", timeout)] := by
    rw [rebuiltKind, hydrateFields_waitForApproval hkind, get?_parse hv,
      textOf?_parse happrove, textOf?_parse hreject, hget, rebuiltResolution,
        rebuiltTimeout,
      Option.bind_some]
    cases hbuilt : hydrateApproverResolution step
        (parse ("approver_resolution" :: ref) v) with
    | none => rfl
    | some built =>
        simp only [Option.bind_some]
        generalize textOrBlank? _ = text
        cases text with
        | none =>
            cases read? readFloat (buildApproverResolutionJson built) <;> rfl
        | some text =>
            have hkind' : built.kind = .string "wait_for_approval" :=
              (hydrateApproverResolution_same hbuilt).kind.trans hkind
            rw [Option.map_some, Option.bind_some, kindToJson_waitForApproval]
            · exact read?_waitForApproval
                (buildApproverResolutionJson_ne_undefined built)
                onApprove onReject text
            · exact hkind'
  rw [hkindJson]
  refine (bind_map_parts (k := fun resolution timeoutSeconds =>
    StepKind.waitForApproval resolution onApprove onReject timeoutSeconds)
      ?_ ?_).trans
      (and_congr (keepsResolution_iff step hresolution)
      (keepsTimeout_iff htimeout))
  · intro v timeout
    show Option.bind (ApproverResolution.ofJson? parseUuid v) _ = _
    cases ApproverResolution.ofJson? parseUuid v with
    | none => rfl
    | some resolution =>
        show Option.bind (JsonValue.optional? JsonValue.int64?
          (some timeout)) _ = _
        cases JsonValue.optional? JsonValue.int64? (some timeout) <;> rfl
  · intro d e d' e' h
    exact ⟨(StepKind.waitForApproval.inj h).1,
      (StepKind.waitForApproval.inj h).2.2.2⟩

theorem field?_bool?_eq_some {entries : JsonMap} {key : String} {b : Bool} :
    entries.field? JsonValue.bool? key = some b ↔
      entries.get? key = some (.bool b) := by
  rw [JsonMap.field?, Option.bind_eq_some_iff]
  constructor
  · rintro ⟨value, hvalue, hb⟩
    cases value with
    | bool b' =>
        obtain rfl := Option.some.inj hb
        exact hvalue
    | _ => cases hb
  · exact fun h => ⟨_, h, rfl⟩

theorem ofJson?_object {entries : JsonMap} {kind : StepKind}
    (h : StepKind.ofJson? parseUuid (.object entries) = some kind) :
    ∃ name, entries.get? "type" = some (.string name) ∧
      name ∈ StepTag.variants.map Prod.fst := by
  simp only [StepKind.ofJson?, Option.bind_eq_bind,
    Option.bind_eq_some_iff] at h
  obtain ⟨⟨value, content⟩, htagged, tag, htag, -⟩ := h
  obtain ⟨value', htype, heq⟩ := Option.map_eq_some_iff.mp htagged
  obtain ⟨rfl, rfl⟩ := Prod.mk.inj heq
  cases value' with
  | string name =>
      exact ⟨name, htype, List.mem_map.mpr
        ⟨(name, tag), mem_of_lookup htag, rfl⟩⟩
  | number n => cases n <;> cases htag
  | _ => cases htag

theorem keepsKind_iff {step : BuilderStep} {entries : JsonMap} {kind : StepKind}
    {name : String} (htype : entries.get? "type" = some (.string name))
    (hname : step.kind = .string name)
    (h : StepKind.ofJson? parseUuid (.object entries) = some kind) :
    (rebuiltKind readFloat step (parse ref (.object entries))).bind
        (StepKind.ofJson? parseUuid) = some kind ↔
          KeepsKind readFloat entries kind := by
  simp only [StepKind.ofJson?, JsonValue.tagged?, htype, Option.map_some,
    Option.bind_eq_bind, Option.bind_some, JsonValue.variant?,
    JsonValue.record?] at h
  obtain ⟨tag, htag, h⟩ := Option.bind_eq_some_iff.mp h
  have hmem := mem_of_lookup htag
  simp only [StepTag.variants, List.mem_cons, Prod.mk.injEq,
    List.not_mem_nil, or_false] at hmem
  rcases hmem with
    ⟨rfl, rfl⟩ | ⟨rfl, rfl⟩ | ⟨rfl, rfl⟩ | ⟨rfl, rfl⟩ | ⟨rfl, rfl⟩
  · simp only [Option.bind_eq_some_iff, JsonMap.field?_string?_eq_some] at h
    obtain ⟨fieldKey, hkey, inputType, hinput, required, hrequired, h⟩ := h
    obtain ⟨v, hv, hinput⟩ := Option.bind_eq_some_iff.mp hinput
    obtain ⟨options, next, hoptions, hnext, rfl⟩ : ∃ options next,
        (match entries.get? "options" with
          | none => some []
          | some options => options.list? QuestionOption.ofJson?) =
              some options ∧
        entries.get? "next" = some (.string next) ∧
        kind = .question fieldKey inputType required options next := by
      cases hget : entries.get? "options" with
      | none =>
          rw [hget] at h
          obtain ⟨next, hnext, ⟨⟩⟩ := Option.bind_eq_some_iff.mp h
          exact ⟨[], next, rfl, JsonMap.field?_string?_eq_some.mp hnext, rfl⟩
      | some value =>
          rw [hget] at h
          obtain ⟨options, hoptions, h⟩ := Option.bind_eq_some_iff.mp h
          obtain ⟨next, hnext, ⟨⟩⟩ := Option.bind_eq_some_iff.mp h
          exact ⟨options, next, hoptions,
            JsonMap.field?_string?_eq_some.mp hnext, rfl⟩
    exact keepsQuestion_iff hname hkey hv hinput
      (field?_bool?_eq_some.mp hrequired) hoptions hnext
  · simp only [Option.bind_eq_some_iff, JsonMap.field?_string?_eq_some] at h
    obtain ⟨condition, hcondition, onTrue, htrue, onFalse, hfalse, ⟨⟩⟩ := h
    obtain ⟨v, hv, hcondition⟩ := Option.bind_eq_some_iff.mp hcondition
    rw [keepsBranch_iff hname hv hcondition htrue hfalse]
    simp [KeepsKind, hv]
  · simp only [Option.bind_eq_some_iff, JsonMap.field?_string?_eq_some] at h
    obtain ⟨resolution, hresolution, onApprove, happrove, onReject, hreject,
      timeoutSeconds, htimeout, ⟨⟩⟩ := h
    obtain ⟨v, hv, hresolution⟩ := Option.bind_eq_some_iff.mp hresolution
    rw [keepsWaitForApproval_iff hname hv hresolution happrove hreject htimeout]
    simp [KeepsKind, hv]
  · simp only [Option.bind_eq_some_iff, JsonMap.field?_string?_eq_some] at h
    obtain ⟨next, hnext, ⟨⟩⟩ := h
    exact iff_of_true (rebuiltKind_submitTicket hname hnext) trivial
  · obtain ⟨outcome, houtcome, ⟨⟩⟩ := Option.bind_eq_some_iff.mp h
    obtain ⟨v, hv, houtcome⟩ := Option.bind_eq_some_iff.mp houtcome
    exact iff_of_true (rebuiltKind_end hname hv houtcome) trivial

end Kinds

end Builder

end Servcat
