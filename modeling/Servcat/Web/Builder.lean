/-
The visual builder of workflow graphs: its steps, how they are made of JSON and
written as JSON, and what its controls do to them.
-/
import Servcat.Web.Script

namespace Servcat

open JsValue (literal)

structure BuilderOption where
  value : JsValue
  label : JsValue
deriving Repr

/-- A step of the builder, with the fields of every kind. -/
structure BuilderStep where
  uid : String
  collapsed : Bool
  id : JsValue
  label : JsValue
  kind : JsValue
  fieldKey : JsValue
  inputType : JsValue
  required : Bool
  options : List BuilderOption
  next : JsValue
  conditionOp : JsValue
  conditionFieldKey : JsValue
  conditionValueType : ValueType
  conditionValue : String
  conditionValues : String
  rawCondition : JsValue
  onTrue : JsValue
  onFalse : JsValue
  approverType : JsValue
  approverUserId : JsValue
  approverRole : JsValue
  onApprove : JsValue
  onReject : JsValue
  timeoutSeconds : String
  outcome : JsValue
deriving Repr

structure Builder where
  steps : List BuilderStep
  entryStepId : JsValue
  stepCounter : ℕ
deriving Repr

namespace Builder

/-- The keys of `STEP_KIND_LABELS`, and the names that every object inherits. -/
def stepKindLabels : List String :=
  ["question", "branch", "wait_for_approval", "submit_ticket", "end",
    "constructor", "toString", "toLocaleString", "valueOf", "hasOwnProperty",
    "isPrototypeOf", "propertyIsEnumerable", "__proto__", "__defineGetter__",
    "__defineSetter__", "__lookupGetter__", "__lookupSetter__"]

/-- `newStep`, once the counter has been raised.  Only kinds that have a
text come here. -/
def newStep (stepCounter : ℕ) (kind : JsValue) : BuilderStep where
  uid := "n" ++ toString stepCounter
  collapsed := false
  id := .string (kind.text?.getD "" ++ "_" ++ toString stepCounter)
  label := .string ""
  kind := kind
  fieldKey := .string ""
  inputType := .string "text"
  required := true
  options := []
  next := .string ""
  conditionOp := .string "equals"
  conditionFieldKey := .string ""
  conditionValueType := .string
  conditionValue := ""
  conditionValues := ""
  rawCondition := .null
  onTrue := .string ""
  onFalse := .string ""
  approverType := .string "manager_of_requester"
  approverUserId := .string ""
  approverRole := .string "approver"
  onApprove := .string ""
  onReject := .string ""
  timeoutSeconds := ""
  outcome := .string "completed"

/-- The operator, if it is one of `SIMPLE_CONDITION_OPS`. -/
def simpleOp? : JsValue → Option ConditionOp
  | .string "equals" => some .equals
  | .string "not_equals" => some .notEquals
  | .string "exists" => some .exists
  | .string "in" => some .in
  | _ => none

section Serialization

def isChoiceInput : JsValue → Bool
  | .string "select" => true
  | .string "multi_select" => true
  | _ => false

def coerceValue (raw : String) : ValueType → JsValue
  | .number => .number (.ofText raw)
  | .boolean => .boolean (raw = "true")
  | .string => .string raw

def buildConditionJson (step : BuilderStep) : JsValue :=
  let built : JsValue := literal [("op", step.conditionOp),
    ("field_key", step.conditionFieldKey),
    ("value", coerceValue step.conditionValue step.conditionValueType)]
  match simpleOp? step.conditionOp with
  | none => if step.rawCondition.truthy then step.rawCondition else built
  | some .exists =>
      literal [("op", .string "exists"), ("field_key", step.conditionFieldKey)]
  | some .in =>
      literal [("op", .string "in"), ("field_key", step.conditionFieldKey),
        ("values",
          .array [] ((listed isBrowserSpace step.conditionValues).map fun v =>
          coerceValue v step.conditionValueType))]
  | some .equals => built
  | some .notEquals => built

def buildApproverResolutionJson (step : BuilderStep) : JsValue :=
  match step.approverType with
  | .string "static" =>
      literal [("type", .string "static"), ("user_id", step.approverUserId)]
  | .string "role_in_department" =>
      literal [("type", .string "role_in_department"),
        ("role", step.approverRole)]
  | _ => literal [("type", .string "manager_of_requester")]

/-- The `kind` of `stepToJson`. -/
def kindToJson (step : BuilderStep) : JsValue :=
  match step.kind with
  | .string "question" =>
      literal [("type", .string "question"), ("field_key", step.fieldKey),
        ("input_type", step.inputType), ("required", .boolean step.required),
        ("options", .array []
          (if isChoiceInput step.inputType then
            step.options.map fun o =>
              literal [("value", o.value), ("label", o.label)]
          else [])),
        ("next", step.next)]
  | .string "branch" =>
      literal [("type", .string "branch"),
        ("condition", buildConditionJson step), ("on_true", step.onTrue),
        ("on_false", step.onFalse)]
  | .string "wait_for_approval" =>
      literal [("type", .string "wait_for_approval"),
        ("approver_resolution", buildApproverResolutionJson step),
        ("on_approve", step.onApprove), ("on_reject", step.onReject),
        ("timeout_seconds",
          if step.timeoutSeconds = "" then .null
          else .number (.ofText step.timeoutSeconds))]
  | .string "submit_ticket" =>
      literal [("type", .string "submit_ticket"), ("next", step.next)]
  | .string "end" =>
      literal [("type", .string "end"), ("outcome", step.outcome)]
  | _ => .null

def stepToJson (step : BuilderStep) : JsValue :=
  literal [("id", step.id), ("label", step.label), ("kind", kindToJson step)]

def buildGraphObject (b : Builder) : JsValue :=
  literal [("entry_step_id", b.entryStepId.or (.string "")),
    ("steps", .array [] (b.steps.map stepToJson))]

end Serialization

section Hydration

/-- `value.key || ''` -/
def textOf? (value : JsValue) (key : String) : Option JsValue :=
  (value.get? key).map (·.or (.string ""))

/-- The text of a value, blank where there is none. -/
def textOrBlank? : JsValue → Option String
  | .undefined => some ""
  | .null => some ""
  | value => value.text?

def valueType : JsValue → ValueType
  | .number _ => .number
  | .boolean _ => .boolean
  | _ => .string

def hydrateCondition (step : BuilderStep)
    (condition : JsValue) : Option BuilderStep := do
  let condition := condition.or (literal
    [("op", .string "equals"), ("field_key", .string ""),
      ("value", .string "")])
  let op ← condition.get? "op"
  match simpleOp? op with
  | none => some { step with conditionOp := op, rawCondition := condition }
  | some simple => do
      let step :=
        { step with
          conditionOp := op
          conditionFieldKey := ← textOf? condition "field_key" }
      match simple with
      | .exists => some step
      | .in =>
          -- Only an array has a method `join`.
          match (← condition.get? "values").or (.array [] []) with
          | .array _ values => do
              let texts ← JsValue.itemTexts? values
              some { step with
                conditionValueType := (values.head?.map valueType).getD .string
                conditionValues := String.intercalate ", " texts }
          | _ => none
      | .equals | .notEquals => do
          let value ← condition.get? "value"
          some { step with
            conditionValueType := valueType value
            conditionValue := ← textOrBlank? value }

def hydrateApproverResolution (step : BuilderStep) (resolution : JsValue) :
    Option BuilderStep := do
  let resolution :=
    resolution.or (literal [("type", .string "manager_of_requester")])
  let step := { step with
    approverType :=
      (← resolution.get? "type").or (.string "manager_of_requester") }
  match step.approverType with
  | .string "static" =>
      some { step with approverUserId := ← textOf? resolution "user_id" }
  | .string "role_in_department" =>
      some { step with
        approverRole := (← resolution.get? "role").or (.string "approver") }
  | _ => some step

def hydrateOption (o : JsValue) : Option BuilderOption := do
  some ⟨← textOf? o "value", ← textOf? o "label"⟩

/-- The kind of a step, unless the loader rejects it before it makes a
step of it. -/
def hydrateKind (s : JsValue) : Option JsValue := do
  let kind ← s.get? "kind"
  let kind ← if kind.truthy then kind.get? "type" else some kind
  if (← kind.text?) ∈ stepKindLabels then some kind else none

/-- The fields of the kind. -/
def hydrateFields (step : BuilderStep) (k : JsValue) : Option BuilderStep := do
  match step.kind with
  | .string "question" => do
      let options ←
        -- Only an array has a method `map`.
        match (← k.get? "options").or (.array [] []) with
        | .array _ items => items.mapM hydrateOption
        | _ => none
      some { step with
        fieldKey := ← textOf? k "field_key"
        inputType := (← k.get? "input_type").or (.string "text")
        required := (← k.get? "required").truthy
        options := options
        next := ← textOf? k "next" }
  | .string "branch" => do
      let step ← hydrateCondition step (← k.get? "condition")
      some { step with
        onTrue := ← textOf? k "on_true"
        onFalse := ← textOf? k "on_false" }
  | .string "wait_for_approval" => do
      let step ← hydrateApproverResolution step (← k.get? "approver_resolution")
      some { step with
        onApprove := ← textOf? k "on_approve"
        onReject := ← textOf? k "on_reject"
        timeoutSeconds := ← textOrBlank? (← k.get? "timeout_seconds") }
  | .string "submit_ticket" => some { step with next := ← textOf? k "next" }
  | .string "end" =>
      some { step with
        outcome := (← k.get? "outcome").or (.string "completed") }
  | _ => some step

/-- The fields that do not belong to a kind are the same. -/
structure SameHeader (s t : BuilderStep) : Prop where
  uid : s.uid = t.uid
  kind : s.kind = t.kind
  id : s.id = t.id
  label : s.label = t.label

theorem hydrateCondition_same {step built : BuilderStep} {condition : JsValue}
    (h : hydrateCondition step condition = some built) :
    SameHeader built step := by
  simp only [hydrateCondition, Option.bind_eq_bind,
    Option.bind_eq_some_iff] at h
  obtain ⟨op, -, h⟩ := h
  split at h
  · obtain rfl := Option.some.inj h
    exact ⟨rfl, rfl, rfl, rfl⟩
  · obtain ⟨fieldKey, -, h⟩ := Option.bind_eq_some_iff.mp h
    split at h
    · obtain rfl := Option.some.inj h
      exact ⟨rfl, rfl, rfl, rfl⟩
    · obtain ⟨values, -, h⟩ := Option.bind_eq_some_iff.mp h
      split at h
      · obtain ⟨texts, -, h⟩ := Option.bind_eq_some_iff.mp h
        obtain rfl := Option.some.inj h
        exact ⟨rfl, rfl, rfl, rfl⟩
      · cases h
    · obtain ⟨value, -, h⟩ := Option.bind_eq_some_iff.mp h
      obtain ⟨text, -, h⟩ := Option.bind_eq_some_iff.mp h
      obtain rfl := Option.some.inj h
      exact ⟨rfl, rfl, rfl, rfl⟩
    · obtain ⟨value, -, h⟩ := Option.bind_eq_some_iff.mp h
      obtain ⟨text, -, h⟩ := Option.bind_eq_some_iff.mp h
      obtain rfl := Option.some.inj h
      exact ⟨rfl, rfl, rfl, rfl⟩

theorem hydrateApproverResolution_same {step built : BuilderStep}
    {resolution : JsValue}
    (h : hydrateApproverResolution step resolution = some built) :
    SameHeader built step := by
  simp only [hydrateApproverResolution, Option.bind_eq_bind,
    Option.bind_eq_some_iff] at h
  obtain ⟨type, -, h⟩ := h
  split at h
  · obtain ⟨userId, -, h⟩ := Option.bind_eq_some_iff.mp h
    obtain rfl := Option.some.inj h
    exact ⟨rfl, rfl, rfl, rfl⟩
  · obtain ⟨role, -, h⟩ := Option.bind_eq_some_iff.mp h
    obtain rfl := Option.some.inj h
    exact ⟨rfl, rfl, rfl, rfl⟩
  · obtain rfl := Option.some.inj h
    exact ⟨rfl, rfl, rfl, rfl⟩

theorem hydrateFields_same {step built : BuilderStep} {k : JsValue}
    (h : hydrateFields step k = some built) : SameHeader built step := by
  unfold hydrateFields at h
  simp only [Option.bind_eq_bind] at h
  split at h
  · -- a question
    obtain ⟨options, -, h⟩ := Option.bind_eq_some_iff.mp h
    split at h
    · simp only [Option.bind_eq_some_iff] at h
      obtain ⟨options, -, fieldKey, -, inputType, -, required, -, next,
          -, h⟩ := h
      obtain rfl := Option.some.inj h
      exact ⟨rfl, rfl, rfl, rfl⟩
    · cases h
  · simp only [Option.bind_eq_some_iff] at h
    obtain ⟨condition, -, step', hstep, onTrue, -, onFalse, -, h⟩ := h
    have hsame := hydrateCondition_same hstep
    obtain rfl := Option.some.inj h
    exact ⟨hsame.uid, hsame.kind, hsame.id, hsame.label⟩
  · simp only [Option.bind_eq_some_iff] at h
    obtain ⟨resolution, -, step', hstep, onApprove, -, onReject, -, value, -,
        text, -, h⟩ := h
    have hsame := hydrateApproverResolution_same hstep
    obtain rfl := Option.some.inj h
    exact ⟨hsame.uid, hsame.kind, hsame.id, hsame.label⟩
  · obtain ⟨next, -, h⟩ := Option.bind_eq_some_iff.mp h
    obtain rfl := Option.some.inj h
    exact ⟨rfl, rfl, rfl, rfl⟩
  · obtain ⟨outcome, -, h⟩ := Option.bind_eq_some_iff.mp h
    obtain rfl := Option.some.inj h
    exact ⟨rfl, rfl, rfl, rfl⟩
  · obtain rfl := Option.some.inj h
    exact ⟨rfl, rfl, rfl, rfl⟩

/-- One round of the loop, from where it makes the step. -/
def hydrateStep (stepCounter : ℕ) (kind s : JsValue) : Option BuilderStep := do
  let step := newStep stepCounter kind
  let step := { step with
    id := (← s.get? "id").or step.id
    label := ← textOf? s "label" }
  hydrateFields step ((← s.get? "kind").or (literal []))

/-- The loop over the steps: the counter when it ends, and the steps unless one
of them is rejected. -/
def hydrateSteps (stepCounter : ℕ) :
    List JsValue → ℕ × Option (List BuilderStep)
  | [] => (stepCounter, some [])
  | s :: rest =>
      match hydrateKind s with
      | none => (stepCounter, none)
      | some kind =>
          match hydrateStep (stepCounter + 1) kind s with
          | none => (stepCounter + 1, none)
          | some step =>
              (hydrateSteps (stepCounter + 1) rest).map id
                (Option.map (step :: ·))

/-- `graph.steps`, unless the loader rejects the graph before it
looks at a step. -/
def stepsOf? (graph : JsValue) : Option (List JsValue) :=
  match graph.get? "steps" with
  | some (.array _ items) => some items
  | _ => none

/-- The builder after it, and whether the graph was loaded. -/
def hydrateFromGraph (b : Builder) (graph : JsValue) : Builder × Bool :=
  match stepsOf? graph with
  | none => (b, false)
  | some items =>
      match hydrateSteps 0 items with
      | (stepCounter, none) => ({ b with stepCounter := stepCounter }, false)
      | (stepCounter, some steps) =>
          let entryStepId := (graph.get? "entry_step_id").getD .undefined
          let firstId := (steps.head?.map BuilderStep.id).getD .undefined
          (⟨steps, entryStepId.or (firstId.or .null), stepCounter⟩, true)

end Hydration

end Builder

end Servcat
