/-
What the controls of the builder do to its steps.  Every card that is shown
belongs to a step, which the handlers look up by the `_uid` that the card
carries; steps are told apart here by their places.
-/
import Servcat.Model.Deserialize
import Servcat.Web.Builder

namespace Servcat

open JsValue (parse)

namespace BuilderStep

/-- The fields of `REF_FIELDS`. -/
def refs (step : BuilderStep) : List JsValue :=
  [step.next, step.onTrue, step.onFalse, step.onApprove, step.onReject]

def mapRefs (f : JsValue → JsValue) (step : BuilderStep) : BuilderStep :=
  { step with
    next := f step.next
    onTrue := f step.onTrue
    onFalse := f step.onFalse
    onApprove := f step.onApprove
    onReject := f step.onReject }

end BuilderStep

namespace Builder

/-- The fields of a card whose values are texts. -/
inductive TextField where
  | label
  | fieldKey
  | inputType
  | next
  | conditionOp
  | conditionFieldKey
  | conditionValue
  | conditionValues
  | onTrue
  | onFalse
  | approverType
  | approverUserId
  | approverRole
  | onApprove
  | onReject
  | timeoutSeconds
  | outcome
deriving DecidableEq, Repr

/-- What is entered into a field of a card. -/
inductive Edit where
  | id (value : String)
  | optionValue (index : ℕ) (value : String)
  | optionLabel (index : ℕ) (value : String)
  | required (checked : Bool)
  | conditionValueType (type : ValueType)
  | text (field : TextField) (value : String)
deriving Repr

/-- The buttons of a card, and whether the deletion of a step is confirmed. -/
inductive Click where
  | deleteStep (confirmed : Bool)
  | setEntry
  | addOption
  | removeOption (index : ℕ)
  | toggleCollapse
  | moveUp
  | moveDown
deriving DecidableEq, Repr

/-- `loadStarterExample` -/
def starterExample : Builder where
  steps :=
    [{ newStep 1 (.string "question") with
        id := .string "ask_summary"
        label := .string "What do you need?"
        fieldKey := .string "summary"
        inputType := .string "text_area"
        required := true
        next := .string "end_ok" },
      { newStep 2 (.string "end") with
        id := .string "end_ok"
        label := .string "Done"
        outcome := .string "completed" }]
  entryStepId := .string "ask_summary"
  stepCounter := 2

/-- `main`, for the text that the server has put into the page: none, one that
is not JSON, or a value. -/
def main (prefill : Option (Option JsonValue)) : Builder :=
  match prefill with
  | none => starterExample
  | some none => starterExample
  | some (some json) =>
      match hydrateFromGraph ⟨[], .null, 0⟩ (parse [] json) with
      | (b, true) => b
      | (_, false) => starterExample

/-- The name of a kind on the button that adds a step of it. -/
def stepKind : StepTag → String
  | .question => "question"
  | .branch => "branch"
  | .waitForApproval => "wait_for_approval"
  | .submitTicket => "submit_ticket"
  | .end => "end"

def addStep (b : Builder) (kind : StepTag) : Builder :=
  let step := newStep (b.stepCounter + 1) (.string (stepKind kind))
  { steps := b.steps ++ [step]
    entryStepId := if b.entryStepId.truthy then b.entryStepId else step.id
    stepCounter := b.stepCounter + 1 }

/-- The place of the step that `findStepByUid` returns. -/
def findStepByUid (b : Builder) (uid : String) : Option ℕ :=
  b.steps.findIdx? fun s => s.uid = uid

def findReferencingStepIds (b : Builder) (id : JsValue) : List JsValue :=
  let refs := b.steps.flatMap fun s =>
    (s.refs.filter (·.strictEq id)).map fun _ =>
      s.id.or (.string "(unnamed step)")
  (refs.zipIdx.filter fun (v, i) => refs.findIdx? (·.strictEq v) = some
    i).map Prod.fst

def commitIdChange (b : Builder) (index : ℕ) (oldId : JsValue)
    (newId : String) : Builder :=
  if newId = "" then b
  else if (JsValue.string newId).strictEq oldId then b
  else if (b.steps.eraseIdx index).any (·.id.strictEq (.string newId)) then b
  else
    let renamed := b.steps.map (·.mapRefs fun ref =>
      if ref.strictEq oldId then .string newId else ref)
    { b with
      steps := renamed.modify index fun s => { s with id := .string newId }
      entryStepId :=
        if b.entryStepId.strictEq oldId then .string newId else b.entryStepId }

def setText (step : BuilderStep) (value : String) : TextField → BuilderStep
  | .label => { step with label := .string value }
  | .fieldKey => { step with fieldKey := .string value }
  | .inputType => { step with inputType := .string value }
  | .next => { step with next := .string value }
  | .conditionOp => { step with conditionOp := .string value }
  | .conditionFieldKey => { step with conditionFieldKey := .string value }
  | .conditionValue => { step with conditionValue := value }
  | .conditionValues => { step with conditionValues := value }
  | .onTrue => { step with onTrue := .string value }
  | .onFalse => { step with onFalse := .string value }
  | .approverType => { step with approverType := .string value }
  | .approverUserId => { step with approverUserId := .string value }
  | .approverRole => { step with approverRole := .string value }
  | .onApprove => { step with onApprove := .string value }
  | .onReject => { step with onReject := .string value }
  | .timeoutSeconds => { step with timeoutSeconds := value }
  | .outcome => { step with outcome := .string value }

def onListChange (b : Builder) (uid : String) (edit : Edit) : Builder :=
  match b.findStepByUid uid with
  | none => b
  | some index =>
      let set (f : BuilderStep → BuilderStep) : Builder :=
        { b with steps := b.steps.modify index f }
      match edit with
      | .id value =>
          match b.steps[index]? with
          | none => b
          | some step =>
              b.commitIdChange index step.id (trim isBrowserSpace value)
      | .optionValue i value => set fun s =>
          { s with options := s.options.modify i
                     fun o => { o with value := .string value } }
      | .optionLabel i value => set fun s =>
          { s with options := s.options.modify i
                     fun o => { o with label := .string value } }
      | .required checked => set fun s => { s with required := checked }
      | .conditionValueType type =>
          set fun s => { s with conditionValueType := type }
      | .text field value => set fun s => setText s value field

/-- A step is deleted, unless steps refer to it and that is not confirmed; their
names have to be put together for the question. -/
def deleteStep (b : Builder) (index : ℕ) (id : JsValue)
    (confirmed : Bool) : Builder :=
  let deleted : Builder :=
    let steps := b.steps.eraseIdx index
    { b with
      steps := steps
      entryStepId :=
        if b.entryStepId.strictEq id then
          (steps.head?.map BuilderStep.id).getD .null
        else b.entryStepId }
  match b.findReferencingStepIds id with
  | [] => deleted
  | refs =>
      match JsValue.itemTexts? refs with
      | none => b
      | some _ => if confirmed then deleted else b

def onListClick (b : Builder) (uid : String) (click : Click) : Builder :=
  match b.findStepByUid uid with
  | none => b
  | some index =>
      match b.steps[index]? with
      | none => b
      | some step =>
          let set (f : BuilderStep → BuilderStep) : Builder :=
            { b with steps := b.steps.modify index f }
          match click with
          | .deleteStep confirmed => b.deleteStep index step.id confirmed
          | .setEntry => { b with entryStepId := step.id }
          | .addOption => set fun s =>
              { s with options := s.options ++ [⟨.string "", .string ""⟩] }
          | .removeOption i =>
              set fun s => { s with options := s.options.eraseIdx i }
          | .toggleCollapse => set fun s => { s with collapsed := !s.collapsed }
          | .moveUp =>
              if 0 < index then
                { b with steps := (b.steps.eraseIdx index).insertIdx
                           (index - 1) step }
              else b
          | .moveDown =>
              if index < b.steps.length - 1 then
                { b with steps := (b.steps.eraseIdx index).insertIdx
                           (index + 1) step }
              else b

/-- The button of a card is disabled. -/
def disabled (b : Builder) (card : ℕ) : Click → Bool
  | .moveUp => card = 0
  | .moveDown => card = b.steps.length - 1
  | _ => false

/-- What a user does: cards stand for the places of their steps, and a load is
given the value of the text where that is JSON. -/
inductive Action where
  | addStep (kind : StepTag)
  | change (card : ℕ) (edit : Edit)
  | click (card : ℕ) (click : Click)
  | loadFromTextarea (json : Option JsonValue)

def act (b : Builder) : Action → Builder
  | .addStep kind => b.addStep kind
  | .change card edit =>
      match b.steps[card]? with
      | none => b
      | some step => b.onListChange step.uid edit
  | .click card click =>
      match b.steps[card]? with
      | none => b
      | some step =>
          if b.disabled card click then b else b.onListClick step.uid click
  | .loadFromTextarea none => b
  | .loadFromTextarea (some json) => (b.hydrateFromGraph (parse [] json)).1

end Builder

end Servcat
