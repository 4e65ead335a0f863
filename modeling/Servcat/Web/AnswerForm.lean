/-
The web form that asks a question of a request, and the answers that
fit the question.
-/
import Servcat.Engine.Answers
import Servcat.Serial.Operations
import Servcat.Web.Values

namespace Servcat

open Atomic

namespace Web

structure AnswerForm where
  fieldKey : String
  value : String

def inputTypeOf : StepKind → Option InputType
  | .question _ inputType _ _ _ => some inputType
  | _ => none

/-- `POST /requests/{id}/answer`; the browser is sent to the path that
is returned. -/
def submitAnswer (deps : Deps) (rounds : Nat) (user : User) (id : Uuid)
    (form : AnswerForm) : Async ApiError String := do
  let found ← Orchestrator.db (Repositories.Instances.getById id)
  let row ← .okOr (.notFound "request not found") found
  let found ← Orchestrator.db <|
    Repositories.WorkflowDefinitions.getById row.workflowDefinitionId
  let definition ← .okOr .internal found
  let inputType := (definition.graph.step row.currentStepId).bind fun s =>
    inputTypeOf s.kind
  let value := coerceAnswer inputType form.value
  let _ ← Orchestrator.submitAnswer deps rounds id user form.fieldKey value
  return "/requests/" ++ id.toString

end Web

theorem Web.bind_inputTypeOf (graph : WorkflowGraph) (stepId : String) :
    ((graph.step stepId).bind fun s => inputTypeOf s.kind) =
      (graph.question? stepId).map Question.inputType := by
  unfold WorkflowGraph.question?
  cases graph.step stepId with
  | none => rfl
  | some s =>
      obtain ⟨stepId, label, kind⟩ := s
      cases kind <;> rfl

/-- Nothing was entered. -/
def JsonValue.Blank : JsonValue → Prop
  | .null => True
  | .string s => trim isWhitespace s = ""
  | .array items => items = []
  | .object entries => entries = []
  | .bool _ | .number _ => False

namespace Question

def values (q : Question) : List String :=
  q.options.map QuestionOption.value

/-- The value is of the type that is asked for. -/
def Typed (q : Question) (value : JsonValue) : Prop :=
  match q.inputType with
  | .number => ∃ n, value = .number n
  | .boolean => ∃ b, value = .bool b
  | .select => ∃ v ∈ q.values, value = .string v
  | .multiSelect =>
      ∃ vs : List String, (∀ v ∈ vs, v ∈ q.values) ∧
        value = .array (vs.map .string)
  | .text | .textArea | .date => True

/-- The value answers the question. -/
def Admissible (q : Question) (value : JsonValue) : Prop :=
  (q.required = true → ¬ value.Blank) ∧ q.Typed value

/-- The text in the form answers the question. -/
def FormFits (q : Question) (raw : String) : Prop :=
  match q.inputType with
  | .number => (parseF64 raw).isSome
  | .boolean => True
  | .select => (q.required = true → trim isWhitespace raw ≠ "") ∧ raw ∈ q.values
  | .multiSelect =>
      (q.required = true → listed isWhitespace raw ≠ []) ∧
        ∀ v ∈ listed isWhitespace raw, v ∈ q.values
  | .text | .textArea | .date => q.required = true → trim isWhitespace raw ≠ ""

theorem map_string_inj {vs vs' : List String} :
    vs.map JsonValue.string = vs'.map .string ↔ vs = vs' :=
  List.map_inj_right fun _ _ h => JsonValue.string.inj h

theorem admissible_coerceAnswer (q : Question) (raw : String) :
    q.Admissible (coerceAnswer (some q.inputType) raw) ↔ q.FormFits raw := by
  obtain ⟨fieldKey, inputType, required, options, next⟩ := q
  cases inputType with
  | number =>
      cases hraw : parseF64 raw <;>
        simp [Admissible, Typed, FormFits, coerceAnswer, JsonValue.Blank, hraw]
  | boolean => simp [Admissible, Typed, FormFits, coerceAnswer, JsonValue.Blank]
  | select => simp [Admissible, Typed, FormFits, coerceAnswer, JsonValue.Blank]
  | multiSelect =>
      simp [Admissible, Typed, FormFits, coerceAnswer, JsonValue.Blank,
        map_string_inj]
  | text | textArea | date =>
      simp [Admissible, Typed, FormFits, coerceAnswer, JsonValue.Blank]

end Question

end Servcat
