/-
Workflow definitions: the step graph an admin authors, its conditions and the
approver rules of its approval steps.
-/
import Servcat.Model.Json
import Mathlib.Data.BitVec

namespace Servcat

/-- A 128-bit identifier. -/
structure Uuid where
  bits : BitVec 128
deriving DecidableEq, Repr

/-- Lower-case hexadecimal in groups of 8, 4, 4, 4 and 12 digits. -/
def Uuid.toString (id : Uuid) : String :=
  let digits (start len : Nat) : String := String.ofList <|
    (List.range len).map fun i =>
      Nat.digitChar (id.bits.toNat / 16 ^ (31 - (start + i)) % 16)
  String.intercalate "-"
    [digits 0 8, digits 8 4, digits 12 4, digits 16 4, digits 20 12]

instance : ToString Uuid := ⟨Uuid.toString⟩

/-- Seconds since the epoch, in UTC. -/
abbrev Timestamp := Int

inductive Role where
  | requester
  | approver
  | agent
  | admin
deriving DecidableEq, Repr

/-- External systems a rendered ticket can be dispatched to. -/
inductive TargetSystem where
  | jira
  | glpi
  | freshservice
  | webhook
deriving DecidableEq, Repr

inductive EndOutcome where
  | completed
  | rejected
  | cancelled
deriving DecidableEq, Repr

inductive InputType where
  | text
  | textArea
  | number
  | boolean
  | select
  | multiSelect
  | date
deriving DecidableEq, Repr

structure QuestionOption where
  value : String
  label : String
deriving DecidableEq, Repr

/-- Who must act on a `waitForApproval` step. -/
inductive ApproverResolution where
  | static (userId : Uuid)
  | managerOfRequester
  | roleInDepartment (role : Role)
deriving DecidableEq, Repr

/-- A boolean expression over the answers of an instance. -/
inductive Condition where
  | equals (fieldKey : String) (value : JsonValue)
  | notEquals (fieldKey : String) (value : JsonValue)
  | exists (fieldKey : String)
  | in (fieldKey : String) (values : List JsonValue)
  | and (conditions : List Condition)
  | or (conditions : List Condition)
  | not (condition : Condition)
deriving Repr

inductive StepKind where
  | question (fieldKey : String) (inputType : InputType) (required : Bool)
      (options : List QuestionOption) (next : String)
  | branch (condition : Condition) (onTrue onFalse : String)
  | waitForApproval (approverResolution : ApproverResolution)
      (onApprove onReject : String) (timeoutSeconds : Option Int64)
  | submitTicket (next : String)
  | end (outcome : EndOutcome)
deriving Repr

structure Step where
  id : String
  label : String
  kind : StepKind
deriving Repr

structure WorkflowGraph where
  entryStepId : String
  steps : List Step
deriving Repr

/-- The first step with the given id. -/
def WorkflowGraph.step (graph : WorkflowGraph) (id : String) : Option Step :=
  graph.steps.find? fun s => s.id = id

/-- Target field names and the templates they are rendered from, in the order in
which the hash map yields them. -/
abbrev FieldMapping := List (String × String)

structure WorkflowDefinition where
  id : Uuid
  name : String
  version : Int32
  graph : WorkflowGraph
  fieldMapping : Option FieldMapping
  targetSystem : Option TargetSystem
  isPublished : Bool
deriving Repr

/-- The labels of the arrows between steps. -/
inductive EdgeKind where
  | next
  | onTrue
  | onFalse
  | onApprove
  | onReject
deriving DecidableEq, Repr

/-- The arrows leaving a step, with the ids they point to. -/
def StepKind.edges : StepKind → List (EdgeKind × String)
  | .question _ _ _ _ next => [(.next, next)]
  | .branch _ onTrue onFalse => [(.onTrue, onTrue), (.onFalse, onFalse)]
  | .waitForApproval _ onApprove onReject _ =>
      [(.onApprove, onApprove), (.onReject, onReject)]
  | .submitTicket next => [(.next, next)]
  | .end _ => []

/-- The entry step and the target of every arrow exist. -/
def WorkflowGraph.Resolves (graph : WorkflowGraph) : Prop :=
  (graph.step graph.entryStepId).isSome = true ∧
    ∀ s ∈ graph.steps, ∀ edge ∈ s.kind.edges, (graph.step edge.2).isSome = true

instance (graph : WorkflowGraph) : Decidable graph.Resolves :=
  inferInstanceAs (Decidable (_ ∧ _))

end Servcat
