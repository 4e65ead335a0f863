/-
The starter catalog: items read from a file, each with a workflow built from one
of five patterns.
-/
import Servcat.Orchestrator
import Servcat.Store.Authoring

namespace Servcat

open Atomic

structure SeedOption where
  value : String
  label : String

structure SeedQuestion where
  fieldKey : String
  label : String
  inputType : InputType
  required : Bool
  options : List SeedOption

/-- The shapes of approvals and tickets that every seeded item is built from. -/
inductive WorkflowPattern where
  | simpleTicket
  | managerApprovalTicket
  | securityApprovalTicket
  | financeApprovalTicket
  | infoOnly
deriving DecidableEq, Repr

structure SeedItem where
  slug : String
  name : String
  category : String
  icon : String
  summary : String
  description : String
  included : List String
  notIncluded : List String
  needed : List String
  keywords : List String
  approvalLabel : String
  workflowPattern : WorkflowPattern
  targetValue : Int32
  targetUnit : TargetUnit
  published : Bool
  questions : List SeedQuestion

structure SeedSummary where
  added : Nat
  skipped : Nat
  skippedNames : List String
deriving DecidableEq, Repr

namespace CatalogSeed

def endStep (id : String) (outcome : EndOutcome) : Step where
  id := id
  label :=
    match outcome with
    | .completed => "Request completed"
    | .rejected => "Request not approved"
    | .cancelled => "Request cancelled"
  kind := .end outcome

def appendQuestions (steps : List Step) (questions : List SeedQuestion)
    (nextAfter : String) : List Step :=
  steps ++ questions.mapIdx fun i q =>
    let next :=
      if i + 1 < questions.length then "q" ++ toString (i + 2) else nextAfter
    { id := "q" ++ toString (i + 1)
      label := q.label
      kind := .question q.fieldKey q.inputType q.required
        (q.options.map fun o => ⟨o.value, o.label⟩) next }

def pushSubmitAndEnds (steps : List Step) (submitId completedId : String)
    (rejectedId : Option String) : List Step :=
  let steps := steps ++
    [⟨submitId, "Submit ticket", .submitTicket completedId⟩,
      endStep completedId .completed]
  match rejectedId with
  | some rejectedId =>
      steps ++ [⟨rejectedId, "Request not approved", .end .rejected⟩]
  | none => steps

def managerApproval (onApprove : String) : Step where
  id := "manager_approval"
  label := "Manager approval"
  kind := .waitForApproval .managerOfRequester onApprove "end_rejected" none

/-- A manager's approval, a second one by an approver of the
department, a ticket. -/
def twoApprovals (questions : List SeedQuestion)
    (secondId secondLabel : String) : List Step :=
  let steps := appendQuestions [] questions "manager_approval"
  let steps := steps ++
    [managerApproval secondId,
     { id := secondId
       label := secondLabel
       kind := .waitForApproval (.roleInDepartment .approver) "submit"
         "end_rejected" none }]
  pushSubmitAndEnds steps "submit" "end_completed" (some "end_rejected")

/-- The steps of a pattern: the questions first, then approvals and ticket. -/
def buildSteps (pattern : WorkflowPattern)
    (questions : List SeedQuestion) : List Step :=
  match pattern with
  | .simpleTicket =>
      pushSubmitAndEnds (appendQuestions [] questions "submit") "submit"
        "end_completed" none
  | .infoOnly =>
      appendQuestions [] questions "end_completed" ++
        [endStep "end_completed" .completed]
  | .managerApprovalTicket =>
      pushSubmitAndEnds
        (appendQuestions [] questions "manager_approval" ++
          [managerApproval "submit"])
        "submit" "end_completed" (some "end_rejected")
  | .securityApprovalTicket =>
      twoApprovals questions "security_approval" <|
        "Security approval (placeholder: routes to any \"Approver\"-role " ++
          "user in the requester's department -- reassign this step once " ++
          "your organization's real security approver/team is set up)"
  | .financeApprovalTicket =>
      twoApprovals questions "finance_approval" <|
        "Finance approval (placeholder: routes to any \"Approver\"-role " ++
          "user in the requester's department -- reassign this step once " ++
          "your organization's real finance approver/team is set up)"

theorem buildSteps_ne_nil (pattern : WorkflowPattern)
    (questions : List SeedQuestion) : buildSteps pattern questions ≠ [] := by
  cases pattern <;> simp [buildSteps, twoApprovals, pushSubmitAndEnds]

/-- The step graph of a pattern, entered at its first step. -/
def buildGraph (pattern : WorkflowPattern) (questions : List SeedQuestion) :
    WorkflowGraph where
  entryStepId :=
    ((buildSteps pattern questions).head
      (buildSteps_ne_nil pattern questions)).id
  steps := buildSteps pattern questions

/-- The workflow definition of an item. -/
def newDefinition (item : SeedItem) : NewWorkflowDefinition where
  name := item.name ++ " (starter catalog)"
  graph := buildGraph item.workflowPattern item.questions
  fieldMapping := none
  targetSystem := none

/-- The catalog item for the `index`-th item of the file. -/
def newItem (index : Nat) (item : SeedItem) (workflowDefinitionId : Uuid) :
    NewServiceCatalogItem where
  slug := some item.slug
  name := item.name
  description := some item.description
  summary := some item.summary
  details := some
    { included := item.included
      notIncluded := item.notIncluded
      needed := item.needed
      keywords := item.keywords }
  approvalLabel := some item.approvalLabel
  targetValue := some item.targetValue
  targetUnit := some item.targetUnit
  category := some item.category
  icon := some item.icon
  sortOrder := Int32.ofNat index
  workflowDefinitionId := workflowDefinitionId

/-- The two rows of an item that is not in the catalog yet. -/
def addItem (collation : String → String → Bool) (createdBy : Uuid)
    (index : Nat) (item : SeedItem) : Async ApiError Unit := do
  let workflow ← Orchestrator.db <|
    Repositories.WorkflowDefinitions.create collation
      (newDefinition item) createdBy
  -- Published at once: the item is meant to be usable the moment it is seeded.
  Orchestrator.db (Repositories.WorkflowDefinitions.setPublished
    workflow.id true)
  let created ← Orchestrator.db <|
    Repositories.Catalog.create collation
      (newItem index item workflow.id) createdBy
  if !item.published then
    Orchestrator.db (Repositories.Catalog.deactivate created.id)

/-- The loop over the items of the file from the `index`-th on. -/
def runLoop (collation : String → String → Bool) (createdBy : Uuid)
    (existingSlugs : List String) (summary : SeedSummary) (index : Nat) :
    List SeedItem → Async ApiError SeedSummary
  | [] => pure summary
  | item :: rest =>
      if existingSlugs.contains item.slug then
        let summary := { summary with
          skipped := summary.skipped + 1
          skippedNames := summary.skippedNames ++ [item.name] }
        runLoop collation createdBy existingSlugs summary (index + 1) rest
      else do
        addItem collation createdBy index item
        let summary := { summary with added := summary.added + 1 }
        runLoop collation createdBy existingSlugs summary (index + 1) rest

/-- Adds the items whose slugs are not in the catalog yet. -/
def run (collation : String → String → Bool) (items : List SeedItem)
    (createdBy : Uuid) : Async ApiError SeedSummary := do
  let existing ← Orchestrator.db (Repositories.Catalog.list collation true)
  runLoop collation createdBy (existing.filterMap ServiceCatalogItem.slug)
    ⟨0, 0, []⟩ 0 items

end CatalogSeed

end Servcat
