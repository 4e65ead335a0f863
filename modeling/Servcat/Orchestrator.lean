/-
The orchestrator: drives an instance through the engine and performs the side
effects each outcome asks for.
-/
import Servcat.Approvals

namespace Servcat

open Atomic

namespace Orchestrator

def db {α : Type} (p : Async DbError α) : Async ApiError α :=
  p.mapError .ofDb

def approvals {α : Type} (p : Async ApprovalsError α) : Async ApiError α :=
  p.mapError .ofApprovals

def engine {α : Type} (result : Except EngineError α) : Async ApiError α :=
  .liftExcept (result.mapError .ofEngine)

def answersMap (value : JsonValue) : Answers :=
  value.asObject.getD []

/-- Ask the connector to file a ticket. -/
def callConnector (connector : TicketConnector) (instanceId : Uuid)
    (stepId : String) (targetSystem : TargetSystem) (payload : JsonValue) :
    Async ApiError (Except ConnectorError DispatchResult) :=
  .atomic fun _ w =>
    let result := connector w.dispatches.length payload
    (.ok result, { w with
      dispatches := { instanceId, stepId, targetSystem, payload, result } ::
        w.dispatches })

/-- `stepId` is only recorded with the call of the connector. -/
def dispatchTicket (deps : Deps) (definition : WorkflowDefinition)
    (instanceId : Uuid) (stepId : String) (requesterUserId : Uuid)
    (answers : Answers) : Async ApiError Unit := do
  let targetSystem ← .okOr .internal definition.targetSystem
  let mapping ← .okOr .internal definition.fieldMapping
  let connector ← .okOr .internal (deps.connectors targetSystem)
  let requester ← db (Repositories.Users.getById requesterUserId)
  let requester ← .okOr .internal requester
  let row ← db (Repositories.Instances.getById instanceId)
  let row ← .okOr .internal row
  let item ← db (Repositories.Catalog.getById row.catalogItemId)
  let item ← .okOr .internal item
  let context : TemplateContext :=
    { answers := .object answers
      requesterEmail := requester.email
      requesterDisplayName := requester.displayName
      instanceId := instanceId.toString
      catalogItemName := item.name }
  let payload ← .liftExcept <|
    (renderFieldMapping deps.oneOff mapping context).mapError fun _ => .internal
  let ticket ← db (Repositories.Tickets.create instanceId targetSystem payload)
  match ← callConnector connector instanceId stepId targetSystem payload with
  | .ok result =>
      db (Repositories.Tickets.markSent ticket.id result.externalTicketId
        result.externalTicketUrl)
  | .error err => do
      db (Repositories.Tickets.markFailed ticket.id err.message)
      .throw (.ofConnector err)

def endStatus : EndOutcome → InstanceStatus
  | .completed => .completed
  | .rejected => .rejected
  | .cancelled => .cancelled

/-- `save_progress(...).await?.ok_or(ApiError::Internal)`. -/
def saveProgress (instanceId : Uuid) (stepId : String) (answers : Answers)
    (status : InstanceStatus) : Async ApiError WorkflowInstance := do
  let saved ← db <|
    Repositories.Instances.saveProgress instanceId stepId
      (.object answers) status
  .okOr .internal saved

/-- Drives `outcome` to the next point that needs external input, or to
completion.  The loop need not end; the first argument after the answers bounds
the number of its rounds. -/
def applyOutcome (deps : Deps) (definition : WorkflowDefinition)
    (instanceId requesterUserId : Uuid) (answers : Answers) :
    Nat → String → Outcome → Async ApiError WorkflowInstance
  | 0, _, _ => .spin
  | rounds + 1, stepId, outcome =>
      match outcome with
      | .awaitingAnswer _ => saveProgress instanceId stepId answers .inProgress
      | .awaitingApproval resolution timeoutSeconds => do
          let requester ← db (Repositories.Users.getById requesterUserId)
          let requester ← .okOr .internal requester
          let _ ← approvals <|
            Approvals.createForInstance deps instanceId stepId requester
              resolution timeoutSeconds
          saveProgress instanceId stepId answers .awaitingApproval
      | .readyToSubmitTicket => do
          let dispatched ← .attempt <|
            dispatchTicket deps definition instanceId stepId
              requesterUserId answers
          match dispatched with
          | .error err => do
              let _ ← db <| Repositories.Instances.saveProgress
                instanceId stepId (.object answers) .failed
              .throw err
          | .ok () => do
              let (nextStepId, nextOutcome) ← engine <|
                Engine.resumeAfterTicketDispatch definition.graph stepId answers
              applyOutcome deps definition instanceId requesterUserId
                answers rounds nextStepId nextOutcome
      | .finished endOutcome =>
          saveProgress instanceId stepId answers (endStatus endOutcome)

def startInstance (deps : Deps) (rounds : Nat) (catalogItemId : Uuid)
    (requester : User) : Async ApiError WorkflowInstance := do
  let item ← db (Repositories.Catalog.getById catalogItemId)
  let item ← .okOr (.notFound "service catalog item not found") item
  if item.isActive = false then
    .throw (.conflict "this service is not currently offered")
  else do
    let definition ← db <|
      Repositories.WorkflowDefinitions.getById item.workflowDefinitionId
    let definition ← .okOr .internal definition
    let (stepId, outcome) ← engine (Engine.start definition.graph)
    let row ← db <|
      Repositories.Instances.create definition.id item.id requester.id stepId
    applyOutcome deps definition row.id requester.id
      (answersMap row.answersJson) rounds stepId outcome

def submitAnswer (deps : Deps) (rounds : Nat) (instanceId : Uuid)
    (requester : User) (fieldKey : String) (value : JsonValue) :
    Async ApiError WorkflowInstance := do
  let row ← db (Repositories.Instances.load instanceId (some fieldKey))
  let row ← .okOr (.notFound "request not found") row
  if row.requesterUserId ≠ requester.id then
    .throw .forbidden
  else if row.status ≠ .inProgress then
    .throw (.conflict "this request is not currently awaiting input")
  else do
    let definition ← db <|
      Repositories.WorkflowDefinitions.getById row.workflowDefinitionId
    let definition ← .okOr .internal definition
    let (answers, result) :=
      Engine.submitAnswer definition.graph row.currentStepId
        (answersMap row.answersJson) fieldKey value
    let (stepId, outcome) ← engine result
    applyOutcome deps definition row.id requester.id answers rounds
      stepId outcome

/-- Shared by the approvals route and the expiry poller. -/
def resumeAfterApproval (deps : Deps) (rounds : Nat) (instanceId : Uuid)
    (stepId : String) (decision : ApprovalDecision) :
    Async ApiError WorkflowInstance := do
  let row ← db (Repositories.Instances.load instanceId none)
  let row ← .okOr .internal row
  let definition ← db <|
    Repositories.WorkflowDefinitions.getById row.workflowDefinitionId
  let definition ← .okOr .internal definition
  let answers := answersMap row.answersJson
  let (nextStepId, outcome) ← engine <|
    Engine.resumeAfterApproval definition.graph stepId answers decision
  applyOutcome deps definition row.id row.requesterUserId answers rounds
    nextStepId outcome

end Orchestrator

end Servcat
