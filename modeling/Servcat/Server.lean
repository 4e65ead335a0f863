/-
The requests the server answers, and the two ways in which they run: any number
of them interleaved statement by statement, or one at a time to completion.
-/
import Servcat.Orchestrator

namespace Servcat

open Atomic

namespace Server

/-- The approvals route: records the decision, then resumes the instance. -/
def decide (deps : Deps) (rounds : Nat) (approvalId userId : Uuid)
    (decision : ApprovalDecision) (comment : Option String) :
    Async ApiError WorkflowInstance := do
  let approval ← Orchestrator.approvals <|
    Approvals.decide approvalId userId decision comment
  note (.resumed approval.id decision (some userId))
  Orchestrator.resumeAfterApproval deps rounds approval.workflowInstanceId
    approval.stepId decision

/-- An expired step is treated as a rejection; a failure to resume is logged. -/
def handleExpired (deps : Deps) (rounds : Nat) (approval : PendingApproval) :
    Async DbError Unit := do
  note (.resumed approval.id .reject none)
  let result ← .attempt <|
    Orchestrator.resumeAfterApproval deps rounds approval.workflowInstanceId
      approval.stepId .reject
  match result with
  | .ok _ => pure ()
  | .error err => note (.expiryResumeFailed approval.id err)

end Server

/-- What runs concurrently: requests of users and passes of the poller. -/
inductive Request where
  | start (catalogItemId : Uuid) (requester : User)
  | submit (instanceId : Uuid) (requester : User) (fieldKey : String)
      (value : JsonValue)
  | decide (approvalId userId : Uuid) (decision : ApprovalDecision)
      (comment : Option String)
  | poll

/-- A request with the bound on the rounds of its `applyOutcome` loops. -/
def Request.serve (deps : Deps) : Request × Nat →
    Async ApiError (Option WorkflowInstance)
  | (.start catalogItemId requester, rounds) => do
      let row ← Orchestrator.startInstance deps rounds catalogItemId requester
      return some row
  | (.submit instanceId requester fieldKey value, rounds) => do
      let row ← Orchestrator.submitAnswer deps rounds instanceId
        requester fieldKey value
      return some row
  | (.decide approvalId userId decision comment, rounds) => do
      let row ← Server.decide deps rounds approvalId userId decision comment
      return some row
  | (.poll, rounds) => do
      Orchestrator.db (Approvals.pollOnce (Server.handleExpired deps rounds))
      return none

/-- What the rest of the system may do between two steps: the clock moves on,
admins edit users, catalog items and settings, and add, publish or withdraw
definitions.  Nothing else of a definition ever changes. -/
structure World.Drift (w w' : World) : Prop where
  now : w.now ≤ w'.now
  definitions : ∀ id definition, w.db.definitions.find? id = some definition →
    ∃ isPublished,
      w'.db.definitions.find? id = some { definition with isPublished }
  instances : w'.db.instances = w.db.instances
  approvals : w'.db.approvals = w.db.approvals
  tickets : w'.db.tickets = w.db.tickets
  dispatches : w'.dispatches = w.dispatches
  log : w'.log = w.log

/-- No request has been made yet. -/
structure World.Initial (w : World) : Prop where
  instances : w.db.instances = .empty
  approvals : w.db.approvals = .empty
  tickets : w.db.tickets = .empty
  dispatches : w.dispatches = []
  log : w.log = []

/-- Requests interleaved at statement granularity, with faults at
any of them. -/
def system (deps : Deps) :
    System Input World (Request × Nat) ApiError (Option WorkflowInstance) where
  code := Request.serve deps
  input n i := i.thread = n
  drift := World.Drift

instance (deps : Deps) (n : Nat) (i : Input) :
    Decidable ((system deps).input n i) :=
  inferInstanceAs (Decidable (_ = _))

abbrev ServerConfig :=
  Config Input World (Request × Nat) ApiError (Option WorkflowInstance)

/-- What runs one at a time.  `expire` is the part of a poller pass that
concerns one of the approvals the pass listed. -/
inductive Operation where
  | start (catalogItemId : Uuid) (requester : User)
  | submit (instanceId : Uuid) (requester : User) (fieldKey : String)
      (value : JsonValue)
  | decide (approvalId userId : Uuid) (decision : ApprovalDecision)
      (comment : Option String)
  | expire (approval : PendingApproval)

def Operation.code (deps : Deps) (rounds : Nat) : Operation →
    Async ApiError (Option WorkflowInstance)
  | .start catalogItemId requester =>
      Request.serve deps (.start catalogItemId requester, rounds)
  | .submit instanceId requester fieldKey value =>
      Request.serve deps (.submit instanceId requester fieldKey value, rounds)
  | .decide approvalId userId decision comment =>
      Request.serve deps (.decide approvalId userId decision comment, rounds)
  | .expire approval => do
      Orchestrator.db <|
        Approvals.expireEach (Server.handleExpired deps rounds) [approval]
      return none

/-- Only a row that `list_expired` returns is expired. -/
def Operation.Admissible (w : World) : Operation → Prop
  | .expire approval => approval ∈ w.db.approvals.rows ∧
      approval.status = .pending ∧ ∃ t, approval.expiresAt = some t ∧ t ≤ w.now
  | _ => True

/-- The instance an operation submits to or resumes. -/
def Operation.instanceId? (db : Db) : Operation → Option Uuid
  | .start .. => none
  | .submit instanceId .. => some instanceId
  | .decide approvalId .. =>
      (db.approvals.find? approvalId).map PendingApproval.workflowInstanceId
  | .expire approval => some approval.workflowInstanceId

/-- The identifier is not the key of any row. -/
def World.Fresh (w : World) (id : Uuid) : Prop :=
  w.db.instances.find? id = none ∧ w.db.approvals.find? id = none ∧
    w.db.tickets.find? id = none

instance (w : World) (id : Uuid) : Decidable (w.Fresh id) :=
  inferInstanceAs (Decidable (_ ∧ _))

/-- No fault, and a random identifier that is new. -/
def Input.Admitted (i : Input) (w : World) : Prop :=
  i.fault = .none ∧ w.Fresh i.uuid

instance (i : Input) (w : World) : Decidable (i.Admitted w) :=
  inferInstanceAs (Decidable (_ ∧ _))

/-- The operation runs to completion without interruption or database fault. -/
def Operation.Completes (deps : Deps) (op : Operation) (w : World)
    (x : Exit ApiError (Option WorkflowInstance)) (w' : World) : Prop :=
  op.Admissible w ∧ ∃ rounds, Runs Input.Admitted (op.code deps rounds) w x w'

/-- One operation, among those `guard` lets run in this state, or a drift. -/
inductive SerialStep (deps : Deps) (guard : World → Operation → Prop) :
    World → World → Prop
  | drift {w w' : World} (h : w.Drift w') : SerialStep deps guard w w'
  | operation {w w' : World} {op : Operation}
      {x : Exit ApiError (Option WorkflowInstance)} (hguard : guard w op)
      (h : op.Completes deps w x w') : SerialStep deps guard w w'

/-- Operations executed one at a time. -/
abbrev Serial (deps : Deps) (guard : World → Operation → Prop) :
    World → World → Prop :=
  Relation.ReflTransGen (SerialStep deps guard)

/-- Every operation may run. -/
def anyOperation (_ : World) (_ : Operation) : Prop :=
  True

end Servcat
