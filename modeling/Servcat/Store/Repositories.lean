/-
The repositories: thin wrappers around one or two statements each.
-/
import Servcat.Store.Statements
import Mathlib.Data.List.Sort

namespace Servcat

open Atomic

namespace Repositories

namespace Users

def getById (id : Uuid) : Async DbError (Option User) :=
  select fun w => w.db.users.find? id

/-- Ordered by display name. -/
def listActiveByRoleInDepartment (collation : String → String → Bool)
    (role : Role) (departmentId : Uuid) : Async DbError (List User) :=
  select fun w =>
    (w.db.users.rows.filter fun u =>
      u.role == role && u.departmentId == some departmentId &&
        u.isActive).insertionSort
      fun a b => collation a.displayName b.displayName = true

end Users

namespace Catalog

def getById (id : Uuid) : Async DbError (Option ServiceCatalogItem) :=
  select fun w => w.db.items.find? id

end Catalog

namespace WorkflowDefinitions

def getById (id : Uuid) : Async DbError (Option WorkflowDefinition) :=
  select fun w => w.db.definitions.find? id

end WorkflowDefinitions

namespace OrgSettings

def get : Async DbError Servcat.OrgSettings :=
  select fun w => w.db.orgSettings

end OrgSettings

namespace Instances

def getById (id : Uuid) : Async DbError (Option WorkflowInstance) :=
  select fun w => w.db.instances.find? id

/-- `getById` for the row a request works from, which the log records together
with `fieldKey`. -/
def load (id : Uuid) (fieldKey : Option String) :
    Async DbError (Option WorkflowInstance) :=
  .atomic fun i w =>
    match i.fault, w.db.instances.find? id with
    | .none, some row =>
        (.ok (some row), w.record i.thread (.began { row, fieldKey }))
    | .none, none => (.ok none, w)
    | _, _ => (.error .sqlx, w)

def create (workflowDefinitionId catalogItemId requesterUserId : Uuid)
    (entryStepId : String) : Async DbError WorkflowInstance := do
  let id ← execute fun i w =>
    (w.db.insertInstance i.uuid workflowDefinitionId catalogItemId
      requesterUserId entryStepId).map fun db => (i.uuid, db, [])
  let row ← load id none
  .okOr (.notFound "workflow_instance" id.toString) row

def saveProgress (id : Uuid) (currentStepId : String) (answersJson : JsonValue)
    (status : InstanceStatus) : Async DbError (Option WorkflowInstance) := do
  execute fun _ w =>
    some ((), w.db.updateInstance id currentStepId answersJson status w.now,
      [.saved id currentStepId answersJson status])
  getById id

end Instances

namespace Approvals

def getById (id : Uuid) : Async DbError (Option PendingApproval) :=
  select fun w => w.db.approvals.find? id

def create (workflowInstanceId : Uuid) (stepId : String) (approverUserId : Uuid)
    (expiresAt : Option Timestamp) : Async DbError PendingApproval := do
  let id ← execute fun i w =>
    (w.db.insertApproval i.uuid workflowInstanceId stepId approverUserId
      expiresAt).map fun (row, db) => (i.uuid, db, [.approvalCreated row])
  let row ← getById id
  .okOr (.notFound "pending_approval" id.toString) row

/-- Approvals still `pending` whose `expires_at` has passed. -/
def listExpired : Async DbError (List PendingApproval) :=
  select fun w => w.db.approvals.rows.filter fun row =>
    row.status == .pending && row.expiresAt.any fun t => decide (t ≤ w.now)

/-- Flips the status of a row that is still `pending`; tells whether it was. -/
def decide (id : Uuid) (status : ApprovalStatus) (comment : Option String) :
    Async DbError Bool :=
  execute fun _ w =>
    some (w.db.isPending id, w.db.updateApproval id status comment w.now,
      if w.db.isPending id then [.decided id status] else [])

end Approvals

namespace Tickets

def getById (id : Uuid) : Async DbError (Option Ticket) :=
  select fun w => w.db.tickets.find? id

def create (workflowInstanceId : Uuid) (targetSystem : TargetSystem)
    (renderedPayloadJson : JsonValue) : Async DbError Ticket := do
  let id ← execute fun i w =>
    (w.db.insertTicket i.uuid workflowInstanceId targetSystem
      renderedPayloadJson).map fun db => (i.uuid, db, [])
  let row ← getById id
  .okOr (.notFound "ticket" id.toString) row

def markSent (id : Uuid) (externalTicketId : String)
    (externalTicketUrl : Option String) : Async DbError Unit :=
  execute fun _ w =>
    (w.db.markSent id externalTicketId externalTicketUrl).map fun db =>
      ((), db, [])

def markFailed (id : Uuid) (error : String) : Async DbError Unit :=
  execute fun _ w => (w.db.markFailed id error).map fun db => ((), db, [])

end Tickets

end Repositories

end Servcat
