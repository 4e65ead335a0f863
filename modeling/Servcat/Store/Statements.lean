/-
What each writing statement does to the tables.  Foreign keys, primary keys
and the columns for what connectors answer are checked here; a rejected
statement gives `none`.
-/
import Servcat.Store.Columns
import Servcat.Store.World

namespace Servcat

open Keyed

/-- The tables with other tickets. -/
def Db.withTickets (db : Db) (tickets : Table Ticket.id) : Db :=
  { db with tickets := tickets }

/-- The tables with other approvals. -/
def Db.withApprovals (db : Db) (approvals : Table PendingApproval.id) : Db :=
  { db with approvals := approvals }

namespace Db

variable (db : Db)

/-- `INSERT INTO workflow_instances`: the defaults are `in_progress` and no
`completed_at`. -/
def insertInstance
    (id workflowDefinitionId catalogItemId requesterUserId : Uuid)
    (entryStepId : String) : Option Db :=
  if (db.definitions.find? workflowDefinitionId).isSome &&
      (db.items.find? catalogItemId).isSome &&
      (db.users.find? requesterUserId).isSome then
    (db.instances.insert?
      { id, workflowDefinitionId, catalogItemId, requesterUserId
        status := .inProgress
        currentStepId := entryStepId
        answersJson := .object []
        completedAt := none }).map fun instances => { db with instances }
  else none

theorem insertInstance_inserts {db db' : Db}
    {id workflowDefinitionId catalogItemId requesterUserId : Uuid}
    {entryStepId : String}
    (h : db.insertInstance id workflowDefinitionId catalogItemId requesterUserId
      entryStepId = some db') :
    ∃ instances, db.instances.insert?
      { id, workflowDefinitionId, catalogItemId, requesterUserId
        status := .inProgress
        currentStepId := entryStepId
        answersJson := .object []
        completedAt := none } = some instances ∧
          db' = { db with instances } := by
  unfold insertInstance at h
  split at h
  · obtain ⟨instances, hinsert, rfl⟩ := Option.map_eq_some_iff.mp h
    exact ⟨instances, hinsert, rfl⟩
  · cases h

/-- The row `save_progress` leaves behind. -/
def progressed (stepId : String) (answersJson : JsonValue)
    (status : InstanceStatus) (now : Timestamp)
    (row : WorkflowInstance) : WorkflowInstance :=
  { row with
    currentStepId := stepId
    answersJson := answersJson
    status := status
    completedAt := if status.isTerminal then some now else row.completedAt }

/-- `UPDATE workflow_instances ... WHERE id = ?`. -/
def updateInstance (id : Uuid) (stepId : String) (answersJson : JsonValue)
    (status : InstanceStatus) (now : Timestamp) : Db :=
  { db with
    instances :=
      db.instances.modify id (progressed stepId answersJson status now)
      fun _ => rfl }

theorem find?_updateInstance (db : Db) (id : Uuid) (stepId : String)
    (answersJson : JsonValue) (status : InstanceStatus) (now : Timestamp)
    (id' : Uuid) :
    (db.updateInstance id stepId answersJson status now).instances.find? id' =
      if id' = id then
        (db.instances.find? id').map (progressed stepId answersJson status now)
      else db.instances.find? id' :=
  Table.find?_modify db.instances id (progressed stepId answersJson status now)
    (fun _ => rfl) id'

/-- `INSERT INTO pending_approvals`: the default status is `pending`. -/
def insertApproval (id workflowInstanceId : Uuid) (stepId : String)
    (approverUserId : Uuid) (expiresAt : Option Timestamp) :
    Option (PendingApproval × Db) :=
  let row : PendingApproval :=
    { id, workflowInstanceId, stepId, approverUserId, expiresAt
      status := .pending
      comment := none
      decidedAt := none }
  if (db.instances.find? workflowInstanceId).isSome &&
      (db.users.find? approverUserId).isSome then
    (db.approvals.insert? row).map fun approvals => (row, { db with approvals })
  else none

/-- The row a guarded decision leaves behind. -/
def decided (status : ApprovalStatus) (comment : Option String)
    (now : Timestamp) (row : PendingApproval) : PendingApproval :=
  if row.status = .pending then
    { row with
      status := status
      comment := comment
      decidedAt := some now }
  else row

@[simp] theorem decided_id (status : ApprovalStatus) (comment : Option String)
    (now : Timestamp) (row : PendingApproval) :
    (decided status comment now row).id = row.id := by
  unfold decided
  split <;> rfl

@[simp] theorem decided_workflowInstanceId (status : ApprovalStatus)
    (comment : Option String) (now : Timestamp) (row : PendingApproval) :
    (decided status comment now row).workflowInstanceId =
      row.workflowInstanceId := by
  unfold decided
  split <;> rfl

@[simp] theorem decided_stepId (status : ApprovalStatus)
    (comment : Option String) (now : Timestamp) (row : PendingApproval) :
    (decided status comment now row).stepId = row.stepId := by
  unfold decided
  split <;> rfl

@[simp] theorem decided_approverUserId (status : ApprovalStatus)
    (comment : Option String) (now : Timestamp) (row : PendingApproval) :
    (decided status comment now row).approverUserId = row.approverUserId := by
  unfold decided
  split <;> rfl

/-- Does `WHERE id = ? AND status = 'pending'` match a row? -/
def isPending (id : Uuid) : Bool :=
  (db.approvals.find? id).any fun row => row.status == .pending

theorem isPending_iff {db : Db} {id : Uuid} :
    db.isPending id = true ↔
      ∃ approval, db.approvals.find? id = some approval ∧
        approval.status = .pending := by
  simp [isPending, Option.any_eq_true]

/-- `UPDATE pending_approvals ... WHERE id = ? AND status = 'pending'`. -/
def updateApproval (id : Uuid) (status : ApprovalStatus)
    (comment : Option String) (now : Timestamp) : Db :=
  { db with
    approvals := db.approvals.modify id (decided status comment now)
      (decided_id status comment now) }

theorem find?_updateApproval (db : Db) (id : Uuid) (status : ApprovalStatus)
    (comment : Option String) (now : Timestamp) (id' : Uuid) :
    (db.updateApproval id status comment now).approvals.find? id' =
      if id' = id then
        (db.approvals.find? id').map (decided status comment now)
      else db.approvals.find? id' :=
  Table.find?_modify db.approvals id (decided status comment now)
    (decided_id status comment now) id'

/-- A guarded update that matches no row changes nothing. -/
theorem updateApproval_of_not_pending {db : Db} {id : Uuid}
    (h : ¬ db.isPending id = true) (status : ApprovalStatus)
    (comment : Option String) (now : Timestamp) :
    db.updateApproval id status comment now = db := by
  have hsame : db.approvals.modify id (decided status comment now)
      (decided_id status comment now) = db.approvals := by
    refine Table.modify_eq_self fun row hrow => if_neg fun hpending => ?_
    exact h (isPending_iff.mpr ⟨row, hrow, hpending⟩)
  simp [updateApproval, hsame]

/-- `INSERT INTO tickets`: the default status is `pending`. -/
def insertTicket (id workflowInstanceId : Uuid) (targetSystem : TargetSystem)
    (renderedPayloadJson : JsonValue) : Option Db :=
  if (db.instances.find? workflowInstanceId).isSome then
    (db.tickets.insert?
      { id, workflowInstanceId, targetSystem, renderedPayloadJson
        externalTicketId := none
        externalTicketUrl := none
        dispatchStatus := .pending
        lastError := none }).map fun tickets => { db with tickets }
  else none

/-- `external_ticket_id` is a `VARCHAR(255)`, `external_ticket_url` a
`VARCHAR(1024)`. -/
def markSent (id : Uuid) (externalTicketId : String)
    (externalTicketUrl : Option String) : Option Db := do
  let externalTicketId ← varchar 255 externalTicketId
  let externalTicketUrl ← externalTicketUrl.mapM (varchar 1024)
  return { db with
    tickets := db.tickets.modify id (fun row =>
      { row with
        dispatchStatus := .sent
        externalTicketId := some externalTicketId
        externalTicketUrl := externalTicketUrl
        lastError := none }) fun _ => rfl }

/-- `last_error` is a `TEXT`. -/
def markFailed (id : Uuid) (error : String) : Option Db := do
  let error ← textColumn error
  return { db with
    tickets := db.tickets.modify id (fun row =>
      { row with
        dispatchStatus := .failed
        lastError := some error }) fun _ => rfl }

end Db

/-- The row `approvals.create` inserts. -/
def openApproval (id workflowInstanceId : Uuid) (stepId : String)
    (approverUserId : Uuid)
    (expiresAt : Option Timestamp) : PendingApproval where
  id := id
  workflowInstanceId := workflowInstanceId
  stepId := stepId
  approverUserId := approverUserId
  status := .pending
  comment := none
  decidedAt := none
  expiresAt := expiresAt

/-- The row `tickets.create` inserts. -/
def pendingTicket (id workflowInstanceId : Uuid) (targetSystem : TargetSystem)
    (payload : JsonValue) : Ticket where
  id := id
  workflowInstanceId := workflowInstanceId
  targetSystem := targetSystem
  renderedPayloadJson := payload
  externalTicketId := none
  externalTicketUrl := none
  dispatchStatus := .pending
  lastError := none

/-- What the row of a ticket keeps of an answer, if it has room for it. -/
def DispatchResult.stored
    (result : DispatchResult) : Option DispatchResult := do
  let externalTicketId ← varchar 255 result.externalTicketId
  let externalTicketUrl ← result.externalTicketUrl.mapM (varchar 1024)
  return { externalTicketId, externalTicketUrl }

/-- The row of a ticket has room for what the connector says. -/
def Recordable : Except ConnectorError DispatchResult → Prop
  | .ok result => result.stored.isSome
  | .error err => (textColumn err.message).isSome

/-- An accepted ticket is recorded exactly if only blanks exceed the columns of
its id and its URL. -/
theorem recordable_ok_iff (result : DispatchResult) :
    Recordable (.ok result) ↔
      (∀ c ∈ result.externalTicketId.toList.drop 255, c = ' ') ∧
      ∀ url ∈ result.externalTicketUrl, ∀ c ∈ url.toList.drop 1024,
        c = ' ' := by
  rw [← varchar_isSome_iff 255]
  show result.stored.isSome ↔ _
  unfold DispatchResult.stored
  cases varchar 255 result.externalTicketId with
  | none => simp
  | some id =>
      cases result.externalTicketUrl with
      | none => simp
      | some url =>
          simp only [← varchar_isSome_iff 1024, Option.mem_some_iff, forall_eq']
          cases hurl : varchar 1024 url <;> simp [hurl]

namespace Ticket

/-- What is left of a ticket that was filed. -/
def sent (result : DispatchResult) (ticket : Ticket) : Ticket :=
  { ticket with
    dispatchStatus := .sent
    externalTicketId := some result.externalTicketId
    externalTicketUrl := result.externalTicketUrl
    lastError := none }

/-- What is left of a ticket that was refused. -/
def refused (error : String) (ticket : Ticket) : Ticket :=
  { ticket with
    dispatchStatus := .failed
    lastError := some error }

end Ticket

namespace Db

theorem insertApproval_inserts {db db' : Db} {id workflowInstanceId : Uuid}
    {stepId : String} {approverUserId : Uuid} {expiresAt : Option Timestamp}
    {row : PendingApproval}
    (h : db.insertApproval id workflowInstanceId stepId approverUserId
      expiresAt = some (row, db')) :
    row = openApproval id workflowInstanceId stepId approverUserId expiresAt ∧
      ∃ approvals, db.approvals.insert? row = some approvals ∧
        db' = db.withApprovals approvals := by
  unfold insertApproval at h
  split at h
  · obtain ⟨approvals, hinsert, heq⟩ := Option.map_eq_some_iff.mp h
    cases heq
    exact ⟨rfl, approvals, hinsert, rfl⟩
  · cases h

theorem insertTicket_inserts {db db' : Db} {id workflowInstanceId : Uuid}
    {targetSystem : TargetSystem} {payload : JsonValue}
    (h : db.insertTicket id workflowInstanceId targetSystem payload =
      some db') :
    ∃ tickets, db.tickets.insert?
      (pendingTicket id workflowInstanceId targetSystem payload) =
        some tickets ∧ db' = db.withTickets tickets := by
  unfold insertTicket at h
  split at h
  · obtain ⟨tickets, hinsert, rfl⟩ := Option.map_eq_some_iff.mp h
    exact ⟨tickets, hinsert, rfl⟩
  · cases h

theorem markSent_eq (db : Db) (id : Uuid) (result : DispatchResult) :
    db.markSent id result.externalTicketId result.externalTicketUrl =
      result.stored.map fun stored =>
        db.withTickets (db.tickets.modify id (Ticket.sent stored)
          fun _ => rfl) := by
  unfold markSent DispatchResult.stored
  cases varchar 255 result.externalTicketId with
  | none => rfl
  | some externalTicketId =>
      cases result.externalTicketUrl.mapM (varchar 1024) <;> rfl

theorem markFailed_eq (db : Db) (id : Uuid) (error : String) :
    db.markFailed id error = (textColumn error).map fun stored =>
      db.withTickets (db.tickets.modify id (Ticket.refused stored)
        fun _ => rfl) := by
  unfold markFailed
  cases textColumn error <;> rfl

end Db

end Servcat
