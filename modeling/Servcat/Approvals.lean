/-
The approvals crate: finding an approver, opening an approval, deciding it, and
expiring the ones nobody decided.
-/
import Servcat.Store.Repositories

namespace Servcat

open Atomic

namespace Approvals

/-- A statement, with its errors as errors of this crate. -/
def db {α : Type} (p : Async DbError α) : Async ApprovalsError α :=
  p.mapError .db

/-- A fixed user need not exist; of several candidates the first by display
name is taken. -/
def resolveApproverUserId (deps : Deps) (requester : User) :
    ApproverResolution → Async ApprovalsError Uuid
  | .static userId => pure userId
  | .managerOfRequester =>
      .okOr .requesterHasNoManager requester.managerUserId
  | .roleInDepartment role => do
      let departmentId ← .okOr .requesterHasNoDepartment requester.departmentId
      let candidates ← db <|
        Repositories.Users.listActiveByRoleInDepartment deps.collation role
          departmentId
      .okOr (.noUserWithRoleInDepartment role) (candidates.head?.map User.id)

/-- `Utc::now()`. -/
def utcNow {ε : Type} : Async ε Timestamp :=
  .atomic fun _ w => (.ok w.now, w)

/-- The range of `DateTime<Utc>`, in seconds. -/
def minTimestamp : Timestamp := -8334601228800

def maxTimestamp : Timestamp := 8210266876799

/-- The largest argument of `Duration::seconds`, `i64::MAX / 1000`. -/
def maxSeconds : Int := 9223372036854775

/-- `now + Duration::seconds(secs)`, or `none` where one of the two panics. -/
def deadline (now : Timestamp) (secs : Int64) : Option Timestamp :=
  if -maxSeconds ≤ secs.toInt ∧ secs.toInt ≤ maxSeconds ∧
      minTimestamp ≤ now + secs.toInt ∧ now + secs.toInt ≤ maxTimestamp then
    some (now + secs.toInt)
  else none

def expiresAt : Option Int64 → Async ApprovalsError (Option Timestamp)
  | none => pure none
  | some secs => do
      let now ← utcNow
      match deadline now secs with
      | some t => pure (some t)
      | none => .panic

/-- The lookups after the insert only serve the notification. -/
def notifyNewApproval (approval : PendingApproval) (requester : User) :
    Async ApprovalsError Unit := do
  match ← db (Repositories.Users.getById approval.approverUserId) with
  | none => pure ()
  | some approver => do
      let catalogItemName ←
        match ← db (Repositories.Instances.getById
            approval.workflowInstanceId) with
        | some row => do
            let item ← db (Repositories.Catalog.getById row.catalogItemId)
            pure ((item.map ServiceCatalogItem.name).getD "(deleted service)")
        | none => pure "(unknown request)"
      let settings ← db Repositories.OrgSettings.get
      note (.notified
        { approval, approver, requester, catalogItemName
          orgTimezone := settings.timezone })

/-- Resolves the approver, creates the row and notifies.  The owning instance is
left to the caller. -/
def createForInstance (deps : Deps) (workflowInstanceId : Uuid)
    (stepId : String) (requester : User) (resolution : ApproverResolution)
    (timeoutSeconds : Option Int64) : Async ApprovalsError PendingApproval := do
  let approverUserId ← resolveApproverUserId deps requester resolution
  let expiresAt ← expiresAt timeoutSeconds
  let approval ← db <|
    Repositories.Approvals.create workflowInstanceId stepId
      approverUserId expiresAt
  notifyNewApproval approval requester
  return approval

def statusOf : ApprovalDecision → ApprovalStatus
  | .approve => .approved
  | .reject => .rejected

/-- Records an approver's decision. -/
def decide (approvalId decidingUserId : Uuid) (decision : ApprovalDecision)
    (comment : Option String) : Async ApprovalsError PendingApproval := do
  let found ← db (Repositories.Approvals.getById approvalId)
  let approval ← .okOr (.notFound approvalId) found
  if approval.approverUserId ≠ decidingUserId then
    .throw (.notTheApprover approvalId decidingUserId)
  else if approval.status ≠ .pending then
    .throw (.alreadyDecided approvalId)
  else do
    let flipped ← db <|
      Repositories.Approvals.decide approvalId (statusOf decision) comment
    if flipped then do
      let found ← db (Repositories.Approvals.getById approvalId)
      .okOr (.notFound approvalId) found
    else
      -- Lost a race against the expiry poller or a duplicate request.
      .throw (.alreadyDecided approvalId)

/-- The loop of `pollOnce` over the rows it listed. -/
def expireEach (handleExpired : PendingApproval → Async DbError Unit) :
    List PendingApproval → Async DbError Unit
  | [] => pure ()
  | approval :: rest => do
      let flipped ← Repositories.Approvals.decide approval.id .expired
        (some "auto-expired: approval timeout reached")
      if flipped then handleExpired approval else pure ()
      expireEach handleExpired rest

/-- One pass of the expiry poller. -/
def pollOnce (handleExpired : PendingApproval → Async DbError Unit) :
    Async DbError Unit := do
  let expired ← Repositories.Approvals.listExpired
  expireEach handleExpired expired

end Approvals

end Servcat
