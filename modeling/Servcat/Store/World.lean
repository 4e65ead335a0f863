/-
The state shared by all requests: the tables, the clock, what the connectors
were asked to do, and a log that no code reads.  Every statement is one atomic
step, which the database may fail to carry out or to acknowledge.
-/
import Servcat.Atomic.Interleaving
import Servcat.Keyed.Table
import Servcat.Connectors

namespace Servcat

open Atomic Keyed

structure Db where
  users : Table User.id
  items : Table ServiceCatalogItem.id
  definitions : Table WorkflowDefinition.id
  instances : Table WorkflowInstance.id
  approvals : Table PendingApproval.id
  tickets : Table Ticket.id
  orgSettings : OrgSettings

/-- One call of a connector, for the instance and the step it was made at. -/
structure Dispatch where
  instanceId : Uuid
  stepId : String
  targetSystem : TargetSystem
  payload : JsonValue
  result : Except ConnectorError DispatchResult

structure NewApprovalNotification where
  approval : PendingApproval
  approver : User
  requester : User
  catalogItemName : String
  orgTimezone : String

/-- The row of an instance as a request read it to work on; `fieldKey` is the
key of the answer it submits, if it submits one. -/
structure Reading where
  row : WorkflowInstance
  fieldKey : Option String

/-- What the log records of a request. -/
inductive Event where
  /-- The request read the row of the instance it works on. -/
  | began (reading : Reading)
  /-- `save_progress` was carried out. -/
  | saved (instanceId : Uuid) (stepId : String) (answersJson : JsonValue)
      (status : InstanceStatus)
  /-- A row was inserted into `pending_approvals`. -/
  | approvalCreated (approval : PendingApproval)
  /-- The guarded update matched and left the row with this status. -/
  | decided (approvalId : Uuid) (status : ApprovalStatus)
  /-- `resume_after_approval` was called for an approval; `user` is the one who
  decided it, if anyone did. -/
  | resumed (approvalId : Uuid) (decision : ApprovalDecision)
      (user : Option Uuid)
  | notified (notification : NewApprovalNotification)
  /-- The instance of an expired approval could not be resumed. -/
  | expiryResumeFailed (approvalId : Uuid) (err : ApiError)

/-- `dispatches` and `log` have their newest entry first; `log` gives the thread
of each entry. -/
structure World where
  db : Db
  now : Timestamp
  dispatches : List Dispatch
  log : List (Nat × Event)

def World.record (w : World) (thread : Nat) (event : Event) : World :=
  { w with log := (thread, event) :: w.log }

/-- Replace the tables and append to the log. -/
def World.commit (w : World) (thread : Nat) (db : Db)
    (events : List Event) : World :=
  { w with db := db, log := events.map (fun e => (thread, e)) ++ w.log }

@[simp] theorem World.commit_db (w : World) (thread : Nat) (db : Db)
    (events : List Event) : (w.commit thread db events).db = db :=
  rfl

/-- How a statement goes wrong: it is not carried out, or it is but the client
never learns.  A statement the database refuses for a reason that is not
modelled (a step id too long for its column, say, or a deadline out of range) is
a fault of the first kind. -/
inductive Fault where
  | none
  | lostRequest
  | lostReply
deriving DecidableEq, Repr

/-- What a step is given from outside: the thread it belongs to, a random
identifier, and a fault. -/
structure Input where
  thread : Nat
  uuid : Uuid
  fault : Fault
deriving DecidableEq, Repr

def Input.Faultless (i : Input) : Prop :=
  i.fault = .none

instance (i : Input) : Decidable i.Faultless :=
  inferInstanceAs (Decidable (_ = _))

/-- An `async fn` returning a `Result`. -/
abbrev Async (ε α : Type) := Program Input World ε α

/-- A statement that only reads. -/
def select {α : Type} (f : World → α) : Async DbError α :=
  .atomic fun i w =>
    match i.fault with
    | .none => (.ok (f w), w)
    | _ => (.error .sqlx, w)

/-- A statement that writes: its result, the tables after it and what the log
records, or `none` when a constraint rejects it. -/
def execute {α : Type} (f : Input → World → Option (α × Db × List Event)) :
    Async DbError α :=
  .atomic fun i w =>
    match f i w, i.fault with
    | some (a, db, events), .none => (.ok a, w.commit i.thread db events)
    | some (_, db, events), .lostReply =>
        (.error .sqlx, w.commit i.thread db events)
    | _, _ => (.error .sqlx, w)

/-- An entry of the log that no statement writes. -/
def note {ε : Type} (event : Event) : Async ε Unit :=
  .atomic fun i w => (.ok (), w.record i.thread event)

end Servcat
