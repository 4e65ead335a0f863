/-
The rows of the tables the orchestrator reads and writes.
-/
import Servcat.Engine

namespace Servcat

structure User where
  id : Uuid
  email : String
  displayName : String
  passwordHash : Option String
  externalIdpSubject : Option String
  departmentId : Option Uuid
  managerUserId : Option Uuid
  role : Role
  isActive : Bool
deriving DecidableEq, Repr

inductive TargetUnit where
  | minutes
  | hours
  | businessDays
  | calendarDays
deriving DecidableEq, Repr

structure CatalogItemDetails where
  included : List String
  notIncluded : List String
  needed : List String
  keywords : List String
deriving DecidableEq, Repr

structure ServiceCatalogItem where
  id : Uuid
  slug : Option String
  name : String
  description : Option String
  summary : Option String
  detailsJson : Option CatalogItemDetails
  approvalLabel : Option String
  targetValue : Option Int32
  targetUnit : Option TargetUnit
  category : Option String
  icon : Option String
  sortOrder : Int32
  workflowDefinitionId : Uuid
  isActive : Bool
deriving DecidableEq, Repr

inductive InstanceStatus where
  | inProgress
  | awaitingApproval
  | completed
  | rejected
  | cancelled
  | failed
deriving DecidableEq, Repr

def InstanceStatus.isTerminal : InstanceStatus → Bool
  | .completed | .rejected | .cancelled | .failed => true
  | .inProgress | .awaitingApproval => false

structure WorkflowInstance where
  id : Uuid
  workflowDefinitionId : Uuid
  catalogItemId : Uuid
  requesterUserId : Uuid
  status : InstanceStatus
  currentStepId : String
  answersJson : JsonValue
  completedAt : Option Timestamp
deriving DecidableEq, Repr

inductive ApprovalStatus where
  | pending
  | approved
  | rejected
  | expired
deriving DecidableEq, Repr

structure PendingApproval where
  id : Uuid
  workflowInstanceId : Uuid
  stepId : String
  approverUserId : Uuid
  status : ApprovalStatus
  comment : Option String
  decidedAt : Option Timestamp
  expiresAt : Option Timestamp
deriving DecidableEq, Repr

inductive DispatchStatus where
  | pending
  | sent
  | failed
  | acked
deriving DecidableEq, Repr

structure Ticket where
  id : Uuid
  workflowInstanceId : Uuid
  targetSystem : TargetSystem
  renderedPayloadJson : JsonValue
  externalTicketId : Option String
  externalTicketUrl : Option String
  dispatchStatus : DispatchStatus
  lastError : Option String
deriving DecidableEq, Repr

/-- The single row of `org_settings`, inserted at the first start of the server
and never deleted. -/
structure OrgSettings where
  appName : String
  logoUrl : Option String
  allowLocalSignup : Bool
  timezone : String
deriving DecidableEq, Repr

end Servcat
