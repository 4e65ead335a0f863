/-
The error types of the crates and the conversions the `?` operator applies
between them.
-/
import Servcat.Model.Records

namespace Servcat

/-- Every way in which the database answers a statement with an error is
`sqlx`; its text is only logged. -/
inductive DbError where
  | sqlx
  | notFound (entity id : String)
deriving DecidableEq, Repr

inductive ApprovalsError where
  | db (err : DbError)
  | requesterHasNoManager
  | requesterHasNoDepartment
  | noUserWithRoleInDepartment (role : Role)
  | alreadyDecided (approvalId : Uuid)
  | notTheApprover (approvalId userId : Uuid)
  | notFound (approvalId : Uuid)
deriving DecidableEq, Repr

inductive ConnectorError where
  | transport (text : String)
  | rejectedByTarget (status : UInt16) (body : String)
  | unexpectedResponse (text : String)
  | config (text : String)
deriving DecidableEq, Repr

def ConnectorError.message : ConnectorError → String
  | .transport text => s!"request to target system failed: {text}"
  | .rejectedByTarget status body =>
      s!"target system rejected the request (HTTP {status}): {body}"
  | .unexpectedResponse text =>
      s!"target system response could not be parsed: {text}"
  | .config text => s!"connector misconfigured: {text}"

inductive ApiError where
  | badRequest (message : String)
  | unauthorized
  | forbidden
  | notFound (message : String)
  | conflict (message : String)
  | internal
deriving DecidableEq, Repr

namespace ApiError

def ofDb : DbError → ApiError
  | .notFound entity id => notFound s!"{entity} {id} not found"
  | .sqlx => internal

def ofApprovals : ApprovalsError → ApiError
  | .db inner => ofDb inner
  | .notFound id => notFound s!"approval {id} not found"
  | .alreadyDecided _ =>
      conflict "this approval was already decided or has expired"
  | .notTheApprover _ _ => forbidden
  | .requesterHasNoManager | .requesterHasNoDepartment
  | .noUserWithRoleInDepartment _ =>
      conflict <|
        "this request can't be routed for approval -- the requester's " ++
          "manager/department/role setup is incomplete; " ++
          "contact an administrator"

def ofEngine (err : EngineError) : ApiError :=
  match err with
  | .unexpectedField .. => badRequest err.message
  | .wrongStepKind .. =>
      conflict "this request is not currently waiting on that kind of input"
  | .unknownStep _ | .emptyGraph | .tooManySteps _ => internal

def ofConnector : ConnectorError → ApiError
  | _ => internal

end ApiError

end Servcat
