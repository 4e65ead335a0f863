import Servcat.Atomic.Program
import Servcat.Atomic.Follows
import Servcat.Atomic.Interleaving
import Servcat.Atomic.Loops
import Servcat.Atomic.Inputs
import Servcat.Atomic.Amid
import Servcat.Atomic.Leaves
import Servcat.Atomic.Within
import Servcat.Atomic.Moments
import Servcat.Keyed.Table
import Servcat.Engine.Runs
import Servcat.Engine.Routing
import Servcat.Engine.BranchWalk
import Servcat.Engine.Plans
import Servcat.Model.TargetTime
import Servcat.Payload
import Servcat.Payload.Contents
import Servcat.Numeric.Rounding
import Servcat.Numeric.Decimal
import Servcat.Web.Values
import Servcat.Web.NumberBranches
import Servcat.Store.Columns
import Servcat.Orchestrator.Writes
import Servcat.Server
import Servcat.Sample
import Servcat.Serial.Consistency
import Servcat.Serial.Stranding
import Servcat.Serial.Progress
import Servcat.Serial.Tickets
import Servcat.Serial.Rounds
import Servcat.Admin
import Servcat.Admin.Edits
import Servcat.Admin.Publication
import Servcat.Admin.Starts
import Servcat.Serial.Refinement
import Servcat.Serial.Cooperation
import Servcat.Concurrent.Requests
import Servcat.Concurrent.ApprovalGate
import Servcat.Concurrent.Settlement
import Servcat.Concurrent.LostUpdates
import Servcat.Concurrent.DoubleSubmission
import Servcat.Concurrent.Deadlines
import Servcat.Approvals.Assignment
import Servcat.Approvals.Notification
import Servcat.Keyed.Expiring
import Servcat.Sso
import Servcat.Keyed.Indexed
import Servcat.Keyed.Issued
import Servcat.Walks.Steps
import Servcat.Web.RoundTrip
import Servcat.Web.Uids
import Servcat.Web.Validation
import Servcat.Web.Cosmetic
import Servcat.Web.Preview
import Servcat.Accounts
import Servcat.Accounts.Deactivation
import Servcat.Accounts.Admins
import Servcat.Accounts.SingleUse
import Servcat.Accounts.Resets
import Servcat.Accounts.Links
import Servcat.CatalogSeed
import Servcat.CatalogSeed.Graphs
import Servcat.CatalogSeed.Rerun
import Servcat.CatalogSeed.Recovery
import Servcat.CatalogSeed.Requests
import Servcat.Atomic.Rely
import Servcat.Engine.Answers
import Servcat.Numeric.Paging
import Servcat.Audit
import Servcat.Keyed.Grouping
import Servcat.Web.Catalog
import Servcat.Html.Form
import Servcat.Store.Faults
import Servcat.Uri.Urlencoded
import Servcat.Web.CatalogForm
import Servcat.Web.Lines
import Servcat.Web.Unedited
import Servcat.Web.AnswerForm
import Servcat.Serial.Answers
import Servcat.Concurrent.Conduct
import Servcat.Concurrent.SelfApproval
import Servcat.Accounts.LoginPage
import Servcat.Accounts.SafeNext
import Servcat.Uri.Resolve
import Servcat.Posix.Paths
import Servcat.Model.UuidText
import Servcat.Uploads
import Servcat.Uploads.Serving
import Servcat.Uploads.Agreement
import Servcat.Web.CatalogAdmin
import Servcat.Admin.Targets
import Servcat.Atomic.Alike
import Servcat.Portal
import Servcat.Portal.Serving
import Servcat.Portal.Secrecy
import Servcat.Atomic.Auxiliary
import Servcat.Portal.Filing
import Servcat.Atomic.Labels
import Servcat.Portal.Provenance
import Servcat.Accounts.Permits
import Servcat.Accounts.Gates
import Servcat.Accounts.Issuing
import Servcat.Sso.Flow
import Servcat.Sso.Binding
import Servcat.Connectors.Sessions
import Servcat.Store.Definitions
import Servcat.Atomic.Observing
import Servcat.Portal.Views
import Servcat.Portal.Approvers
