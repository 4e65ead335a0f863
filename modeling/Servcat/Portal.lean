/-
What the server answers to users who are signed in: the pages and the API calls
with which they browse the catalog, follow their requests and decide approvals.
-/
import Servcat.Admin
import Servcat.Sample
import Servcat.Web.AnswerForm
import Servcat.Web.Catalog
import Servcat.Web.Preview

namespace Servcat

open Atomic

/-- What pages are made with besides the tables: the columns `created_at`,
which never change, the text of a JSON value, `str::to_lowercase` and the order
of hash maps. -/
structure PageDeps where
  createdAt : Uuid → Timestamp
  jsonText : JsonValue → String
  lower : String → String
  hash : Web.HashOrder

namespace Repositories

/-- Newest first; rows of one second come in the order of the table. -/
def Instances.listForRequester (createdAt : Uuid → Timestamp)
    (requesterUserId : Uuid) : Async DbError (List WorkflowInstance) :=
  select fun w =>
    (w.db.instances.rows.filter fun row =>
      row.requesterUserId == requesterUserId).insertionSort
        fun a b => createdAt b.id ≤ createdAt a.id

/-- Oldest first. -/
def Approvals.listPendingForApprover (createdAt : Uuid → Timestamp)
    (approverUserId : Uuid) : Async DbError (List PendingApproval) :=
  select fun w =>
    (w.db.approvals.rows.filter fun row =>
      row.approverUserId == approverUserId &&
        row.status == .pending).insertionSort
        fun a b => createdAt a.id ≤ createdAt b.id

/-- The newest ticket of an instance. -/
def Tickets.getByInstanceId (createdAt : Uuid → Timestamp) (instanceId : Uuid) :
    Async DbError (Option Ticket) :=
  select fun w =>
    ((w.db.tickets.rows.filter fun row =>
      row.workflowInstanceId == instanceId).insertionSort
        fun a b => createdAt b.id ≤ createdAt a.id).head?

end Repositories

def Role.isStaff : Role → Bool
  | .admin | .agent => true
  | .requester | .approver => false

/-- The requester sees a request, and so does the staff. -/
def mayRead (user : User) (row : WorkflowInstance) : Bool :=
  row.requesterUserId == user.id || user.role.isStaff

namespace Routes

def Instances.listMine (pages : PageDeps) (authUser : User) :
    Async ApiError (List WorkflowInstance) :=
  Orchestrator.db (Repositories.Instances.listForRequester pages.createdAt
    authUser.id)

def Instances.getOne (authUser : User) (id : Uuid) :
    Async ApiError WorkflowInstance := do
  let found ← Orchestrator.db (Repositories.Instances.getById id)
  let row ← .okOr (.notFound "request not found") found
  if mayRead authUser row then return row else .throw .forbidden

def Approvals.listMine (pages : PageDeps) (authUser : User) :
    Async ApiError (List PendingApproval) :=
  Orchestrator.db (Repositories.Approvals.listPendingForApprover pages.createdAt
    authUser.id)

end Routes

namespace Web

structure RequestsListTemplate where
  layout : Layout
  requests : List WorkflowInstance

structure CurrentQuestion where
  fieldKey : String
  label : String
  inputType : InputType
  required : Bool
  options : List QuestionOption
deriving DecidableEq, Repr

structure RequestDetailTemplate where
  layout : Layout
  row : WorkflowInstance
  catalogItemName : String
  question : Option CurrentQuestion
  answers : List (String × String)
  ticket : Option Ticket
  /-- Only for the staff. -/
  ticketError : Option String

/-- What `request_detail.html` says about a ticket. -/
inductive TicketNote where
  | failed (error : Option String)
  | link (url text : String)
  | reference (text : String)
  | submitting
deriving DecidableEq, Repr

def ticketNote (ticketError : Option String) (ticket : Ticket) : TicketNote :=
  if ticket.dispatchStatus = .failed then .failed ticketError
  else
    match ticket.externalTicketUrl, ticket.externalTicketId with
    | some url, some text => .link url text
    | some url, none => .link url "View ticket"
    | none, some text => .reference text
    | none, none => .submitting

/-- What `request_detail.html` shows of its data. -/
structure RequestDetailPage where
  layout : Layout
  id : Uuid
  status : InstanceStatus
  catalogItemName : String
  question : Option CurrentQuestion
  answers : List (String × String)
  ticket : Option TicketNote

def RequestDetailTemplate.render
    (t : RequestDetailTemplate) : RequestDetailPage where
  layout := t.layout
  id := t.row.id
  status := t.row.status
  catalogItemName := t.catalogItemName
  question := t.question
  answers := t.answers
  ticket := t.ticket.map (ticketNote t.ticketError)

def displayValue (pages : PageDeps) : JsonValue → String
  | .string s => s
  | other => pages.jsonText other

/-- The question an instance in progress is at, if its step is one. -/
def currentQuestion (graph : WorkflowGraph) (row : WorkflowInstance) :
    Option CurrentQuestion :=
  if row.status = .inProgress then
    (graph.step row.currentStepId).bind fun step =>
      match step.kind with
      | .question fieldKey inputType required options _ =>
          some ⟨fieldKey, step.label, inputType, required, options⟩
      | _ => none
  else none

namespace Requests

def listMine (pages : PageDeps) (user : User) :
    Async ApiError RequestsListTemplate := do
  let layout ← Layout.load user "requests"
  let requests ← Orchestrator.db <|
    Repositories.Instances.listForRequester pages.createdAt user.id
  return { layout, requests }

def showRequest (pages : PageDeps) (user : User) (id : Uuid) :
    Async ApiError RequestDetailTemplate := do
  let layout ← Layout.load user "requests"
  let found ← Orchestrator.db (Repositories.Instances.getById id)
  let row ← .okOr (.notFound "request not found") found
  if mayRead user row then do
    let item ← Orchestrator.db (Repositories.Catalog.getById row.catalogItemId)
    let item ← .okOr .internal item
    let definition ← Orchestrator.db <|
      Repositories.WorkflowDefinitions.getById row.workflowDefinitionId
    let definition ← .okOr .internal definition
    let ticket ← Orchestrator.db <|
      Repositories.Tickets.getByInstanceId pages.createdAt row.id
    return {
      layout
      row
      catalogItemName := item.name
      question := currentQuestion definition.graph row
      answers :=
        (Orchestrator.answersMap row.answersJson).map fun (key, value) =>
        (key, displayValue pages value)
      ticket
      ticketError :=
        if user.role.isStaff then ticket.bind Ticket.lastError else none }
  else .throw .forbidden

end Requests

structure ApprovalRow where
  id : Uuid
  catalogItemName : String
  requesterDisplayName : String
  createdAt : Timestamp
deriving DecidableEq, Repr

structure ApprovalsListTemplate where
  layout : Layout
  approvals : List ApprovalRow

structure DecideForm where
  decision : String
  comment : Option String
deriving DecidableEq, Repr

def DecideForm.parse (form : DecideForm) : Option ApprovalDecision :=
  match form.decision with
  | "approve" => some .approve
  | "reject" => some .reject
  | _ => none

namespace Approvals

/-- The row of the list for one approval, unless its instance is gone. -/
def approvalRow (pages : PageDeps) (approval : PendingApproval) :
    Async ApiError (Option ApprovalRow) := do
  match ← Orchestrator.db
      (Repositories.Instances.getById approval.workflowInstanceId) with
  | none => return none
  | some row => do
      let item ← Orchestrator.db
        (Repositories.Catalog.getById row.catalogItemId)
      let requester ← Orchestrator.db
        (Repositories.Users.getById row.requesterUserId)
      return some {
        id := approval.id
        catalogItemName :=
          (item.map ServiceCatalogItem.name).getD "(deleted service)"
        requesterDisplayName :=
          (requester.map User.displayName).getD "(deactivated user)"
        createdAt := pages.createdAt approval.id }

/-- The loop of `listMine`. -/
def approvalRows (pages : PageDeps) :
    List PendingApproval → Async ApiError (List ApprovalRow)
  | [] => return []
  | approval :: pending => do
      let row ← approvalRow pages approval
      let rows ← approvalRows pages pending
      return row.toList ++ rows

def listMine (pages : PageDeps) (user : User) :
    Async ApiError ApprovalsListTemplate := do
  let layout ← Layout.load user "approvals"
  let pending ← Orchestrator.db <|
    Repositories.Approvals.listPendingForApprover pages.createdAt user.id
  let approvals ← approvalRows pages pending
  return { layout, approvals }

/-- A comment of blanks is none. -/
def decide (deps : Deps) (rounds : Nat) (user : User) (id : Uuid)
    (form : DecideForm) : Async ApiError String := do
  let decision ← .okOr (.badRequest "invalid decision") form.parse
  let comment := form.comment.filter fun c => trim isWhitespace c ≠ ""
  let _ ← Server.decide deps rounds id user.id decision comment
  return "/approvals"

end Approvals

structure DashboardTemplate where
  layout : Layout
  openRequestCount : Nat
  pendingApprovalCount : Nat

namespace Dashboard

def showDashboard (pages : PageDeps) (user : User) :
    Async ApiError DashboardTemplate := do
  let layout ← Layout.load user "dashboard"
  let requests ← Orchestrator.db <|
    Repositories.Instances.listForRequester pages.createdAt user.id
  let pending ← Orchestrator.db <|
    Repositories.Approvals.listPendingForApprover pages.createdAt user.id
  return {
    layout
    openRequestCount := (requests.filter fun row =>
      row.status = .inProgress ∨ row.status = .awaitingApproval).length
    pendingApprovalCount := pending.length }

end Dashboard

/-- The data of `catalog.html`. -/
structure CatalogPageTemplate where
  layout : Layout
  groups : List CategoryGroup
  categories : List String
  hasItems : Bool

structure CatalogItemTemplate where
  layout : Layout
  item : ServiceCatalogItem
  details : CatalogItemDetails
  questions : List QuestionPreview

namespace CatalogPage

def showCatalog (deps : Deps) (pages : PageDeps) (user : User) :
    Async ApiError CatalogPageTemplate := do
  let layout ← Layout.load user "catalog"
  let items ← Orchestrator.db (Repositories.Catalog.list deps.collation false)
  let (groups, categories) := buildGroups pages.lower pages.hash items
  return { layout, groups, categories, hasItems := !items.isEmpty }

/-- The loop of `previewQuestions` need not end. -/
def itemDetail (rounds : Nat) (user : User) (id : Uuid) :
    Async ApiError CatalogItemTemplate := do
  let layout ← Layout.load user "catalog"
  let found ← Orchestrator.db (Repositories.Catalog.getById id)
  let item ← .okOr (.notFound "service catalog item not found") <|
    found.filter fun item => item.isActive
  let definition ← Orchestrator.db <|
    Repositories.WorkflowDefinitions.getById item.workflowDefinitionId
  let definition ← .okOr .internal definition
  match previewQuestions definition.graph rounds with
  | some questions =>
      return { layout, item, questions, details := details item }
  | none => .spin

def startRequest (deps : Deps) (rounds : Nat) (user : User) (id : Uuid) :
    Async ApiError String := do
  let row ← Orchestrator.startInstance deps rounds id user
  return "/requests/" ++ row.id.toString

end CatalogPage

end Web

/-- The requests of a user who is signed in, with the passes of the poller. -/
inductive PortalRequest where
  | start (user : User) (catalogItemId : Uuid)
  | listInstances (user : User)
  | getInstance (user : User) (id : Uuid)
  | submitAnswer (user : User) (id : Uuid) (fieldKey : String)
      (value : JsonValue)
  | listApprovals (user : User)
  | decide (user : User) (id : Uuid) (decision : ApprovalDecision)
      (comment : Option String)
  | dashboardPage (user : User)
  | catalogPage (user : User)
  | itemPage (user : User) (id : Uuid)
  | startPage (user : User) (id : Uuid)
  | requestsPage (user : User)
  | requestPage (user : User) (id : Uuid)
  | answerPage (user : User) (id : Uuid) (form : Web.AnswerForm)
  | approvalsPage (user : User)
  | decidePage (user : User) (id : Uuid) (form : Web.DecideForm)
  | poll

/-- What the client is sent; of a template, what its page shows. -/
inductive PortalReply where
  | done
  | row (row : WorkflowInstance)
  | rows (rows : List WorkflowInstance)
  | approvals (rows : List PendingApproval)
  | redirect (path : String)
  | dashboardPage (page : Web.DashboardTemplate)
  | catalogPage (page : Web.CatalogPageTemplate)
  | itemPage (page : Web.CatalogItemTemplate)
  | requestsPage (page : Web.RequestsListTemplate)
  | requestPage (page : Web.RequestDetailPage)
  | approvalsPage (page : Web.ApprovalsListTemplate)

/-- A request with the bound on the rounds of its loops. -/
def PortalRequest.serve (deps : Deps) (pages : PageDeps) :
    PortalRequest × Nat → Async ApiError PortalReply
  | (.start user catalogItemId, rounds) => do
      let row ← Orchestrator.startInstance deps rounds catalogItemId user
      return .row row
  | (.listInstances user, _) => do
      let rows ← Routes.Instances.listMine pages user
      return .rows rows
  | (.getInstance user id, _) => do
      let row ← Routes.Instances.getOne user id
      return .row row
  | (.submitAnswer user id fieldKey value, rounds) => do
      let row ← Orchestrator.submitAnswer deps rounds id user fieldKey value
      return .row row
  | (.listApprovals user, _) => do
      let rows ← Routes.Approvals.listMine pages user
      return .approvals rows
  | (.decide user id decision comment, rounds) => do
      let row ← Server.decide deps rounds id user.id decision comment
      return .row row
  | (.dashboardPage user, _) => do
      let page ← Web.Dashboard.showDashboard pages user
      return .dashboardPage page
  | (.catalogPage user, _) => do
      let page ← Web.CatalogPage.showCatalog deps pages user
      return .catalogPage page
  | (.itemPage user id, rounds) => do
      let page ← Web.CatalogPage.itemDetail rounds user id
      return .itemPage page
  | (.startPage user id, rounds) => do
      let path ← Web.CatalogPage.startRequest deps rounds user id
      return .redirect path
  | (.requestsPage user, _) => do
      let page ← Web.Requests.listMine pages user
      return .requestsPage page
  | (.requestPage user id, _) => do
      let page ← Web.Requests.showRequest pages user id
      return .requestPage page.render
  | (.answerPage user id form, rounds) => do
      let path ← Web.submitAnswer deps rounds user id form
      return .redirect path
  | (.approvalsPage user, _) => do
      let page ← Web.Approvals.listMine pages user
      return .approvalsPage page
  | (.decidePage user id form, rounds) => do
      let path ← Web.Approvals.decide deps rounds user id form
      return .redirect path
  | (.poll, rounds) => do
      Orchestrator.db (Approvals.pollOnce (Server.handleExpired deps rounds))
      return .done

/-- The portal: any number of these requests, interleaved at statement
granularity. -/
def portal (deps : Deps) (pages : PageDeps) :
    System Input World (PortalRequest × Nat) ApiError PortalReply where
  code := PortalRequest.serve deps pages
  input n i := i.thread = n
  drift := World.Drift

instance (deps : Deps) (pages : PageDeps) (n : Nat) (i : Input) :
    Decidable ((portal deps pages).input n i) :=
  inferInstanceAs (Decidable (_ = _))

namespace Sample

def pages : PageDeps where
  createdAt _ := 0
  jsonText _ := ""
  lower s := s
  hash := ⟨fun keys => keys, fun _ => .refl _⟩

/-- A question, then a ticket. -/
def questionThenTicket : WorkflowGraph where
  entryStepId := "ask"
  steps :=
    [question "ask" "reason" "file", ticket "file" "done",
      finish "done" .completed]

/-- A user makes a request, and `k` steps of it are taken by thread `n`. -/
def visit (n first k : Nat) (request : PortalRequest) :
    List (Action Input (PortalRequest × Nat)) :=
  .arrive (request, 9) :: ((inputs n first).take k).map (.run n)

end Sample

end Servcat
