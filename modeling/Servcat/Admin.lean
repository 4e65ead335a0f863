/-
The requests by which admins author workflows and catalog items, through the
JSON API and through the web pages.
-/
import Servcat.Orchestrator
import Servcat.Store.Authoring
import Servcat.Web.Values

namespace Servcat

open Atomic

def Role.label : Role → String
  | .requester => "Requester"
  | .approver => "Approver"
  | .agent => "Agent"
  | .admin => "Admin"

/-- `AuthUser::require_role`. -/
def requireRole (user : User) (allowed : List Role) : Async ApiError Unit :=
  if user.role ∈ allowed then pure () else .throw .forbidden

/-- `require_admin`, which every page of the admin section calls first. -/
def requireAdmin (user : User) : Async ApiError Unit :=
  if user.role = .admin then pure () else .throw .forbidden

/-- The text of a target system in the database and in forms. -/
def TargetSystem.parse : String → Except String TargetSystem
  | "jira" => .ok .jira
  | "glpi" => .ok .glpi
  | "freshservice" => .ok .freshservice
  | "webhook" => .ok .webhook
  | other => .error s!"invalid TargetSystem value: '{other}'"

/-- The deserialiser of the JSON texts in the workflow form; an error is its
message. -/
structure JsonReader where
  graph : String → Except String WorkflowGraph
  fieldMapping : String → Except String FieldMapping

namespace Routes

namespace WorkflowDefinitions

def create (deps : Deps) (authUser : User) (newDef : NewWorkflowDefinition) :
    Async ApiError WorkflowDefinition := do
  requireRole authUser [.admin]
  Orchestrator.db <|
    Repositories.WorkflowDefinitions.create deps.collation newDef authUser.id

def publish (authUser : User) (id : Uuid) : Async ApiError Unit := do
  requireRole authUser [.admin]
  Orchestrator.db (Repositories.WorkflowDefinitions.setPublished id true)

def unpublish (authUser : User) (id : Uuid) : Async ApiError Unit := do
  requireRole authUser [.admin]
  Orchestrator.db (Repositories.WorkflowDefinitions.setPublished id false)

end WorkflowDefinitions

namespace Catalog

def create (deps : Deps) (authUser : User) (newItem : NewServiceCatalogItem) :
    Async ApiError ServiceCatalogItem := do
  requireRole authUser [.admin]
  Orchestrator.db (Repositories.Catalog.create deps.collation newItem
    authUser.id)

def update (authUser : User) (id : Uuid) (patch : UpdateServiceCatalogItem) :
    Async ApiError ServiceCatalogItem := do
  requireRole authUser [.admin]
  let updated ← Orchestrator.db (Repositories.Catalog.update id patch)
  .okOr (.notFound "catalog item not found") updated

def deactivate (authUser : User) (id : Uuid) : Async ApiError Unit := do
  requireRole authUser [.admin]
  Orchestrator.db (Repositories.Catalog.deactivate id)

end Catalog

end Routes

namespace Web

/-- What every page shows around its own content. -/
structure Layout where
  appName : String
  logoUrl : Option String
  userDisplayName : String
  userRoleLabel : String
  isAdmin : Bool
  activeNav : String
  timezone : String

def Layout.load (user : User) (activeNav : String) : Async ApiError Layout := do
  let settings ← Orchestrator.db Repositories.OrgSettings.get
  return {
    appName := settings.appName
    logoUrl := settings.logoUrl
    userDisplayName := user.displayName
    userRoleLabel := user.role.label
    isAdmin := decide (user.role = .admin)
    activeNav
    timezone := settings.timezone }

structure CreateWorkflowForm where
  name : String
  targetSystem : String
  graphJson : String
  fieldMappingJson : String

structure WorkflowsTemplate where
  layout : Layout
  adminSection : String
  definitions : List WorkflowDefinition
  users : List User
  error : Option String
  prefillName : String
  prefillTargetSystem : String
  prefillGraphJson : String
  prefillFieldMappingJson : String

/-- What the browser is sent. -/
inductive Response where
  | html (page : WorkflowsTemplate)
  | redirect (path : String)

namespace Workflows

/-- The page again, with the error and with what was submitted. -/
def workflowFormError (deps : Deps) (user : User) (error : String)
    (form : CreateWorkflowForm) : Async ApiError Response := do
  let layout ← Layout.load user "admin"
  let definitions ← Orchestrator.db <|
    Repositories.WorkflowDefinitions.list deps.collation false
  let users ← Orchestrator.db (Repositories.Users.list deps.collation false)
  return .html {
    layout, definitions, users
    adminSection := "workflows"
    error := some error
    prefillName := form.name
    prefillTargetSystem := form.targetSystem
    prefillGraphJson := form.graphJson
    prefillFieldMappingJson := form.fieldMappingJson }

/-- The definition a form describes, or the error it is sent back with. -/
def parseForm (reader : JsonReader) (form : CreateWorkflowForm) :
    Except String NewWorkflowDefinition := do
  let graph ← (reader.graph form.graphJson).mapError fun err =>
    s!"graph JSON: {err}"
  let fieldMapping ←
    if trim isWhitespace form.fieldMappingJson = "" then pure none
    else
      ((reader.fieldMapping form.fieldMappingJson).map some).mapError
        fun err => s!"field mapping JSON: {err}"
  let targetSystem ←
    if form.targetSystem = "" then pure none
    else (TargetSystem.parse form.targetSystem).map some
  return { name := form.name, graph, fieldMapping, targetSystem }

def create (deps : Deps) (reader : JsonReader) (user : User)
    (form : CreateWorkflowForm) : Async ApiError Response := do
  requireAdmin user
  match parseForm reader form with
  | .error err => workflowFormError deps user err form
  | .ok new => do
      let _ ← Orchestrator.db <|
        Repositories.WorkflowDefinitions.create deps.collation new user.id
      return .redirect "/admin/workflows"

def publish (user : User) (id : Uuid) : Async ApiError Response := do
  requireAdmin user
  Orchestrator.db (Repositories.WorkflowDefinitions.setPublished id true)
  return .redirect "/admin/workflows"

def unpublish (user : User) (id : Uuid) : Async ApiError Response := do
  requireAdmin user
  Orchestrator.db (Repositories.WorkflowDefinitions.setPublished id false)
  return .redirect "/admin/workflows"

end Workflows

namespace Catalog

def toggle (user : User) (id : Uuid) (isActive : Bool) :
    Async ApiError Response := do
  requireAdmin user
  let updated ← Orchestrator.db <| Repositories.Catalog.update id
    { name := none
      description := none
      summary := none
      details := none
      approvalLabel := none
      targetValue := none
      targetUnit := none
      category := none
      icon := none
      sortOrder := none
      isActive := some isActive }
  let _ ← .okOr (.notFound "catalog item not found") updated
  return .redirect "/admin/catalog"

end Catalog

end Web

/-- The requests of this section, of a user who is signed in. -/
inductive AdminRequest where
  | createDefinition (newDef : NewWorkflowDefinition)
  | submitDefinition (form : Web.CreateWorkflowForm)
  | publish (id : Uuid)
  | unpublish (id : Uuid)
  | publishPage (id : Uuid)
  | unpublishPage (id : Uuid)
  | createItem (newItem : NewServiceCatalogItem)
  | updateItem (id : Uuid) (patch : UpdateServiceCatalogItem)
  | deactivateItem (id : Uuid)
  | toggleItem (id : Uuid) (isActive : Bool)

inductive AdminReply where
  | definition (row : WorkflowDefinition)
  | item (row : ServiceCatalogItem)
  | done
  | page (response : Web.Response)

def AdminRequest.serve (deps : Deps) (reader : JsonReader) (user : User) :
    AdminRequest → Async ApiError AdminReply
  | .createDefinition newDef => do
      let row ← Routes.WorkflowDefinitions.create deps user newDef
      return .definition row
  | .submitDefinition form => do
      let response ← Web.Workflows.create deps reader user form
      return .page response
  | .publish id => do
      Routes.WorkflowDefinitions.publish user id
      return .done
  | .unpublish id => do
      Routes.WorkflowDefinitions.unpublish user id
      return .done
  | .publishPage id => do
      let response ← Web.Workflows.publish user id
      return .page response
  | .unpublishPage id => do
      let response ← Web.Workflows.unpublish user id
      return .page response
  | .createItem newItem => do
      let row ← Routes.Catalog.create deps user newItem
      return .item row
  | .updateItem id patch => do
      let row ← Routes.Catalog.update user id patch
      return .item row
  | .deactivateItem id => do
      Routes.Catalog.deactivate user id
      return .done
  | .toggleItem id isActive => do
      let response ← Web.Catalog.toggle user id isActive
      return .page response

end Servcat
