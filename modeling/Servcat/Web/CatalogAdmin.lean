/-
The page on which admins keep the catalog: creating an item, and loading the
starter catalog, which the server also does when it first starts.
-/
import Servcat.CatalogSeed
import Servcat.Web.CatalogForm

namespace Servcat

open Atomic

/-- The target times in the file of the starter catalog, in its order. -/
def CatalogSeed.starterTargets : List (Int32 × TargetUnit) :=
  [(3, .businessDays), (1, .businessDays), (1, .hours), (30, .minutes),
    (4, .hours), (3, .businessDays), (5, .businessDays), (5, .businessDays),
    (3, .businessDays), (3, .businessDays), (2, .businessDays),
    (3, .businessDays), (3, .businessDays), (1, .businessDays),
    (30, .businessDays), (45, .businessDays), (10, .businessDays),
    (5, .businessDays), (30, .businessDays), (15, .businessDays),
    (2, .businessDays), (5, .businessDays), (10, .businessDays),
    (5, .businessDays), (30, .businessDays), (10, .businessDays),
    (5, .businessDays), (30, .businessDays), (10, .businessDays),
    (3, .businessDays), (3, .businessDays), (30, .businessDays),
    (3, .businessDays), (60, .businessDays), (3, .businessDays),
    (30, .businessDays), (30, .businessDays), (15, .businessDays),
    (5, .businessDays), (30, .businessDays), (15, .businessDays),
    (5, .businessDays), (2, .businessDays), (5, .businessDays),
    (1, .businessDays), (15, .businessDays), (10, .businessDays),
    (10, .businessDays), (2, .businessDays), (5, .businessDays),
    (5, .businessDays), (5, .businessDays), (1, .hours), (4, .hours),
    (45, .businessDays), (3, .businessDays), (5, .businessDays),
    (15, .businessDays), (5, .businessDays), (10, .businessDays),
    (30, .businessDays), (15, .businessDays), (10, .businessDays), (1, .hours),
    (10, .businessDays), (15, .businessDays), (15, .businessDays)]

/-- The items of this file, of which only the target times are told apart. -/
structure StarterCatalog where
  items : List SeedItem
  targets : items.map (fun item => (item.targetValue, item.targetUnit)) =
    CatalogSeed.starterTargets

namespace Web

structure CatalogAdminTemplate where
  layout : Layout
  adminSection : String
  items : List ServiceCatalogItem
  workflowDefinitions : List WorkflowDefinition
  seedMessage : Option String
  seedItemCount : Nat

inductive CatalogAdminResponse where
  | html (page : CatalogAdminTemplate)
  | redirect (path : String)

namespace Catalog

variable (collation : String → String → Bool) (seedItems : List SeedItem)

/-- The page again, with an error. -/
def listWithError (user : User) (error : String) :
    Async ApiError CatalogAdminResponse := do
  let layout ← Layout.load user "admin"
  let items ← Orchestrator.db (Repositories.Catalog.list collation true)
  let workflowDefinitions ← Orchestrator.db <|
    Repositories.WorkflowDefinitions.list collation false
  return .html {
    layout, items, workflowDefinitions
    adminSection := "catalog"
    seedMessage := some s!"Couldn't save: {error}"
    seedItemCount := seedItems.length }

/-- A text, unless it is empty. -/
def nonEmpty (text : String) : Option String :=
  if text = "" then none else some text

/-- The item that a form asks for, or the error it is sent back with. -/
def newFromForm (form : CatalogItemForm) :
    Except String NewServiceCatalogItem :=
  match form.workflowDefinitionId with
  | none => .error "Choose a workflow for this catalog item."
  | some workflowDefinitionId => do
      let target ← parseTarget form.targetValue form.targetUnit
      return {
        slug := none
        name := form.name
        description := nonEmpty form.description
        summary := nonEmpty form.summary
        details := some (detailsFromForm form)
        approvalLabel := nonEmpty form.approvalLabel
        targetValue := target.1
        targetUnit := target.2
        category := nonEmpty form.category
        icon := nonEmpty form.icon
        sortOrder := 0
        workflowDefinitionId }

def create (user : User) (form : CatalogItemForm) :
    Async ApiError CatalogAdminResponse := do
  requireAdmin user
  match newFromForm form with
  | .error err => listWithError collation seedItems user err
  | .ok new => do
      let _ ← Orchestrator.db
        (Repositories.Catalog.create collation new user.id)
      return .redirect "/admin/catalog"

def loadStarter (user : User) : Async ApiError CatalogAdminResponse := do
  requireAdmin user
  let summary ← CatalogSeed.run collation seedItems user.id
  return .redirect <|
    s!"/admin/catalog?seed_added={summary.added}&seed_skipped={summary.skipped}"

end Catalog

end Web

/-- The seed at the start of the server, for a catalog without items. -/
def autoSeedCatalog (collation : String → String → Bool)
    (seedItems : List SeedItem) : Async ApiError Unit := do
  let items ← Orchestrator.db (Repositories.Catalog.list collation true)
  if !items.isEmpty then pure ()
  else do
    let users ← Orchestrator.db (Repositories.Users.list collation true)
    match users.find? fun u => u.role = .admin with
    | none => pure ()
    | some admin => do
        let _ ← CatalogSeed.run collation seedItems admin.id
        pure ()

end Servcat
