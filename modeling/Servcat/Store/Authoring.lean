/-
What admins write: workflow definitions, which are drafts until they are
published, and the catalog items that offer them.
-/
import Servcat.Store.Repositories

namespace Servcat

open Atomic Keyed

structure NewWorkflowDefinition where
  name : String
  graph : WorkflowGraph
  fieldMapping : Option FieldMapping
  targetSystem : Option TargetSystem

structure NewServiceCatalogItem where
  slug : Option String
  name : String
  description : Option String
  summary : Option String
  details : Option CatalogItemDetails
  approvalLabel : Option String
  targetValue : Option Int32
  targetUnit : Option TargetUnit
  category : Option String
  icon : Option String
  sortOrder : Int32
  workflowDefinitionId : Uuid

/-- A field that is `none` is left as it is. -/
structure UpdateServiceCatalogItem where
  name : Option String
  description : Option String
  summary : Option String
  details : Option CatalogItemDetails
  approvalLabel : Option String
  targetValue : Option Int32
  targetUnit : Option TargetUnit
  category : Option String
  icon : Option String
  sortOrder : Option Int32
  isActive : Option Bool

/-- The texts are equal as the database compares them. -/
def sameText (collation : String → String → Bool) (a b : String) : Bool :=
  collation a b && collation b a

namespace Db

variable (collation : String → String → Bool) (db : Db)

/-- The row `INSERT INTO workflow_definitions` adds: `is_published` is false by
default. -/
def newDefinition (id : Uuid)
    (new : NewWorkflowDefinition) : WorkflowDefinition where
  id := id
  name := new.name
  version := 1
  graph := new.graph
  fieldMapping := new.fieldMapping
  targetSystem := new.targetSystem
  isPublished := false

/-- `INSERT INTO workflow_definitions`; name and version are unique together. -/
def insertDefinition (id : Uuid) (new : NewWorkflowDefinition)
    (createdBy : Uuid) : Option Db :=
  if (db.users.find? createdBy).isSome &&
      !db.definitions.rows.any fun row =>
        row.version == 1 && sameText collation row.name new.name then
    (db.definitions.insert? (newDefinition id new)).map fun definitions =>
      { db with definitions }
  else none

/-- `UPDATE workflow_definitions SET is_published = ? WHERE id = ?`. -/
def setPublished (id : Uuid) (isPublished : Bool) : Db :=
  { db with
    definitions :=
      db.definitions.modify id (fun row => { row with isPublished })
      fun _ => rfl }

theorem find?_setPublished (db : Db) (id : Uuid) (isPublished : Bool)
    (id' : Uuid) :
    (db.setPublished id isPublished).definitions.find? id' =
      if id' = id then
        (db.definitions.find? id').map fun row => { row with isPublished }
      else db.definitions.find? id' :=
  Table.find?_modify db.definitions id (fun row => { row with isPublished })
    (fun _ => rfl) id'

/-- The row `INSERT INTO service_catalog_items` adds: `is_active` is true by
default. -/
def newItem (id : Uuid) (new : NewServiceCatalogItem) : ServiceCatalogItem where
  id := id
  slug := new.slug
  name := new.name
  description := new.description
  summary := new.summary
  detailsJson := new.details
  approvalLabel := new.approvalLabel
  targetValue := new.targetValue
  targetUnit := new.targetUnit
  category := new.category
  icon := new.icon
  sortOrder := new.sortOrder
  workflowDefinitionId := new.workflowDefinitionId
  isActive := true

/-- `INSERT INTO service_catalog_items`; slugs are unique where
there are any. -/
def insertItem (id : Uuid) (new : NewServiceCatalogItem) (createdBy : Uuid) :
    Option Db :=
  if (db.users.find? createdBy).isSome &&
      (db.definitions.find? new.workflowDefinitionId).isSome &&
      !db.items.rows.any fun row =>
        match row.slug, new.slug with
        | some slug, some slug' => sameText collation slug slug'
        | _, _ => false then
    (db.items.insert? (newItem id new)).map fun items => { db with items }
  else none

/-- The row `UPDATE service_catalog_items` leaves behind, `COALESCE` by
`COALESCE`. -/
def patched (patch : UpdateServiceCatalogItem) (row : ServiceCatalogItem) :
    ServiceCatalogItem :=
  { row with
    name := patch.name.getD row.name
    description := patch.description <|> row.description
    summary := patch.summary <|> row.summary
    detailsJson := patch.details <|> row.detailsJson
    approvalLabel := patch.approvalLabel <|> row.approvalLabel
    targetValue := patch.targetValue <|> row.targetValue
    targetUnit := patch.targetUnit <|> row.targetUnit
    category := patch.category <|> row.category
    icon := patch.icon <|> row.icon
    sortOrder := patch.sortOrder.getD row.sortOrder
    isActive := patch.isActive.getD row.isActive }

def updateItem (id : Uuid) (patch : UpdateServiceCatalogItem) : Db :=
  { db with items := db.items.modify id (patched patch) fun _ => rfl }

theorem find?_updateItem (db : Db) (id : Uuid)
    (patch : UpdateServiceCatalogItem) (id' : Uuid) :
    (db.updateItem id patch).items.find? id' =
      if id' = id then (db.items.find? id').map (patched patch)
      else db.items.find? id' :=
  Table.find?_modify db.items id (patched patch) (fun _ => rfl) id'

/-- `UPDATE service_catalog_items SET is_active = FALSE WHERE id = ?`. -/
def deactivateItem (id : Uuid) : Db :=
  { db with
    items := db.items.modify id (fun row => { row with isActive := false })
      fun _ => rfl }

theorem find?_deactivateItem (db : Db) (id id' : Uuid) :
    (db.deactivateItem id).items.find? id' =
      if id' = id then
        (db.items.find? id').map fun row => { row with isActive := false }
      else db.items.find? id' :=
  Table.find?_modify db.items id (fun row => { row with isActive := false })
    (fun _ => rfl) id'

end Db

namespace Repositories

namespace Users

def list (collation : String → String → Bool) (includeInactive : Bool) :
    Async DbError (List User) :=
  select fun w =>
    (w.db.users.rows.filter fun u => includeInactive ||
      u.isActive).insertionSort
      fun a b => collation a.displayName b.displayName = true

end Users

namespace WorkflowDefinitions

def create (collation : String → String → Bool) (new : NewWorkflowDefinition)
    (createdBy : Uuid) : Async DbError WorkflowDefinition := do
  let id ← execute fun i w =>
    (w.db.insertDefinition collation i.uuid new createdBy).map fun db =>
      (i.uuid, db, [])
  let row ← getById id
  .okOr (.notFound "workflow_definition" id.toString) row

/-- Ordered by name, then by version from the latest on. -/
def list (collation : String → String → Bool) (publishedOnly : Bool) :
    Async DbError (List WorkflowDefinition) :=
  select fun w =>
    (w.db.definitions.rows.filter fun d => !publishedOnly ||
      d.isPublished).insertionSort
      fun a b => if sameText collation a.name b.name then b.version ≤ a.version
        else collation a.name b.name = true

def setPublished (id : Uuid) (isPublished : Bool) : Async DbError Unit :=
  execute fun _ w => some ((), w.db.setPublished id isPublished, [])

end WorkflowDefinitions

namespace Catalog

def create (collation : String → String → Bool) (new : NewServiceCatalogItem)
    (createdBy : Uuid) : Async DbError ServiceCatalogItem := do
  let id ← execute fun i w =>
    (w.db.insertItem collation i.uuid new createdBy).map fun db =>
      (i.uuid, db, [])
  let row ← getById id
  .okOr (.notFound "service_catalog_item" id.toString) row

/-- `ORDER BY category, sort_order, name`; items without a category
come first. -/
def ordered (collation : String → String → Bool)
    (a b : ServiceCatalogItem) : Bool :=
  match a.category, b.category with
  | none, some _ => true
  | some _, none => false
  | some category, some category' =>
      if sameText collation category category' then tie
      else collation category category'
  | none, none => tie
where
  tie : Bool :=
    if a.sortOrder = b.sortOrder then collation a.name b.name
    else decide (a.sortOrder ≤ b.sortOrder)

def list (collation : String → String → Bool) (includeInactive : Bool) :
    Async DbError (List ServiceCatalogItem) :=
  select fun w =>
    (w.db.items.rows.filter fun item => includeInactive ||
      item.isActive).insertionSort fun a b => ordered collation a b = true

def update (id : Uuid) (patch : UpdateServiceCatalogItem) :
    Async DbError (Option ServiceCatalogItem) := do
  execute fun _ w => some ((), w.db.updateItem id patch, [])
  getById id

def deactivate (id : Uuid) : Async DbError Unit :=
  execute fun _ w => some ((), w.db.deactivateItem id, [])

end Catalog

end Repositories

end Servcat
