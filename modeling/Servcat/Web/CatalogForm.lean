/-
The page on which an admin edits a catalog item, and what its form does.
-/
import Servcat.Admin
import Servcat.Html.Form
import Servcat.Store.Faults
import Servcat.Web.Catalog
import Servcat.Web.Listed

namespace Servcat

open Atomic Keyed Numeric

def TargetUnit.asStr : TargetUnit → String
  | .minutes => "minutes"
  | .hours => "hours"
  | .businessDays => "business_days"
  | .calendarDays => "calendar_days"

def TargetUnit.parse : String → Except String TargetUnit
  | "minutes" => .ok .minutes
  | "hours" => .ok .hours
  | "business_days" => .ok .businessDays
  | "calendar_days" => .ok .calendarDays
  | other => .error s!"invalid TargetUnit value: '{other}'"

/-- `str::parse::<i32>`. -/
def parseI32 (text : String) : Option Int32 :=
  let (negative, digits) := signed text.toList
  (digitsValue? digits).bind fun n =>
    let x : Int := if negative then -n else n
    if Int32.minValue.toInt ≤ x ∧ x ≤ Int32.maxValue.toInt then some (.ofInt x)
    else none

namespace Web

structure CatalogItemForm where
  name : String
  summary : String
  description : String
  category : String
  icon : String
  approvalLabel : String
  targetValue : String
  targetUnit : String
  included : String
  notIncluded : String
  needed : String
  keywords : String
  workflowDefinitionId : Option Uuid
  isActive : Bool

/-- The carriage returns that `lines` takes off are white space to `trim`. -/
def linesToVec (text : String) : List String :=
  ((text.toList.splitOn '\n').map
    fun line => trim isWhitespace (String.ofList line)).filter (· ≠ "")

def parseTarget (value unit : String) :
    Except String (Option Int32 × Option TargetUnit) :=
  let value := trim isWhitespace value
  let unit := trim isWhitespace unit
  if value = "" ∧ unit = "" then .ok (none, none)
  else if value = "" ∨ unit = "" then
    .error "set both a target time and a unit, or leave both blank"
  else
    match parseI32 value with
    | none => .error s!"target time '{value}' isn't a whole number"
    | some parsedValue =>
        if parsedValue.toInt < 0 then .error "target time can't be negative"
        else
          match TargetUnit.parse unit with
          | .error _ => .error s!"'{unit}' isn't a recognized target time unit"
          | .ok parsedUnit => .ok (some parsedValue, some parsedUnit)

/-- Both or neither, and no time below zero. -/
def TargetSet (item : ServiceCatalogItem) : Prop :=
  (∃ value unit, item.targetValue = some value ∧ item.targetUnit = some unit ∧
    0 ≤ value.toInt) ∨ item.targetValue = none ∧ item.targetUnit = none

def detailsFromForm (form : CatalogItemForm) : CatalogItemDetails where
  included := linesToVec form.included
  notIncluded := linesToVec form.notIncluded
  needed := linesToVec form.needed
  keywords := linesToVec form.keywords

structure CatalogEditTemplate where
  layout : Layout
  adminSection : String
  item : ServiceCatalogItem
  details : CatalogItemDetails
  error : Option String

inductive CatalogEditResponse where
  | html (page : CatalogEditTemplate)
  | redirect (path : String)

structure CatalogTemplate where
  layout : Layout
  groups : List CategoryGroup
  categories : List String
  hasItems : Bool

namespace Catalog

/-- `GET /catalog`. -/
def showCatalog (collation : String → String → Bool) (lower : String → String)
    (hash : HashOrder) (user : User) : Async ApiError CatalogTemplate := do
  let layout ← Layout.load user "catalog"
  let items ← Orchestrator.db (Repositories.Catalog.list collation false)
  let built := buildGroups lower hash items
  return { layout, groups := built.1, categories := built.2,
           hasItems := !items.isEmpty }

def editForm (user : User) (id : Uuid) :
    Async ApiError CatalogEditTemplate := do
  requireAdmin user
  let layout ← Layout.load user "admin"
  let found ← Orchestrator.db (Repositories.Catalog.getById id)
  let item ← .okOr (.notFound "catalog item not found") found
  return { layout, adminSection := "catalog", item, details := details item,
           error := none }

/-- The page again, with the error and with what was submitted. -/
def editFormError (user : User) (id : Uuid) (form : CatalogItemForm)
    (error : String) : Async ApiError CatalogEditResponse := do
  let layout ← Layout.load user "admin"
  let found ← Orchestrator.db (Repositories.Catalog.getById id)
  let item ← .okOr (.notFound "catalog item not found") found
  return .html {
    layout
    adminSection := "catalog"
    item := { item with
      name := form.name
      description := some form.description
      summary := some form.summary
      approvalLabel := some form.approvalLabel
      category := some form.category
      icon := some form.icon
      isActive := form.isActive }
    details := detailsFromForm form
    error := some error }

/-- The patch that a form asks for, or the error it is sent back with. -/
def patchFromForm (form : CatalogItemForm) :
    Except String UpdateServiceCatalogItem := do
  let target ← parseTarget form.targetValue form.targetUnit
  return {
    name := some form.name
    description := some form.description
    summary := some form.summary
    details := some (detailsFromForm form)
    approvalLabel := some form.approvalLabel
    targetValue := target.1
    targetUnit := target.2
    category := some form.category
    icon := some form.icon
    sortOrder := none
    isActive := some form.isActive }

def edit (user : User) (id : Uuid) (form : CatalogItemForm) :
    Async ApiError CatalogEditResponse := do
  requireAdmin user
  match patchFromForm form with
  | .error err => editFormError user id form err
  | .ok patch => do
      let updated ← Orchestrator.db (Repositories.Catalog.update id patch)
      let _ ← .okOr (.notFound "catalog item not found") updated
      return .redirect "/admin/catalog"

end Catalog

open Html in
/-- What the browser submits when nobody touches the form; it
insists on a name. -/
def CatalogEditTemplate.submission
    (page : CatalogEditTemplate) : Option CatalogItemForm :=
  if textInput page.item.name = "" then none
  else some {
    name := textInput page.item.name
    summary := textInput (page.item.summary.getD "")
    description := textarea (page.item.description.getD "")
    category := textInput (page.item.category.getD "")
    icon := textInput (page.item.icon.getD "")
    approvalLabel := textInput (page.item.approvalLabel.getD "")
    targetValue := page.item.targetValue.elim "" fun value =>
      toString value.toInt
    targetUnit := page.item.targetUnit.elim "" TargetUnit.asStr
    included := textarea ("\n".intercalate page.details.included)
    notIncluded := textarea ("\n".intercalate page.details.notIncluded)
    needed := textarea ("\n".intercalate page.details.needed)
    keywords := textarea ("\n".intercalate page.details.keywords)
    workflowDefinitionId := none
    isActive := page.item.isActive }

section Pages

variable {w : World} {user : User} {id : Uuid} {item : ServiceCatalogItem}

/-- The items that the catalog lists, as the database orders them. -/
def Catalog.offered (collation : String → String → Bool)
    (db : Db) : List ServiceCatalogItem :=
  (db.items.rows.filter fun item => item.isActive).insertionSort
    fun a b => Repositories.Catalog.ordered collation a b = true

theorem Layout.load_arbitrary_wp (w : World) (user : User)
    (activeNav : String) :
    ∃ layout, ∀ (α : Type) (k : Layout → Async ApiError α)
      (post : Exit ApiError α → World → Prop),
      wp Input.Arbitrary (Layout.load user activeNav >>= k) post w ↔
        wp Input.Arbitrary (k layout) post w ∧ post (.error .internal) w := by
  apply Exists.intro
  intro α k post
  rw [wp_bind]
  exact read_arbitrary_wp

variable {post : Exit ApiError CatalogEditResponse → World → Prop}

namespace Catalog

theorem showCatalog_arbitrary_wp (collation : String → String → Bool)
    (lower : String → String) (hash : HashOrder) (w : World) (user : User) :
    ∃ page : CatalogTemplate,
      page.groups = (buildGroups lower hash (offered collation w.db)).1 ∧
        page.categories = (buildGroups lower hash (offered collation w.db)).2 ∧
        ∀ post,
          wp Input.Arbitrary (showCatalog collation lower hash user) post w ↔
          post (.ok page) w ∧ post (.error .internal) w := by
  obtain ⟨layout, hload⟩ := Layout.load_arbitrary_wp w user "catalog"
  let items := offered collation w.db
  refine ⟨⟨layout, (buildGroups lower hash items).1,
    (buildGroups lower hash items).2,
    !items.isEmpty⟩, rfl, rfl, fun post => (hload _ _ post).trans ?_⟩
  refine (and_congr_left' read_arbitrary_wp).trans ?_
  rw [and_assoc]
  exact and_congr Iff.rfl (and_self_iff)

theorem editForm_arbitrary_wp (hadmin : user.role = .admin)
    (hitem : w.db.items.find? id = some item) :
    ∃ layout, ∀ post, wp Input.Arbitrary (editForm user id) post w ↔
      post (.ok ⟨layout, "catalog", item, details item, none⟩) w ∧
        post (.error .internal) w := by
  obtain ⟨layout, hload⟩ := Layout.load_arbitrary_wp w user "admin"
  refine ⟨layout, fun post => ?_⟩
  unfold editForm requireAdmin
  rw [if_pos hadmin]
  refine (hload _ _ post).trans ((and_congr_left' read_arbitrary_wp).trans ?_)
  rw [hitem, and_assoc]
  exact and_congr Iff.rfl (and_self_iff)

theorem update_arbitrary_wp {patch : UpdateServiceCatalogItem}
    {post : Exit DbError (Option ServiceCatalogItem) → World → Prop} :
    wp Input.Arbitrary (Repositories.Catalog.update id patch) post w ↔
      (post (.ok ((w.db.updateItem id patch).items.find? id))
          { w with db := w.db.updateItem id patch } ∧
        post (.error .sqlx) { w with db := w.db.updateItem id patch }) ∧
      post (.error .sqlx) w ∧
      post (.error .sqlx) { w with db := w.db.updateItem id patch } := by
  rw [Repositories.Catalog.update, wp_bind]
  exact (rewrite_arbitrary_wp (f := (·.updateItem id patch))).trans
    (and_congr_left' select_arbitrary_wp)

theorem edit_arbitrary_wp {form : CatalogItemForm}
    {patch : UpdateServiceCatalogItem} (hadmin : user.role = .admin)
    (hitem : w.db.items.find? id = some item)
    (hpatch : patchFromForm form = .ok patch) :
    wp Input.Arbitrary (edit user id form) post w ↔
      post (.ok (.redirect "/admin/catalog"))
        { w with db := w.db.updateItem id patch } ∧ post (.error .internal) w ∧
        post (.error .internal) { w with db := w.db.updateItem id patch } := by
  have hupdated : (w.db.updateItem id patch).items.find? id =
      some (Db.patched patch item) := by
    rw [Db.find?_updateItem, if_pos rfl, hitem]
    rfl
  unfold edit requireAdmin
  rw [if_pos hadmin, wp_bind, wp_pure]
  simp only [Program.onOk, hpatch]
  rw [wp_bind, Orchestrator.db, wp_mapError, update_arbitrary_wp, hupdated]
  constructor
  · rintro ⟨⟨hok, herror⟩, hbefore, -⟩
    exact ⟨hok, hbefore, herror⟩
  · rintro ⟨hok, hbefore, herror⟩
    exact ⟨⟨hok, herror⟩, hbefore, herror⟩

end Catalog

end Pages

end Web

end Servcat
