/-
What an admin request does to the tables: at most one edit of the definitions or
of the catalog, by an admin.
-/
import Servcat.Admin
import Servcat.Serial.Effects

namespace Servcat

open Atomic Keyed

/-- A writing statement of this section. -/
inductive Edit where
  | define (id : Uuid) (new : NewWorkflowDefinition) (createdBy : Uuid)
  | setPublished (id : Uuid) (isPublished : Bool)
  | addItem (id : Uuid) (new : NewServiceCatalogItem) (createdBy : Uuid)
  | updateItem (id : Uuid) (patch : UpdateServiceCatalogItem)
  | deactivateItem (id : Uuid)

/-- The tables after an edit, unless a constraint rejects it. -/
def Edit.apply (collation : String → String → Bool) (db : Db) : Edit → Option Db
  | .define id new createdBy => db.insertDefinition collation id new createdBy
  | .setPublished id isPublished => some (db.setPublished id isPublished)
  | .addItem id new createdBy => db.insertItem collation id new createdBy
  | .updateItem id patch => some (db.updateItem id patch)
  | .deactivateItem id => some (db.deactivateItem id)

namespace AdminRequest

/-- The edit a request asks for; a row it inserts gets the identifier `uuid`. -/
def edit? (reader : JsonReader) (user : User) (uuid : Uuid) :
    AdminRequest → Option Edit
  | .createDefinition newDef => some (.define uuid newDef user.id)
  | .submitDefinition form =>
      (Web.Workflows.parseForm reader form).toOption.map fun new =>
        .define uuid new user.id
  | .publish id | .publishPage id => some (.setPublished id true)
  | .unpublish id | .unpublishPage id => some (.setPublished id false)
  | .createItem newItem => some (.addItem uuid newItem user.id)
  | .updateItem id patch => some (.updateItem id patch)
  | .deactivateItem id => some (.deactivateItem id)
  | .toggleItem id isActive => some <| .updateItem id
      { name := none
        description := none
        summary := none
        details := none
        approvalLabel := none
        targetValue := none
        targetUnit := none
        category := none
        icon := none
        sortOrder := none
        isActive := some isActive }

/-- An admin's request carried out this edit, and nothing else. -/
structure Edits (deps : Deps) (reader : JsonReader) (user : User)
    (req : AdminRequest) (edit : Edit) (w w' : World) : Prop where
  admin : user.role = .admin
  asked : ∃ uuid, req.edit? reader user uuid = some edit
  applied : ∃ db, edit.apply deps.collation w.db = some db ∧ w' = { w with db }

/-- The request changed nothing or carried out an edit. -/
def Effect (deps : Deps) (reader : JsonReader) (user : User)
    (req : AdminRequest) (w w' : World) : Prop :=
  w' = w ∨ ∃ edit, req.Edits deps reader user edit w w'

end AdminRequest

section Rules

variable {valid : Input → World → Prop} {ε ε' α β : Type} {w : World}
  {Q : World → Prop}

/-- Both parts of a program keep to `Q`. -/
theorem wp_then {p : Async ε α} {k : α → Async ε β}
    (h : wp valid p (fun _ => Q) w)
    (hk : ∀ a w', Q w' → wp valid (k a) (fun _ => Q) w') :
    wp valid (p >>= k) (fun _ => Q) w := by
  refine (wp_bind _ _ _ _).mpr (wp_mono (fun x w' hx => ?_) h)
  cases x with
  | ok a => exact hk a w' hx
  | error | panicked => exact hx

theorem wp_inner {f : ε → ε'} {p : Async ε α} (h : wp valid p (fun _ => Q) w) :
    wp valid (p.mapError f) (fun _ => Q) w :=
  (wp_mapError _ _ _ _).mpr h

theorem select_keeps {f : World → α} (hw : Q w) :
    wp valid (select f) (fun _ => Q) w := by
  refine (wp_atomic _ _ _).mpr fun i _ => ?_
  cases i.fault <;> exact hw

theorem execute_keeps {f : Input → World → Option (α × Db × List Event)}
    (hw : Q w) (h : ∀ i a db events, f i w = some (a, db, events) →
      events = [] ∧ Q { w with db }) :
    wp valid (execute f) (fun _ => Q) w := by
  refine (wp_atomic _ _ _).mpr fun i _ => ?_
  cases hf : f i w with
  | none => simpa using hw
  | some result =>
      obtain ⟨a, db, events⟩ := result
      obtain ⟨rfl, hQ⟩ := h i a db events hf
      cases i.fault with
      | none | lostReply => exact hQ
      | lostRequest => exact hw

/-- An `INSERT` that a constraint may reject. -/
theorem insert_keeps (insert : Uuid → Db → Option Db) (hw : Q w)
    (h : ∀ id db, insert id w.db = some db → Q { w with db }) :
    wp valid
      (execute fun i w => (insert i.uuid w.db).map fun db => (i.uuid, db, []))
      (fun _ => Q) w := by
  refine execute_keeps hw ?_
  intro i id db events hsome
  obtain ⟨db', hinsert, heq⟩ := Option.map_eq_some_iff.mp hsome
  cases heq
  exact ⟨rfl, h _ _ hinsert⟩

/-- An `UPDATE`, which no constraint rejects. -/
theorem rewrite_keeps (f : Db → Db) (hw : Q w) (h : Q { w with db := f w.db }) :
    wp valid (execute fun _ w => some ((), f w.db, [])) (fun _ => Q) w := by
  refine execute_keeps hw ?_
  rintro i a db events ⟨⟩
  exact ⟨rfl, h⟩

theorem requireRole_wp {user : User} {allowed : List Role}
    {k : Unit → Async ApiError α} (hw : Q w)
    (h : user.role ∈ allowed → wp valid (k ()) (fun _ => Q) w) :
    wp valid (requireRole user allowed >>= k) (fun _ => Q) w := by
  unfold requireRole
  by_cases hrole : user.role ∈ allowed
  · rw [if_pos hrole]
    exact h hrole
  · rw [if_neg hrole]
    exact hw

theorem requireAdmin_wp {user : User} {k : Unit → Async ApiError α} (hw : Q w)
    (h : user.role = .admin → wp valid (k ()) (fun _ => Q) w) :
    wp valid (requireAdmin user >>= k) (fun _ => Q) w := by
  unfold requireAdmin
  by_cases hrole : user.role = .admin
  · rw [if_pos hrole]
    exact h hrole
  · rw [if_neg hrole]
    exact hw

end Rules

section Repositories

variable {valid : Input → World → Prop} {w : World} {Q : World → Prop}
  {collation : String → String → Bool}

theorem Repositories.WorkflowDefinitions.create_keeps
    {new : NewWorkflowDefinition} {createdBy : Uuid} (hw : Q w)
    (h : ∀ id db, w.db.insertDefinition collation id new createdBy = some db →
      Q { w with db }) :
    wp valid (create collation new createdBy) (fun _ => Q) w := by
  let insert id (db : Db) := db.insertDefinition collation id new createdBy
  refine wp_then (insert_keeps insert hw h) fun id w' hw' => ?_
  exact wp_then (select_keeps hw') fun row w'' hw'' =>
    by cases row <;> exact hw''

theorem Repositories.WorkflowDefinitions.setPublished_keeps {id : Uuid}
    {isPublished : Bool} (hw : Q w)
    (h : Q { w with db := w.db.setPublished id isPublished }) :
    wp valid (setPublished id isPublished) (fun _ => Q) w :=
  rewrite_keeps (·.setPublished id isPublished) hw h

theorem Repositories.Catalog.create_keeps {new : NewServiceCatalogItem}
    {createdBy : Uuid} (hw : Q w)
    (h : ∀ id db, w.db.insertItem collation id new createdBy = some db →
      Q { w with db }) :
    wp valid (create collation new createdBy) (fun _ => Q) w := by
  let insert id (db : Db) := db.insertItem collation id new createdBy
  refine wp_then (insert_keeps insert hw h) fun id w' hw' => ?_
  exact wp_then (select_keeps hw') fun row w'' hw'' =>
    by cases row <;> exact hw''

theorem Repositories.Catalog.update_keeps {id : Uuid}
    {patch : UpdateServiceCatalogItem} (hw : Q w)
    (h : Q { w with db := w.db.updateItem id patch }) :
    wp valid (update id patch) (fun _ => Q) w :=
  wp_then (rewrite_keeps (·.updateItem id patch) hw h) fun _ _ hw' =>
    select_keeps hw'

theorem Repositories.Catalog.deactivate_keeps {id : Uuid} (hw : Q w)
    (h : Q { w with db := w.db.deactivateItem id }) :
    wp valid (deactivate id) (fun _ => Q) w :=
  rewrite_keeps (·.deactivateItem id) hw h

end Repositories

theorem Web.Layout.load_keeps {valid : Input → World → Prop} {user : User}
    {activeNav : String} {w : World} {Q : World → Prop} (hw : Q w) :
    wp valid (load user activeNav) (fun _ => Q) w :=
  wp_then (wp_inner (select_keeps hw)) fun _ _ h => h

/-- Showing the form again changes nothing. -/
theorem Web.Workflows.workflowFormError_keeps {valid : Input → World → Prop}
    {deps : Deps} {user : User} {error : String} {form : CreateWorkflowForm}
    {w : World} {Q : World → Prop} (hw : Q w) :
    wp valid (workflowFormError deps user error form) (fun _ => Q) w := by
  refine wp_then (Web.Layout.load_keeps hw) fun layout w' hw' => ?_
  refine wp_then (wp_inner (select_keeps hw')) fun definitions w' hw' => ?_
  exact wp_then (wp_inner (select_keeps hw')) fun users w' hw' => hw'

/-- The spec of the requests of admins. -/
theorem AdminRequest.serve_wp {valid : Input → World → Prop} {deps : Deps}
    {reader : JsonReader} {user : User} {req : AdminRequest} {w : World} :
    wp valid (req.serve deps reader user)
      (fun _ => req.Effect deps reader user w) w := by
  have hnone : req.Effect deps reader user w w := .inl rfl
  have hedit : ∀ uuid {edit db}, user.role = .admin →
      req.edit? reader user uuid = some edit →
        edit.apply deps.collation w.db = some db →
      req.Effect deps reader user w { w with db } :=
    fun _ _ _ hrole hasked happly =>
      .inr ⟨_, hrole, ⟨_, hasked⟩, _, happly, rfl⟩
  have hadmin : user.role ∈ [Role.admin] → user.role = .admin := by simp
  cases req with
  | createDefinition newDef =>
      refine wp_then (requireRole_wp hnone fun hrole => wp_inner ?_)
        fun _ _ h => h
      exact Repositories.WorkflowDefinitions.create_keeps hnone
        fun id db hinsert =>
        hedit id (hadmin hrole) rfl hinsert
  | submitDefinition form =>
      refine wp_then (requireAdmin_wp hnone fun hrole => ?_) fun _ _ h => h
      cases hform : Web.Workflows.parseForm reader form with
      | error err => exact Web.Workflows.workflowFormError_keeps hnone
      | ok new =>
          refine wp_then (wp_inner ?_) fun _ _ h => h
          refine Repositories.WorkflowDefinitions.create_keeps hnone
            fun id db hinsert => ?_
          have hasked : edit? reader user id (.submitDefinition form) =
              some (.define id new user.id) := by
            rw [edit?, hform]
            rfl
          exact hedit id hrole hasked hinsert
  | publish id | unpublish id =>
      refine wp_then (requireRole_wp hnone fun hrole => wp_inner ?_)
        fun _ _ h => h
      exact Repositories.WorkflowDefinitions.setPublished_keeps hnone
        (hedit id (hadmin hrole) rfl rfl)
  | publishPage id | unpublishPage id =>
      refine wp_then (requireAdmin_wp hnone fun hrole => ?_) fun _ _ h => h
      refine wp_then (wp_inner ?_) fun _ _ h => h
      exact Repositories.WorkflowDefinitions.setPublished_keeps hnone
        (hedit id hrole rfl rfl)
  | createItem newItem =>
      refine wp_then (requireRole_wp hnone fun hrole => wp_inner ?_)
        fun _ _ h => h
      exact Repositories.Catalog.create_keeps hnone fun id db hinsert =>
        hedit id (hadmin hrole) rfl hinsert
  | updateItem id patch =>
      refine wp_then (requireRole_wp hnone fun hrole => ?_) fun _ _ h => h
      refine wp_then (wp_inner ?_) fun row _ h => by cases row <;> exact h
      exact Repositories.Catalog.update_keeps hnone
        (hedit id (hadmin hrole) rfl rfl)
  | deactivateItem id =>
      refine wp_then (requireRole_wp hnone fun hrole => wp_inner ?_)
        fun _ _ h => h
      exact Repositories.Catalog.deactivate_keeps hnone
        (hedit id (hadmin hrole) rfl rfl)
  | toggleItem id isActive =>
      refine wp_then (requireAdmin_wp hnone fun hrole => ?_) fun _ _ h => h
      refine wp_then (wp_inner ?_) fun row _ h => by cases row <;> exact h
      exact Repositories.Catalog.update_keeps hnone
        (hedit id hrole rfl rfl)

theorem AdminRequest.effect {valid : Input → World → Prop} {deps : Deps}
    {reader : JsonReader} {user : User} {req : AdminRequest} {w w' : World}
    {x : Exit ApiError AdminReply}
    (h : Runs valid (req.serve deps reader user) w x w') :
    req.Effect deps reader user w w' :=
  h.ensures serve_wp

end Servcat
