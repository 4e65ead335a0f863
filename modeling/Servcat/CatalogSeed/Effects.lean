/-
What a run of the seed does to the tables, whatever faults its statements
meet: an inversion that says for each statement what is left behind when it
is the last one.
-/
import Servcat.Atomic.Inputs
import Servcat.CatalogSeed

namespace Servcat

open Atomic Keyed

/-- The identifier belongs to no catalog item and to no definition. -/
def World.Unused (w : World) (id : Uuid) : Prop :=
  w.db.items.find? id = none ∧ w.db.definitions.find? id = none

instance (w : World) (id : Uuid) : Decidable (w.Unused id) :=
  inferInstanceAs (Decidable (_ ∧ _))

/-- Any fault, and a random identifier that is new to the catalog. -/
def Input.Drawn (i : Input) (w : World) : Prop :=
  w.Unused i.uuid

instance (i : Input) (w : World) : Decidable (i.Drawn w) :=
  inferInstanceAs (Decidable (w.Unused i.uuid))

/-- No fault, and a random identifier that is new to the catalog. -/
def Input.Undisturbed (i : Input) (w : World) : Prop :=
  i.Faultless ∧ w.Unused i.uuid

instance (i : Input) (w : World) : Decidable (i.Undisturbed w) :=
  inferInstanceAs (Decidable (_ ∧ _))

section Statements

variable {α : Type} {valid : Input → World → Prop} {inputs : List Input}
  {w w' : World}

theorem select_cases {f : World → α} {x : Exit DbError α}
    (h : Consumes valid (select f) inputs w x w') :
    ∃ i, inputs = [i] ∧ w' = w ∧
      (i.fault = .none ∧ x = .ok (f w) ∨
        i.fault ≠ .none ∧ x = .error .sqlx) := by
  obtain ⟨i, rfl, -, heq⟩ := h.of_atomic
  refine ⟨i, rfl, ?_⟩
  cases hfault : i.fault with
  | none =>
      simp only [hfault, Prod.mk.injEq] at heq
      obtain ⟨rfl, rfl⟩ := heq
      exact ⟨rfl, .inl ⟨rfl, rfl⟩⟩
  | _ =>
      simp only [hfault, Prod.mk.injEq] at heq
      obtain ⟨rfl, rfl⟩ := heq
      exact ⟨rfl, .inr ⟨by simp, rfl⟩⟩

/-- An `UPDATE`, which no constraint rejects. -/
theorem update_cases {f : Db → Db} {p : Async DbError Unit}
    {x : Exit ApiError Unit} (hp : p = execute fun _ w => some ((), f w.db, []))
    (h : Consumes valid (Orchestrator.db p) inputs w x w') :
    ∃ i, inputs = [i] ∧
      (i.fault = .none ∧ x = .ok () ∧ w' = { w with db := f w.db } ∨
        ∃ e, x = .error e ∧
          (i.fault = .lostReply ∧ w' = { w with db := f w.db } ∨
            i.fault = .lostRequest ∧ w' = w)) := by
  subst hp
  obtain ⟨y, rfl, hrun⟩ := h.of_mapError
  obtain ⟨i, rfl, -, heq⟩ := hrun.of_atomic
  refine ⟨i, rfl, ?_⟩
  cases hfault : i.fault with
  | none =>
      simp only [hfault, Prod.mk.injEq] at heq
      obtain ⟨rfl, rfl⟩ := heq
      exact .inl ⟨rfl, rfl, rfl⟩
  | lostReply =>
      simp only [hfault, Prod.mk.injEq] at heq
      obtain ⟨rfl, rfl⟩ := heq
      exact .inr ⟨_, rfl, .inl ⟨rfl, rfl⟩⟩
  | lostRequest =>
      simp only [hfault, Prod.mk.injEq] at heq
      obtain ⟨rfl, rfl⟩ := heq
      exact .inr ⟨_, rfl, .inr ⟨rfl, rfl⟩⟩

/-- An `INSERT` that a constraint may reject. -/
theorem insert_cases {insert : Uuid → Db → Option Db} {x : Exit DbError Uuid}
    (h : Consumes valid
      (execute fun i w => (insert i.uuid w.db).map fun db => (i.uuid, db, []))
      inputs w x w') :
    ∃ i, inputs = [i] ∧ valid i w ∧
      ((i.fault = .lostRequest ∨ insert i.uuid w.db = none) ∧
        x = .error .sqlx ∧ w' = w ∨
        ∃ db, insert i.uuid w.db = some db ∧ w' = { w with db } ∧
          (i.fault = .none ∧ x = .ok i.uuid ∨
            i.fault = .lostReply ∧ x = .error .sqlx)) := by
  obtain ⟨i, rfl, hi, heq⟩ := h.of_atomic
  refine ⟨i, rfl, hi, ?_⟩
  cases hinsert : insert i.uuid w.db with
  | none =>
      simp only [hinsert, Option.map_none, Prod.mk.injEq] at heq
      obtain ⟨rfl, rfl⟩ := heq
      exact .inl ⟨.inr rfl, rfl, rfl⟩
  | some db =>
      simp only [hinsert, Option.map_some] at heq
      cases hfault : i.fault with
      | none =>
          simp only [hfault, Prod.mk.injEq] at heq
          obtain ⟨rfl, rfl⟩ := heq
          exact .inr ⟨db, rfl, rfl, .inl ⟨rfl, rfl⟩⟩
      | lostReply =>
          simp only [hfault, Prod.mk.injEq] at heq
          obtain ⟨rfl, rfl⟩ := heq
          exact .inr ⟨db, rfl, rfl, .inr ⟨rfl, rfl⟩⟩
      | lostRequest =>
          simp only [hfault, Prod.mk.injEq] at heq
          obtain ⟨rfl, rfl⟩ := heq
          exact .inl ⟨.inl rfl, rfl, rfl⟩

/-- An `INSERT` and a `SELECT` of the row it added. -/
theorem create_cases {insert : Uuid → Db → Option Db}
    {read : Uuid → World → Option α} {row : Uuid → α} {missing : Uuid → DbError}
    {x : Exit DbError α}
    (hread : ∀ id db, insert id w.db = some db →
      read id { w with db } = some (row id))
    (h : Consumes valid
      (do
        let id ← execute fun i w => (insert i.uuid w.db).map fun db =>
          (i.uuid, db, [])
        let found ← select (read id)
        .okOr (missing id) found)
      inputs w x w') :
    ∃ i, valid i w ∧
      (inputs = [i] ∧ (i.fault = .lostRequest ∨ insert i.uuid w.db = none) ∧
          x = .error .sqlx ∧ w' = w ∨
        ∃ db, insert i.uuid w.db = some db ∧ w' = { w with db } ∧
          (inputs = [i] ∧ i.fault = .lostReply ∧ x = .error .sqlx ∨
            ∃ j, inputs = [i, j] ∧
              (j.fault ≠ .none ∧ x = .error .sqlx ∨
                i.fault = .none ∧ j.fault = .none ∧
                  x = .ok (row i.uuid)))) := by
  obtain ⟨before, after, y, u, rfl, hinsert, hrest⟩ := h.of_bind
  obtain ⟨i, rfl, hi, hcases⟩ := insert_cases hinsert
  rcases hcases with
    ⟨hfault, rfl, rfl⟩ | ⟨db, hdb, rfl, ⟨hfault, rfl⟩ | ⟨hfault, rfl⟩⟩
  · obtain ⟨rfl, rfl, rfl⟩ := hrest.of_exit
    exact ⟨i, hi, .inl ⟨rfl, hfault, rfl, rfl⟩⟩
  · refine ⟨i, hi, .inr ⟨db, hdb, ?_⟩⟩
    obtain ⟨before, after, y, u, rfl, hselect, hokOr⟩ := hrest.of_bind
    obtain ⟨j, rfl, rfl, ⟨hj, rfl⟩ | ⟨hj, rfl⟩⟩ := select_cases hselect
    · simp only [Program.onOk, hread _ _ hdb] at hokOr
      obtain ⟨rfl, rfl, rfl⟩ := hokOr.of_exit
      exact ⟨rfl, .inr ⟨j, rfl, .inr ⟨hfault, hj, rfl⟩⟩⟩
    · obtain ⟨rfl, rfl, rfl⟩ := hokOr.of_exit
      exact ⟨rfl, .inr ⟨j, rfl, .inl ⟨hj, rfl⟩⟩⟩
  · obtain ⟨rfl, rfl, rfl⟩ := hrest.of_exit
    exact ⟨i, hi, .inr ⟨db, hdb, rfl, .inl ⟨rfl, hfault, rfl⟩⟩⟩

end Statements

namespace CatalogSeed

variable {collation : String → String → Bool} {createdBy : Uuid} {index : Nat}
  {item : SeedItem} {db db' : Db} {inputs : List Input} {w w' : World}

/-- No definition of the first version has the name the item's would get. -/
def NameFree (collation : String → String → Bool) (db : Db)
    (item : SeedItem) : Prop :=
  ∀ row ∈ db.definitions.rows, row.version = 1 →
    sameText collation row.name (newDefinition item).name = false

/-- No catalog item has the slug. -/
def SlugFree (collation : String → String → Bool) (db : Db)
    (item : SeedItem) : Prop :=
  ∀ row ∈ db.items.rows, ∀ slug, row.slug = some slug →
    sameText collation slug item.slug = false

/-- The rows that were added for an item. -/
structure Entry where
  index : Nat
  item : SeedItem
  itemId : Uuid
  definitionId : Uuid
  isActive : Bool

/-- The definition of an item, which is published at once. -/
def publishedDefinition (item : SeedItem) (id : Uuid) : WorkflowDefinition :=
  { Db.newDefinition id (newDefinition item) with isPublished := true }

def Entry.definitionRow (entry : Entry) : WorkflowDefinition :=
  publishedDefinition entry.item entry.definitionId

def Entry.itemRow (entry : Entry) : ServiceCatalogItem :=
  { Db.newItem entry.itemId
      (newItem entry.index entry.item entry.definitionId) with
    isActive := entry.isActive }

/-- Both rows of the entry were added. -/
structure Adds (collation : String → String → Bool) (createdBy : Uuid)
    (entry : Entry) (db db' : Db) : Prop where
  creator : (db.users.find? createdBy).isSome = true
  nameFree : NameFree collation db entry.item
  slugFree : SlugFree collation db entry.item
  rows : ∃ definitions items,
    db.definitions.insert? entry.definitionRow = some definitions ∧
    db.items.insert? entry.itemRow = some items ∧
      db' = { db with definitions, items }

theorem insertDefinition_eq_some_iff {id : Uuid} :
    db.insertDefinition collation id (newDefinition item) createdBy = some db' ↔
      (db.users.find? createdBy).isSome = true ∧ NameFree collation db item ∧
        ∃ definitions,
          db.definitions.insert? (Db.newDefinition id (newDefinition item)) =
            some definitions ∧
          db' = { db with definitions } := by
  have hguard : ((db.users.find? createdBy).isSome &&
      !db.definitions.rows.any fun row =>
        row.version == 1 && sameText collation row.name
          (newDefinition item).name) = true ↔
      (db.users.find? createdBy).isSome = true ∧
        NameFree collation db item := by
    simp [NameFree]
  unfold Db.insertDefinition
  by_cases h : (db.users.find? createdBy).isSome = true ∧
    NameFree collation db item
  · rw [if_pos (hguard.mpr h)]
    simp [h, eq_comm]
  · rw [if_neg fun hcond => h (hguard.mp hcond)]
    constructor
    · rintro ⟨⟩
    · rintro ⟨hcreator, hname, -⟩
      exact absurd ⟨hcreator, hname⟩ h

theorem insertItem_eq_some_iff {id definitionId : Uuid} :
    db.insertItem collation id (newItem index item definitionId) createdBy =
      some db' ↔ (db.users.find? createdBy).isSome = true ∧
        (db.definitions.find? definitionId).isSome = true ∧
        SlugFree collation db item ∧
        ∃ items,
          db.items.insert? (Db.newItem id (newItem index item definitionId)) =
            some items ∧
          db' = { db with items } := by
  unfold Db.insertItem
  split
  · rename_i hcond
    simp only [Bool.and_eq_true, Bool.not_eq_true', List.any_eq_false,
      and_assoc] at hcond
    obtain ⟨hcreator, hdefinition, hslug⟩ := hcond
    have hfree : SlugFree collation db item := by
      intro row hrow slug hsome
      have hrow := hslug row hrow
      rw [hsome] at hrow
      exact Bool.eq_false_of_not_eq_true hrow
    change (db.definitions.find? definitionId).isSome = true at hdefinition
    simp [hcreator, hdefinition, hfree, eq_comm]
  · rename_i hcond
    constructor
    · rintro ⟨⟩
    · rintro ⟨hcreator, hdefinition, hfree, -⟩
      refine absurd ?_ hcond
      simp only [Bool.and_eq_true, Bool.not_eq_true', List.any_eq_false,
        and_assoc]
      refine ⟨hcreator, hdefinition, fun row hrow => ?_⟩
      cases hslug : row.slug with
      | none => exact Bool.false_ne_true
      | some slug => exact ne_true_of_eq_false (hfree row hrow slug hslug)

/-- The statements of the seed; `published` is the flag of the item
in the file. -/
inductive Statement where
  | listItems
  | insertDefinition
  | selectDefinition
  | setPublished
  | insertItem (published : Bool)
  | selectItem (published : Bool)
  | deactivate
deriving DecidableEq, Repr

/-- The statements that add an item, in order. -/
def statements (item : SeedItem) : List Statement :=
  [.insertDefinition, .selectDefinition, .setPublished,
    .insertItem item.published,
    .selectItem item.published] ++ if item.published then [] else [.deactivate]

/-- The item's definition is there and the item is not. -/
def Orphans : Statement → Fault → Prop
  | .insertDefinition, fault => fault = .lostReply
  | .selectDefinition, fault => fault ≠ .none
  | .setPublished, fault => fault ≠ .none
  | .insertItem _, fault => fault = .lostRequest
  | _, _ => False

/-- Both rows of the item are there, and the item is active or not. -/
inductive Leaves (item : SeedItem) : Statement → Fault → Bool → Prop
  | inserted : Leaves item (.insertItem item.published) .lostReply true
  | unread {fault : Fault} (hfault : fault ≠ .none) :
      Leaves item (.selectItem item.published) fault true
  | active (hpublished : item.published = false) :
      Leaves item .deactivate .lostRequest true
  | inactive (hpublished : item.published = false) :
      Leaves item .deactivate .lostReply false

/-- What an attempt to add an item leaves behind when it fails at
a statement. -/
inductive Broken (collation : String → String → Bool) (createdBy : Uuid)
    (index : Nat) (item : SeedItem) : Statement → Fault → World → World → Prop
  | nothing {fault : Fault} {w : World}
      (h : fault = .lostRequest ∨
        ¬((w.db.users.find? createdBy).isSome = true ∧
          NameFree collation w.db item)) :
      Broken collation createdBy index item .insertDefinition fault w w
  | orphan {statement : Statement} {fault : Fault} {w : World}
      {definition : WorkflowDefinition}
      {definitions : Table WorkflowDefinition.id}
      (hname : NameFree collation w.db item)
      (hinsert : w.db.definitions.insert? definition = some definitions)
      (hdefinition : definition.name = (newDefinition item).name ∧
        definition.version = 1)
      (h : Orphans statement fault ∨ ¬SlugFree collation w.db item) :
      Broken collation createdBy index item statement fault w
        { w with db := { w.db with definitions } }
  | both {statement : Statement} {fault : Fault} {w : World}
      {entry : Entry} {db : Db} (hitem : entry.item = item)
      (hindex : entry.index = index)
      (hadds : Adds collation createdBy entry w.db db)
      (h : Leaves item statement fault entry.isActive) :
      Broken collation createdBy index item statement fault w { w with db }

/-- The first two statements of an item. -/
theorem define_cases {x : Exit ApiError WorkflowDefinition}
    (h : Consumes Input.Drawn (Orchestrator.db <|
      Repositories.WorkflowDefinitions.create collation
        (newDefinition item) createdBy)
      inputs w x w') :
    (∃ i e, inputs = [i] ∧ x = .error e ∧ w' = w ∧
      (i.fault = .lostRequest ∨
        ¬((w.db.users.find? createdBy).isSome = true ∧
          NameFree collation w.db item))) ∨
    ∃ id definitions, (w.db.users.find? createdBy).isSome = true ∧
      NameFree collation w.db item ∧
      w.db.definitions.insert? (Db.newDefinition id (newDefinition item)) =
        some definitions ∧
      w' = { w with db := { w.db with definitions } } ∧
      ((∃ i e, inputs = [i] ∧ i.fault = .lostReply ∧ x = .error e) ∨
        (∃ i j e, inputs = [i, j] ∧ j.fault ≠ .none ∧ x = .error e) ∨
        ∃ i j, inputs = [i, j] ∧ i.fault = .none ∧ j.fault = .none ∧
          x = .ok (Db.newDefinition id (newDefinition item))) := by
  obtain ⟨y, rfl, hcreate⟩ := h.of_mapError
  have hread : ∀ id db,
      w.db.insertDefinition collation id (newDefinition item)
        createdBy = some db →
      db.definitions.find? id =
        some (Db.newDefinition id (newDefinition item)) := by
    intro id db hinsert
    obtain ⟨-, -, definitions, hdefinitions, rfl⟩ :=
      insertDefinition_eq_some_iff.mp hinsert
    exact Table.find?_inserted hdefinitions
  obtain ⟨i, hi, ⟨rfl, hfault, rfl, rfl⟩ | ⟨db, hdb, rfl, hrest⟩⟩ :=
    @create_cases _ Input.Drawn inputs w w'
      (fun id db => db.insertDefinition collation id (newDefinition item)
        createdBy)
      (fun id w => w.db.definitions.find? id) _ _ _ hread hcreate
  · refine .inl ⟨i, _, rfl, rfl, rfl, hfault.imp_right ?_⟩
    rintro hnone ⟨hcreator, hname⟩
    obtain ⟨definitions, hinsert⟩ :=
      Table.exists_insert? (Db.newDefinition i.uuid (newDefinition item)) hi.2
    have hsome := insertDefinition_eq_some_iff.mpr
      ⟨hcreator, hname, definitions, hinsert, rfl⟩
    rw [hnone] at hsome
    cases hsome
  · obtain ⟨hcreator, hname, definitions, hinsert, rfl⟩ :=
      insertDefinition_eq_some_iff.mp hdb
    refine .inr ⟨i.uuid, definitions, hcreator, hname, hinsert, rfl, ?_⟩
    rcases hrest with
      ⟨rfl, hfault, rfl⟩ | ⟨j, rfl, ⟨hj, rfl⟩ | ⟨hfault, hj, rfl⟩⟩
    · exact .inl ⟨i, _, rfl, hfault, rfl⟩
    · exact .inr (.inl ⟨i, j, _, rfl, hj, rfl⟩)
    · exact .inr (.inr ⟨i, j, rfl, hfault, hj, rfl⟩)

/-- The `INSERT` of the item, and the `SELECT` after it. -/
theorem offer_cases {definitionId : Uuid} {x : Exit ApiError ServiceCatalogItem}
    (h : Consumes Input.Drawn (Orchestrator.db <|
      Repositories.Catalog.create collation
        (newItem index item definitionId) createdBy)
      inputs w x w')
    (hcreator : (w.db.users.find? createdBy).isSome = true)
    (hdefinition : (w.db.definitions.find? definitionId).isSome = true) :
    (∃ i e, inputs = [i] ∧ x = .error e ∧ w' = w ∧
      (i.fault = .lostRequest ∨ ¬SlugFree collation w.db item)) ∨
    ∃ id items, SlugFree collation w.db item ∧
      w.db.items.insert? (Db.newItem id (newItem index item definitionId)) =
        some items ∧
      w' = { w with db := { w.db with items } } ∧
      ((∃ i e, inputs = [i] ∧ i.fault = .lostReply ∧ x = .error e) ∨
        (∃ i j e, inputs = [i, j] ∧ j.fault ≠ .none ∧ x = .error e) ∨
        ∃ i j, inputs = [i, j] ∧ i.fault = .none ∧ j.fault = .none ∧
          x = .ok (Db.newItem id (newItem index item definitionId))) := by
  obtain ⟨y, rfl, hcreate⟩ := h.of_mapError
  have hread : ∀ id db,
      w.db.insertItem collation id (newItem index item definitionId)
        createdBy = some db →
      db.items.find? id = some
        (Db.newItem id (newItem index item definitionId)) := by
    intro id db hinsert
    obtain ⟨-, -, -, items, hitems, rfl⟩ := insertItem_eq_some_iff.mp hinsert
    exact Table.find?_inserted hitems
  obtain ⟨i, hi, ⟨rfl, hfault, rfl, rfl⟩ | ⟨db, hdb, rfl, hrest⟩⟩ :=
    @create_cases _ Input.Drawn inputs w w'
      (fun id db => db.insertItem collation id (newItem index item definitionId)
        createdBy)
      (fun id w => w.db.items.find? id) _ _ _ hread hcreate
  · refine .inl ⟨i, _, rfl, rfl, rfl, hfault.imp_right ?_⟩
    intro hnone hslug
    obtain ⟨items, hinsert⟩ :=
      Table.exists_insert? (Db.newItem i.uuid
        (newItem index item definitionId)) hi.1
    have hsome := insertItem_eq_some_iff.mpr
      ⟨hcreator, hdefinition, hslug, items, hinsert, rfl⟩
    rw [hnone] at hsome
    cases hsome
  · obtain ⟨-, -, hslug, items, hinsert, rfl⟩ := insertItem_eq_some_iff.mp hdb
    refine .inr ⟨i.uuid, items, hslug, hinsert, rfl, ?_⟩
    rcases hrest with
      ⟨rfl, hfault, rfl⟩ | ⟨j, rfl, ⟨hj, rfl⟩ | ⟨hfault, hj, rfl⟩⟩
    · exact .inl ⟨i, _, rfl, hfault, rfl⟩
    · exact .inr (.inl ⟨i, j, _, rfl, hj, rfl⟩)
    · exact .inr (.inr ⟨i, j, rfl, hfault, hj, rfl⟩)

/-- What an attempt to add an item on these inputs comes to; `skip` statements
of it were carried out before. -/
def Attempted (collation : String → String → Bool) (createdBy : Uuid)
    (index : Nat) (item : SeedItem) (skip : Nat) (inputs : List Input)
    (w : World) (x : Exit ApiError Unit) (w' : World) : Prop :=
  (∃ entry db, entry.item = item ∧ entry.index = index ∧
    entry.isActive = item.published ∧ Adds collation createdBy entry w.db db ∧
    w' = { w with db } ∧ x = .ok () ∧
      skip + inputs.length = (statements item).length) ∨
  ∃ before i statement e, inputs = before ++ [i] ∧
    (statements item)[skip + before.length]? = some statement ∧ x = .error e ∧
    Broken collation createdBy index item statement i.fault w w'

/-- The statements after the definition of the item was published. -/
theorem place_cases {definitionId : Uuid}
    {definitions : Table WorkflowDefinition.id} {x : Exit ApiError Unit}
    (hcreator : (w.db.users.find? createdBy).isSome = true)
    (hname : NameFree collation w.db item)
    (hinsert : w.db.definitions.insert?
      (publishedDefinition item definitionId) =
      some definitions)
    (h : Consumes Input.Drawn
      (do
        let created ← Orchestrator.db <| Repositories.Catalog.create collation
          (newItem index item definitionId) createdBy
        if !item.published then
          Orchestrator.db (Repositories.Catalog.deactivate created.id))
      inputs { w with db := { w.db with definitions } } x w') :
    Attempted collation createdBy index item 3 inputs w x w' := by
  have hdefinition : (definitions.find? definitionId).isSome = true := by
    have hfound := Table.find?_inserted hinsert
    change definitions.find? definitionId = _ at hfound
    rw [hfound]
    rfl
  have horphan : ∀ statement fault, Orphans statement fault ∨
      ¬SlugFree collation w.db item →
      Broken collation createdBy index item statement fault w
        { w with db := { w.db with definitions } } :=
    fun statement fault h => .orphan hname hinsert ⟨rfl, rfl⟩ h
  have hadds : ∀ {id : Uuid} {items : Table ServiceCatalogItem.id}
      {isActive : Bool},
      SlugFree collation w.db item →
      w.db.items.insert?
        (Entry.itemRow ⟨index, item, id, definitionId, isActive⟩) =
        some items →
      Adds collation createdBy ⟨index, item, id, definitionId, isActive⟩ w.db
        { w.db with definitions, items } :=
    fun hslug hitems => ⟨hcreator, hname, hslug, _, _, hinsert, hitems, rfl⟩
  obtain ⟨before, after, y, u, rfl, hoffer, hrest⟩ := h.of_bind
  rcases offer_cases hoffer hcreator hdefinition with
    ⟨i, e, rfl, rfl, rfl, hfault⟩ |
    ⟨id, items, hslug, hitems, rfl,
      ⟨i, e, rfl, hi, rfl⟩ | ⟨i, j, e, rfl, hj, rfl⟩ | ⟨i, j, rfl, hi, hj, rfl⟩⟩
  · obtain ⟨rfl, rfl, rfl⟩ := hrest.of_exit
    exact .inr ⟨[], i, _, _, rfl, rfl, rfl, horphan _ _ hfault⟩
  · obtain ⟨rfl, rfl, rfl⟩ := hrest.of_exit
    refine .inr ⟨[], i, _, _, rfl, rfl, rfl, ?_⟩
    rw [hi]
    exact .both rfl rfl (@hadds id items true hslug hitems) .inserted
  · obtain ⟨rfl, rfl, rfl⟩ := hrest.of_exit
    exact .inr ⟨[i], j, _, _, rfl, rfl, rfl,
      .both rfl rfl (@hadds id items true hslug hitems) (.unread hj)⟩
  · simp only [Program.onOk] at hrest
    cases hpublished : item.published with
    | true =>
        simp only [hpublished, Bool.not_true, Bool.false_eq_true,
          ↓reduceIte] at hrest
        obtain ⟨rfl, rfl, rfl⟩ := hrest.of_exit
        exact .inl ⟨⟨index, item, id, definitionId, true⟩, _, rfl, rfl,
          hpublished.symm, hadds hslug hitems, rfl, rfl,
          by simp [statements, hpublished]⟩
    | false =>
        simp only [hpublished, Bool.not_false, ↓reduceIte] at hrest
        have hstatement : (statements item)[3 + [i, j].length]? =
            some .deactivate := by
          simp [statements, hpublished]
        have hinactive := Table.insert?_modify hitems
          (fun row => { row with isActive := false }) fun _ => rfl
        obtain ⟨k, rfl, ⟨-, rfl, rfl⟩ | ⟨e, rfl, ⟨hk, rfl⟩ | ⟨hk, rfl⟩⟩⟩ :=
          update_cases (f := fun db => db.deactivateItem id) rfl hrest
        · exact .inl ⟨⟨index, item, id, definitionId, false⟩, _, rfl, rfl,
            hpublished.symm, hadds hslug hinactive, rfl, rfl,
            by simp [statements, hpublished]⟩
        · refine .inr ⟨[i, j], k, _, _, rfl, hstatement, rfl, ?_⟩
          rw [hk]
          exact .both rfl rfl (hadds hslug hinactive) (.inactive hpublished)
        · refine .inr ⟨[i, j], k, _, _, rfl, hstatement, rfl, ?_⟩
          rw [hk]
          exact .both rfl rfl (@hadds id items true hslug hitems)
            (.active hpublished)

/-- All ways in which adding an item ends. -/
theorem addItem_cases {x : Exit ApiError Unit}
    (h : Consumes Input.Drawn (addItem collation createdBy index item)
      inputs w x w') :
    Attempted collation createdBy index item 0 inputs w x w' := by
  obtain ⟨before, after, y, u, rfl, hdefine, hrest⟩ := h.of_bind
  rcases define_cases hdefine with ⟨i, e, rfl, rfl, rfl, hfault⟩ |
    ⟨id, definitions, hcreator, hname, hinsert, rfl, ⟨i, e, rfl, hi, rfl⟩ |
      ⟨i, j, e, rfl, hj, rfl⟩ | ⟨i, j, rfl, -, -, rfl⟩⟩
  · obtain ⟨rfl, rfl, rfl⟩ := hrest.of_exit
    exact .inr ⟨[], i, _, e, rfl, rfl, rfl, .nothing hfault⟩
  · obtain ⟨rfl, rfl, rfl⟩ := hrest.of_exit
    exact .inr ⟨[], i, _, e, rfl, rfl, rfl,
      .orphan hname hinsert ⟨rfl, rfl⟩ (.inl hi)⟩
  · obtain ⟨rfl, rfl, rfl⟩ := hrest.of_exit
    exact .inr ⟨[i], j, _, e, rfl, rfl, rfl,
      .orphan hname hinsert ⟨rfl, rfl⟩ (.inl hj)⟩
  have hpublished := Table.insert?_modify hinsert
    (fun row => { row with isPublished := true }) fun _ => rfl
  have horphan : ∀ (k : Input) e, k.fault ≠ .none →
      ∀ definition definitions',
        w.db.definitions.insert? definition = some definitions' →
      definition.name = (newDefinition item).name ∧ definition.version = 1 →
      Attempted collation createdBy index item 0 ([i, j] ++ [k]) w (.error e)
        { w with db := { w.db with definitions := definitions' } } :=
    fun k e hk _ _ hinsert hdefinition =>
      .inr ⟨[i, j], k, .setPublished, e, rfl, rfl, rfl,
        .orphan hname hinsert hdefinition (.inl hk)⟩
  obtain ⟨before, after, y, u, rfl, hpublish, hplace⟩ := hrest.of_bind
  obtain ⟨k, rfl, ⟨-, rfl, rfl⟩ | ⟨e, rfl, ⟨hk, rfl⟩ | ⟨hk, rfl⟩⟩⟩ :=
    update_cases (f := fun db => db.setPublished id true) rfl hpublish
  · rcases place_cases hcreator hname hpublished hplace with
      ⟨entry, db, hitem, hindex, hactive, hadds, hdb, hx, hlength⟩ |
      ⟨before, l, statement, e, rfl, hstatement, hx, hbroken⟩
    · refine .inl ⟨entry, db, hitem, hindex, hactive, hadds, hdb, hx, ?_⟩
      rw [← hlength]
      simp
      omega
    · refine .inr ⟨i :: j :: k :: before, l, statement, e, rfl, ?_, hx, hbroken⟩
      rw [← hstatement]
      congr 1
      simp
      omega
  · obtain ⟨rfl, rfl, rfl⟩ := hplace.of_exit
    exact horphan k e (by simp [hk]) _ _ hpublished ⟨rfl, rfl⟩
  · obtain ⟨rfl, rfl, rfl⟩ := hplace.of_exit
    exact horphan k e (by simp [hk]) _ _ hinsert ⟨rfl, rfl⟩

end CatalogSeed

end Servcat
