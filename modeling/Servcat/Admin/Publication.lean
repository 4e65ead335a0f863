/-
Publishing.  A graph is stored as it was submitted and published as it is
stored; whether it resolves is up to the admin.
-/
import Servcat.Admin.Edits
import Servcat.Sample

namespace Servcat

open Atomic Keyed

namespace Edit

variable {collation : String → String → Bool} {db db' : Db} {edit : Edit}

/-- What an edit makes of the definition with this identifier. -/
def onDefinition (id : Uuid) (old : Option WorkflowDefinition) :
    Edit → Option WorkflowDefinition
  | .define newId new _ =>
      if id = newId then some (Db.newDefinition newId new) else old
  | .setPublished changedId isPublished =>
      if id = changedId then old.map fun row => { row with isPublished }
      else old
  | _ => old

/-- What an edit makes of the item with this identifier. -/
def onItem (id : Uuid) (old : Option ServiceCatalogItem) :
    Edit → Option ServiceCatalogItem
  | .addItem newId new _ =>
      if id = newId then some (Db.newItem newId new) else old
  | .updateItem changedId patch =>
      if id = changedId then old.map (Db.patched patch) else old
  | .deactivateItem changedId =>
      if id = changedId then old.map fun row => { row with isActive := false }
      else old
  | _ => old

theorem define_inserts {id : Uuid} {new : NewWorkflowDefinition}
    {createdBy : Uuid}
    (h : db.insertDefinition collation id new createdBy = some db') :
    ∃ definitions,
      db.definitions.insert? (Db.newDefinition id new) = some definitions ∧
      db' = { db with definitions } := by
  unfold Db.insertDefinition at h
  split at h
  · obtain ⟨definitions, hinsert, rfl⟩ := Option.map_eq_some_iff.mp h
    exact ⟨definitions, hinsert, rfl⟩
  · cases h

theorem addItem_inserts {id : Uuid} {new : NewServiceCatalogItem}
    {createdBy : Uuid}
    (h : db.insertItem collation id new createdBy = some db') :
    ∃ items, db.items.insert? (Db.newItem id new) = some items ∧
      db' = { db with items } := by
  unfold Db.insertItem at h
  split at h
  · obtain ⟨items, hinsert, rfl⟩ := Option.map_eq_some_iff.mp h
    exact ⟨items, hinsert, rfl⟩
  · cases h

theorem find?_definition (h : edit.apply collation db = some db') (id : Uuid) :
    db'.definitions.find? id = edit.onDefinition id
      (db.definitions.find? id) := by
  cases edit with
  | define newId new createdBy =>
      obtain ⟨definitions, hinsert, rfl⟩ := define_inserts h
      exact Table.find?_insert hinsert id
  | setPublished changedId isPublished =>
      cases h
      exact Db.find?_setPublished ..
  | addItem newId new createdBy =>
      obtain ⟨items, hinsert, rfl⟩ := addItem_inserts h
      rfl
  | updateItem | deactivateItem =>
      cases h
      rfl

theorem find?_item (h : edit.apply collation db = some db') (id : Uuid) :
    db'.items.find? id = edit.onItem id (db.items.find? id) := by
  cases edit with
  | define newId new createdBy =>
      obtain ⟨definitions, hinsert, rfl⟩ := define_inserts h
      rfl
  | setPublished changedId isPublished =>
      cases h
      rfl
  | addItem newId new createdBy =>
      obtain ⟨items, hinsert, rfl⟩ := addItem_inserts h
      exact Table.find?_insert hinsert id
  | updateItem changedId patch =>
      cases h
      exact Db.find?_updateItem ..
  | deactivateItem changedId =>
      cases h
      exact Db.find?_deactivateItem ..

/-- An edit leaves a definition as it is but for its publication. -/
theorem find?_definition_of_some (h : edit.apply collation db = some db')
    {id : Uuid} {d : WorkflowDefinition}
    (hd : db.definitions.find? id = some d) :
    ∃ isPublished, db'.definitions.find? id = some { d with isPublished } := by
  rw [find?_definition h, hd]
  cases edit with
  | define newId new createdBy =>
      obtain ⟨definitions, hinsert, rfl⟩ := define_inserts h
      have hne : id ≠ newId := by
        rintro rfl
        have hfresh := (Table.insert?_eq_some_iff.mp hinsert).1
        exact absurd (hfresh.symm.trans hd) (by simp)
      exact ⟨d.isPublished, if_neg hne⟩
  | setPublished changedId isPublished =>
      by_cases hid : id = changedId
      · exact ⟨isPublished, if_pos hid⟩
      · exact ⟨d.isPublished, if_neg hid⟩
  | addItem | updateItem | deactivateItem => exact ⟨d.isPublished, rfl⟩

/-- The tables of requests are none of an admin's. -/
theorem apply_keeps (h : edit.apply collation db = some db') :
    db'.instances = db.instances ∧ db'.approvals = db.approvals ∧
      db'.tickets = db.tickets := by
  cases edit with
  | define newId new createdBy =>
      obtain ⟨definitions, hinsert, rfl⟩ := define_inserts h
      exact ⟨rfl, rfl, rfl⟩
  | addItem newId new createdBy =>
      obtain ⟨items, hinsert, rfl⟩ := addItem_inserts h
      exact ⟨rfl, rfl, rfl⟩
  | setPublished | updateItem | deactivateItem =>
      cases h
      exact ⟨rfl, rfl, rfl⟩

end Edit

/-- What admins do is a drift for the requests of users. -/
theorem AdminRequest.Effect.drift {deps : Deps} {reader : JsonReader}
    {user : User} {req : AdminRequest} {w w' : World}
    (h : req.Effect deps reader user w w') :
    w.Drift w' := by
  rcases h with rfl | ⟨edit, -, -, db, happly, rfl⟩
  · exact
      { now := le_rfl
        definitions := fun id d hd => ⟨d.isPublished, hd⟩
        instances := rfl
        approvals := rfl
        tickets := rfl
        dispatches := rfl
        log := rfl }
  · obtain ⟨hinstances, happrovals, htickets⟩ := Edit.apply_keeps happly
    exact
      { now := le_rfl
        definitions := fun id d hd => Edit.find?_definition_of_some happly hd
        instances := hinstances
        approvals := happrovals
        tickets := htickets
        dispatches := rfl
        log := rfl }

/-- Every published graph resolves. -/
def Db.PublishedResolve (db : Db) : Prop :=
  ∀ id d, db.definitions.find? id = some d → d.isPublished = true →
    d.graph.Resolves

/-- An edit publishes only what resolves, as far as it publishes anything. -/
def Edit.PublishesResolved (db : Db) (edit : Edit) : Prop :=
  ∀ id d, edit = .setPublished id true → db.definitions.find? id = some d →
    d.graph.Resolves

/-- What has to be published for a graph that does not resolve to
be published. -/
theorem Edit.publishedResolve_iff {collation : String → String → Bool}
    {db db' : Db} {edit : Edit} (h : edit.apply collation db = some db')
    (hdb : db.PublishedResolve) :
    db'.PublishedResolve ↔ edit.PublishesResolved db := by
  constructor
  · rintro hdb' id d rfl hd
    refine hdb' id { d with isPublished := true } ?_ rfl
    rw [find?_definition h, hd]
    exact if_pos rfl
  · intro hedit id d' hd' hpublished
    rw [find?_definition h] at hd'
    cases edit with
    | define newId new createdBy =>
        simp only [onDefinition] at hd'
        split at hd'
        · cases hd'
          cases hpublished
        · exact hdb id d' hd' hpublished
    | setPublished changedId isPublished =>
        simp only [onDefinition] at hd'
        split at hd'
        · rename_i hid
          obtain ⟨d, hd, rfl⟩ := Option.map_eq_some_iff.mp hd'
          obtain rfl : isPublished = true := hpublished
          exact hedit id d (by rw [hid]) hd
        · exact hdb id d' hd' hpublished
    | addItem | updateItem | deactivateItem => exact hdb id d' hd' hpublished

/-- The definition a request publishes. -/
def AdminRequest.publishes? : AdminRequest → Option Uuid
  | .publish id | .publishPage id => some id
  | _ => none

/-- The state of definitions and catalog over time: requests of admins, among
those `guard` lets run, and whatever else leaves both tables alone. -/
inductive AdminStep (deps : Deps) (reader : JsonReader)
    (guard : World → AdminRequest → Prop) : World → World → Prop
  | request {user : User} {req : AdminRequest} {w w' : World}
      {x : Exit ApiError AdminReply} (hguard : guard w req)
      (hrun : Runs Input.Admitted (req.serve deps reader user) w x w') :
      AdminStep deps reader guard w w'
  | aside {w w' : World} (hdefinitions : w'.db.definitions = w.db.definitions)
      (hitems : w'.db.items = w.db.items) : AdminStep deps reader guard w w'

/-- What is published resolves. -/
def publishesResolved (w : World) (req : AdminRequest) : Prop :=
  ∀ id d, req.publishes? = some id → w.db.definitions.find? id = some d →
    d.graph.Resolves

theorem AdminRequest.Edits.publishesResolved {deps : Deps} {reader : JsonReader}
    {user : User} {req : AdminRequest} {edit : Edit} {w w' : World}
    (h : req.Edits deps reader user edit w w')
    (hguard : publishesResolved w req) :
    edit.PublishesResolved w.db := by
  rintro id d rfl hd
  obtain ⟨uuid, hasked⟩ := h.asked
  refine hguard id d ?_ hd
  cases req with
  | publish | publishPage =>
      cases hasked
      rfl
  | submitDefinition form => simp [edit?] at hasked
  | _ => cases hasked

/-- Nothing has been authored yet. -/
structure World.Unauthored (w : World) : Prop where
  definitions : w.db.definitions = .empty
  items : w.db.items = .empty

/-- While what is published resolves, every published graph does. -/
theorem published_graphs_resolve {deps : Deps} {reader : JsonReader}
    {w₀ w : World} (h₀ : w₀.Unauthored)
    (hrun : Relation.ReflTransGen
      (AdminStep deps reader publishesResolved) w₀ w) :
    ∀ d ∈ w.db.definitions.rows, d.isPublished = true → d.graph.Resolves := by
  have hall : w.db.PublishedResolve := by
    induction hrun with
    | refl =>
        intro id d hd
        rw [h₀.definitions] at hd
        cases hd
    | tail _ hstep ih =>
        cases hstep with
        | request hguard hrun =>
            rcases AdminRequest.effect hrun with rfl | ⟨edit, hedits⟩
            · exact ih
            · obtain ⟨db, happly, rfl⟩ := hedits.applied
              exact (Edit.publishedResolve_iff happly ih).mpr
                (hedits.publishesResolved hguard)
        | aside hdefinitions =>
            intro id d hd
            rw [hdefinitions] at hd
            exact ih id d hd
  intro d hd hpublished
  exact hall d.id d (Table.find?_of_mem hd) hpublished

namespace Sample

def admin : User := user 7 "eve" .admin

/-- Users, and nothing authored. -/
def office : World where
  db :=
    { users := ⟨[requester, approver, admin], by decide⟩
      items := .empty
      definitions := .empty
      instances := .empty
      approvals := .empty
      tickets := .empty
      orgSettings :=
        { appName := "servcat"
          logoUrl := none
          allowLocalSignup := false
          timezone := "UTC" } }
  now := 0
  dispatches := []
  log := []

/-- A deserialiser that accepts nothing. -/
def reader : JsonReader where
  graph := fun _ => .error "expected value at line 1 column 1"
  fieldMapping := fun _ => .error "expected value at line 1 column 1"

/-- A request of the admin, alone; the row it inserts gets the
identifier `first`. -/
def author (req : AdminRequest) (first : Nat) (w : World) : Option World :=
  (runAlone Input.Admitted (req.serve deps reader admin) (inputs 0 first)
    w).map (·.2)

theorem step_of_author {guard : World → AdminRequest → Prop}
    {req : AdminRequest} {first : Nat} {w w' : World}
    (h : author req first w = some w') (hguard : guard w req) :
    AdminStep deps reader guard w w' := by
  obtain ⟨result, hrun, rfl⟩ := Option.map_eq_some_iff.mp h
  exact .request hguard (runs_of_runAlone hrun)

def draft (graph : WorkflowGraph) : AdminRequest :=
  .createDefinition
    { name := "laptop request"
      graph
      fieldMapping := some [("summary", "laptop")]
      targetSystem := some .webhook }

/-- The office once the graph is stored, and once it is published. -/
def drafted (graph : WorkflowGraph) : Option World :=
  author (draft graph) 4 office

def published (graph : WorkflowGraph) : Option World :=
  (drafted graph).bind (author (.publish (id 4)) 10)

theorem published_run {guard : World → AdminRequest → Prop}
    {graph : WorkflowGraph} {w : World} (hw : published graph = some w)
    (hdraft : guard office (draft graph))
    (hpublish : ∀ w, drafted graph = some w → guard w (.publish (id 4))) :
    Relation.ReflTransGen (AdminStep deps reader guard) office w := by
  obtain ⟨w', hdrafted, hpublished⟩ := Option.bind_eq_some_iff.mp hw
  exact .tail (.single (step_of_author hdrafted hdraft))
    (step_of_author hpublished (hpublish w' hdrafted))

end Sample

theorem published_graphs_resolve_approval :
    let w := (Sample.published Sample.approvalThenTicket).get (by decide)
    w.db.definitions.rows.map WorkflowDefinition.isPublished = [true] ∧
    ∀ d ∈ w.db.definitions.rows, d.isPublished = true → d.graph.Resolves := by
  intro w
  have hrun : Relation.ReflTransGen
      (AdminStep Sample.deps Sample.reader publishesResolved)
        Sample.office w := by
    refine Sample.published_run (Option.some_get _).symm ?_ ?_
    · rintro id d ⟨⟩
    · rintro w hw id d ⟨⟩ hd
      obtain rfl := Option.some.inj hw
      obtain rfl : Db.newDefinition (Sample.id 4) _ = d := Option.some.inj hd
      decide
  exact ⟨by decide, published_graphs_resolve ⟨rfl, rfl⟩ hrun⟩

/-- A question that leads nowhere. -/
def Sample.nowhere : WorkflowGraph where
  entryStepId := "ask"
  steps := [Sample.question "ask" "reason" "elsewhere"]

/-- Any request may be made. -/
def anyRequest (_ : World) (_ : AdminRequest) : Prop :=
  True

theorem dangling_graph_published :
    let w := (Sample.published Sample.nowhere).get (by decide)
    Sample.office.Unauthored ∧
    Relation.ReflTransGen (AdminStep Sample.deps Sample.reader anyRequest)
      Sample.office w ∧
    ¬ ∀ d ∈ w.db.definitions.rows, d.isPublished = true → d.graph.Resolves := by
  refine ⟨⟨rfl, rfl⟩,
    Sample.published_run (Option.some_get _).symm trivial
      (fun _ _ => trivial), ?_⟩
  intro hall
  exact absurd (hall _ (List.mem_singleton_self _) rfl) (by decide)

end Servcat
