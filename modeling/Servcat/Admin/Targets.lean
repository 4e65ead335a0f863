/-
Target times.  An item has one or has none, as long as nobody stores half of one
through the JSON API.
-/
import Servcat.Admin.Publication
import Servcat.Atomic.Inputs
import Servcat.Web.CatalogAdmin

namespace Servcat

open Atomic Keyed

/-- Both or neither, and no time below zero. -/
def WholeTarget (value : Option Int32) (unit : Option TargetUnit) : Prop :=
  (∃ v u, value = some v ∧ unit = some u ∧ 0 ≤ v.toInt) ∨
    value = none ∧ unit = none

/-- The patch has no time below zero, and both or neither where the
row has none. -/
def WholePatch (patch : UpdateServiceCatalogItem)
    (row : ServiceCatalogItem) : Prop :=
  (∀ value, patch.targetValue = some value → 0 ≤ value.toInt) ∧
    (row.targetValue = none →
      (patch.targetValue = none ↔ patch.targetUnit = none))

/-- Every item has a target time or has none. -/
def Db.TargetsSet (db : Db) : Prop :=
  ∀ id item, db.items.find? id = some item → Web.TargetSet item

/-- The edit stores a target time or none. -/
def Edit.StoresWhole (db : Db) : Edit → Prop
  | .addItem _ new _ => WholeTarget new.targetValue new.targetUnit
  | .updateItem id patch =>
      ∀ row, db.items.find? id = some row → WholePatch patch row
  | _ => True

theorem WholeTarget.wholePatch {patch : UpdateServiceCatalogItem}
    (h : WholeTarget patch.targetValue patch.targetUnit)
    (row : ServiceCatalogItem) : WholePatch patch row := by
  rcases h with ⟨v, u, hv, hu, hnonneg⟩ | ⟨hv, hu⟩
  · exact ⟨fun value hvalue => Option.some.inj (hv.symm.trans hvalue) ▸ hnonneg,
      fun _ => by simp [hv, hu]⟩
  · exact ⟨fun value hvalue => by simp [hv] at hvalue,
      fun _ => by simp [hv, hu]⟩

theorem patched_targetSet_iff {patch : UpdateServiceCatalogItem}
    {row : ServiceCatalogItem} (hrow : Web.TargetSet row) :
    Web.TargetSet (Db.patched patch row) ↔ WholePatch patch row := by
  have hvalue : (Db.patched patch row).targetValue =
      (patch.targetValue <|> row.targetValue) := rfl
  have hunit : (Db.patched patch row).targetUnit =
      (patch.targetUnit <|> row.targetUnit) := rfl
  rw [Web.TargetSet, hvalue, hunit, WholePatch]
  rcases hrow with ⟨v, u, hv, hu, hnonneg⟩ | ⟨hv, hu⟩
  · rw [hv, hu]
    cases patch.targetValue <;> cases patch.targetUnit <;> simp [hnonneg]
  · rw [hv, hu]
    cases patch.targetValue <;> cases patch.targetUnit <;> simp

theorem Edit.targetsSet_iff {collation : String → String → Bool} {db db' : Db}
    {edit : Edit} (h : edit.apply collation db = some db')
    (hdb : db.TargetsSet) : db'.TargetsSet ↔ edit.StoresWhole db := by
  constructor
  · intro hdb'
    cases edit with
    | addItem newId new createdBy =>
        refine hdb' newId (Db.newItem newId new) ?_
        rw [find?_item h]
        exact if_pos rfl
    | updateItem changedId patch =>
        intro row hrow
        refine (patched_targetSet_iff (hdb changedId row hrow)).mp
          (hdb' changedId _ ?_)
        rw [find?_item h, hrow]
        exact if_pos rfl
    | define | setPublished | deactivateItem => trivial
  · intro hwhole id item hitem
    rw [find?_item h] at hitem
    cases edit with
    | addItem newId new createdBy =>
        simp only [onItem] at hitem
        split at hitem
        · cases hitem
          exact hwhole
        · exact hdb id item hitem
    | updateItem changedId patch =>
        simp only [onItem] at hitem
        split at hitem
        · rename_i hid
          obtain ⟨row, hrow, rfl⟩ := Option.map_eq_some_iff.mp hitem
          exact (patched_targetSet_iff (hdb id row hrow)).mpr
            (hwhole row (hid ▸ hrow))
        · exact hdb id item hitem
    | deactivateItem changedId =>
        simp only [onItem] at hitem
        split at hitem
        · obtain ⟨row, hrow, rfl⟩ := Option.map_eq_some_iff.mp hitem
          exact hdb id row hrow
        · exact hdb id item hitem
    | define | setPublished => exact hdb id item hitem

namespace Web

theorem parseTarget_whole {value unit : String}
    {target : Option Int32 × Option TargetUnit}
    (h : parseTarget value unit = .ok target) :
    WholeTarget target.1 target.2 := by
  unfold parseTarget at h
  simp only at h
  split at h
  · cases h
    exact .inr ⟨rfl, rfl⟩
  split at h
  · cases h
  split at h
  · cases h
  split at h
  · cases h
  rename_i hnonneg
  split at h
  · cases h
  · cases h
    exact .inl ⟨_, _, rfl, rfl, not_lt.mp hnonneg⟩

end Web

/-- What the JSON API is given is whole. -/
def storesWhole (w : World) : AdminRequest → Prop
  | .createItem new => WholeTarget new.targetValue new.targetUnit
  | .updateItem id patch =>
      ∀ row, w.db.items.find? id = some row → WholePatch patch row
  | _ => True

theorem AdminRequest.Edits.storesWhole {deps : Deps} {reader : JsonReader}
    {user : User} {req : AdminRequest} {edit : Edit} {w w' : World}
    (h : req.Edits deps reader user edit w w')
    (hguard : storesWhole w req) : edit.StoresWhole w.db := by
  obtain ⟨uuid, hasked⟩ := h.asked
  cases req with
  | createItem new | updateItem id patch =>
      cases hasked
      exact hguard
  | toggleItem id isActive =>
      cases hasked
      exact fun row _ => WholeTarget.wholePatch (.inr ⟨rfl, rfl⟩) row
  | submitDefinition form =>
      obtain ⟨new, -, rfl⟩ := Option.map_eq_some_iff.mp hasked
      trivial
  | _ =>
      cases hasked
      trivial

section Keeps

variable {valid : Input → World → Prop} {w : World}
  {collation : String → String → Bool}

theorem Repositories.Catalog.create_targets {new : NewServiceCatalogItem}
    {createdBy : Uuid} (hw : w.db.TargetsSet)
    (hnew : WholeTarget new.targetValue new.targetUnit) :
    wp valid (create collation new createdBy) (fun _ w => w.db.TargetsSet) w :=
  create_keeps hw fun id _ hinsert =>
    (@Edit.targetsSet_iff _ _ _ (.addItem id new createdBy) hinsert hw).mpr hnew

theorem Repositories.Catalog.update_targets {id : Uuid}
    {patch : UpdateServiceCatalogItem} (hw : w.db.TargetsSet)
    (hpatch : ∀ row, WholePatch patch row) :
    wp valid (update id patch) (fun _ w => w.db.TargetsSet) w :=
  update_keeps hw <|
    (@Edit.targetsSet_iff (fun _ _ => true) _ _ (.updateItem id patch)
      rfl hw).mpr fun row _ => hpatch row

namespace Web.Catalog

variable {seedItems : List SeedItem} {user : User} {form : CatalogItemForm}

theorem newFromForm_whole {new : NewServiceCatalogItem}
    (h : newFromForm form = .ok new) :
    WholeTarget new.targetValue new.targetUnit := by
  unfold newFromForm at h
  split at h
  · cases h
  · obtain ⟨target, htarget, heq⟩ := Engine.exists_of_bind h
    cases heq
    exact parseTarget_whole htarget

theorem patchFromForm_whole {patch : UpdateServiceCatalogItem}
    (h : patchFromForm form = .ok patch)
    (row : ServiceCatalogItem) : WholePatch patch row := by
  obtain ⟨target, htarget, heq⟩ := Engine.exists_of_bind h
  cases heq
  exact WholeTarget.wholePatch (parseTarget_whole htarget) row

theorem listWithError_keeps {error : String} {Q : World → Prop} (hw : Q w) :
    wp valid (listWithError collation seedItems user error) (fun _ => Q) w := by
  refine wp_then (Web.Layout.load_keeps hw) fun layout w' hw' => ?_
  refine wp_then (wp_inner (select_keeps hw')) fun items w' hw' => ?_
  exact wp_then (wp_inner (select_keeps hw')) fun definitions w' hw' => hw'

theorem editFormError_keeps {id : Uuid} {error : String} {Q : World → Prop}
    (hw : Q w) :
    wp valid (editFormError user id form error) (fun _ => Q) w := by
  refine wp_then (Web.Layout.load_keeps hw) fun layout w' hw' => ?_
  refine wp_then (wp_inner (select_keeps hw')) fun found w' hw' => ?_
  exact wp_then (by cases found <;> exact hw') fun item w' hw' => hw'

theorem create_targets (hw : w.db.TargetsSet) :
    wp valid (create collation seedItems user form)
      (fun _ w => w.db.TargetsSet) w := by
  refine requireAdmin_wp hw fun _ => ?_
  cases hform : newFromForm form with
  | error err => exact listWithError_keeps hw
  | ok new =>
      exact wp_then (wp_inner
        (Repositories.Catalog.create_targets hw (newFromForm_whole hform)))
        fun row w' hw' => hw'

theorem edit_targets {id : Uuid} (hw : w.db.TargetsSet) :
    wp valid (edit user id form) (fun _ w => w.db.TargetsSet) w := by
  refine requireAdmin_wp hw fun _ => ?_
  cases hform : patchFromForm form with
  | error err => exact editFormError_keeps hw
  | ok patch =>
      refine wp_then (wp_inner
        (Repositories.Catalog.update_targets hw (patchFromForm_whole hform)))
          fun row w' hw' => ?_
      exact wp_then (by cases row <;> exact hw') fun row w' hw' => hw'

end Web.Catalog

namespace CatalogSeed

variable {createdBy : Uuid}

theorem addItem_targets {index : Nat} {item : SeedItem}
    (hitem : 0 ≤ item.targetValue.toInt) (hw : w.db.TargetsSet) :
    wp valid (addItem collation createdBy index item)
      (fun _ w => w.db.TargetsSet) w := by
  have hedit (edit : Edit) {db db' : Db} (hdb : db.TargetsSet)
      (hwhole : edit.StoresWhole db)
      (happly : edit.apply collation db = some db') : db'.TargetsSet :=
    (Edit.targetsSet_iff happly hdb).mpr hwhole
  refine wp_then (wp_inner (Repositories.WorkflowDefinitions.create_keeps hw
    fun id db hinsert => ?_)) fun workflow w' hw' => ?_
  · exact hedit (.define id _ createdBy) hw trivial hinsert
  refine wp_then (wp_inner
    (Repositories.WorkflowDefinitions.setPublished_keeps hw' ?_))
    fun _ w' hw' => ?_
  · exact hedit (.setPublished _ true) hw' trivial rfl
  refine wp_then (wp_inner (Repositories.Catalog.create_targets hw'
    (.inl ⟨_, _, rfl, rfl, hitem⟩))) fun created w' hw' => ?_
  split
  · refine wp_inner (Repositories.Catalog.deactivate_keeps hw' ?_)
    exact hedit (.deactivateItem _) hw' trivial rfl
  · exact hw'

theorem runLoop_targets {slugs : List String} {summary : SeedSummary}
    {index : Nat} {items : List SeedItem}
    (hitems : ∀ item ∈ items, 0 ≤ item.targetValue.toInt)
    (hw : w.db.TargetsSet) :
    wp valid (runLoop collation createdBy slugs summary index items)
      (fun _ w => w.db.TargetsSet) w := by
  induction items generalizing summary index w with
  | nil => exact hw
  | cons item rest ih =>
      obtain ⟨hitem, hrest⟩ := List.forall_mem_cons.mp hitems
      unfold runLoop
      split
      · exact ih hrest hw
      · exact wp_then (addItem_targets hitem hw) fun _ w' hw' => ih hrest hw'

/-- No time of the file is below zero. -/
theorem run_targets (starter : StarterCatalog) (hw : w.db.TargetsSet) :
    wp valid (run collation starter.items createdBy)
      (fun _ w => w.db.TargetsSet) w := by
  have hfile : ∀ target ∈ starterTargets, 0 ≤ target.1.toInt := by decide
  have hitems : ∀ item ∈ starter.items, 0 ≤ item.targetValue.toInt := by
    intro item hitem
    refine hfile (item.targetValue, item.targetUnit) ?_
    rw [← starter.targets]
    exact List.mem_map_of_mem hitem
  exact wp_then (wp_inner (select_keeps hw)) fun existing w' hw' =>
    runLoop_targets hitems hw'

end CatalogSeed

theorem Web.Catalog.loadStarter_targets (starter : StarterCatalog) {user : User}
    (hw : w.db.TargetsSet) :
    wp valid (loadStarter collation starter.items user)
      (fun _ w => w.db.TargetsSet) w :=
  requireAdmin_wp hw fun _ =>
    wp_then (CatalogSeed.run_targets starter hw) fun _ _ hw' => hw'

theorem autoSeedCatalog_targets (starter : StarterCatalog)
    (hw : w.db.TargetsSet) :
    wp valid (autoSeedCatalog collation starter.items)
      (fun _ w => w.db.TargetsSet) w := by
  refine wp_then (wp_inner (select_keeps hw)) fun items w' hw' => ?_
  split
  · exact hw'
  refine wp_then (wp_inner (select_keeps hw')) fun users w' hw' => ?_
  split
  · exact hw'
  · exact wp_then (CatalogSeed.run_targets starter hw') fun _ _ hw' => hw'

end Keeps

/-- The catalog over time: requests through the JSON API, among those `guard`
lets run, the forms, the seed, and whatever else leaves the items alone.  Any
statement may fail. -/
inductive CatalogStep (deps : Deps) (reader : JsonReader)
    (starter : StarterCatalog) (guard : World → AdminRequest → Prop) :
    World → World → Prop
  | request {user : User} {req : AdminRequest} {w w' : World}
      {x : Exit ApiError AdminReply} (hguard : guard w req)
      (hrun : Runs Input.Arbitrary (req.serve deps reader user) w x w') :
      CatalogStep deps reader starter guard w w'
  | createForm {user : User} {form : Web.CatalogItemForm} {w w' : World}
      {x : Exit ApiError Web.CatalogAdminResponse}
      (hrun : Runs Input.Arbitrary
        (Web.Catalog.create deps.collation starter.items user form)
        w x w') : CatalogStep deps reader starter guard w w'
  | editForm {user : User} {id : Uuid} {form : Web.CatalogItemForm}
      {w w' : World} {x : Exit ApiError Web.CatalogEditResponse}
      (hrun : Runs Input.Arbitrary (Web.Catalog.edit user id form) w x w') :
      CatalogStep deps reader starter guard w w'
  | loadStarter {user : User} {w w' : World}
      {x : Exit ApiError Web.CatalogAdminResponse}
      (hrun : Runs Input.Arbitrary
        (Web.Catalog.loadStarter deps.collation starter.items user)
        w x w') : CatalogStep deps reader starter guard w w'
  | autoSeed {w w' : World} {x : Exit ApiError Unit}
      (hrun : Runs Input.Arbitrary
      (autoSeedCatalog deps.collation starter.items) w x w') :
      CatalogStep deps reader starter guard w w'
  | aside {w w' : World} (hitems : w'.db.items = w.db.items) :
      CatalogStep deps reader starter guard w w'

section Runs

variable {deps : Deps} {reader : JsonReader} {starter : StarterCatalog}
  {w w' : World}

theorem CatalogStep.targets
    (h : CatalogStep deps reader starter storesWhole w w')
    (hw : w.db.TargetsSet) : w'.db.TargetsSet := by
  have hkept {α : Type} {p : Async ApiError α} {x : Exit ApiError α}
      (hrun : Runs Input.Arbitrary p w x w')
      (h : wp Input.Arbitrary p (fun _ w => w.db.TargetsSet) w) :
      w'.db.TargetsSet :=
    hrun.ensures h
  cases h with
  | request hguard hrun =>
      rcases AdminRequest.effect hrun with rfl | ⟨edit, hedits⟩
      · exact hw
      · obtain ⟨db, happly, rfl⟩ := hedits.applied
        exact (Edit.targetsSet_iff happly hw).mpr (hedits.storesWhole hguard)
  | createForm hrun => exact hkept hrun (Web.Catalog.create_targets hw)
  | editForm hrun => exact hkept hrun (Web.Catalog.edit_targets hw)
  | loadStarter hrun =>
      exact hkept hrun (Web.Catalog.loadStarter_targets starter hw)
  | autoSeed hrun => exact hkept hrun (autoSeedCatalog_targets starter hw)
  | aside hitems =>
      intro id item hitem
      rw [hitems] at hitem
      exact hw id item hitem

/-- While the JSON API is given whole target times, every item has one
or has none. -/
theorem targets_never_half_set {w₀ : World} (h₀ : w₀.db.items = .empty)
    (hrun : Relation.ReflTransGen
      (CatalogStep deps reader starter storesWhole) w₀ w) :
    ∀ item ∈ w.db.items.rows, Web.TargetSet item := by
  have hall : w.db.TargetsSet := by
    induction hrun with
    | refl =>
        intro id item hitem
        rw [h₀] at hitem
        cases hitem
    | tail _ hstep ih => exact hstep.targets ih
  intro item hitem
  exact hall item.id item (Table.find?_of_mem hitem)

end Runs

namespace Sample

/-- The file, all of whose items are alike but for their target times. -/
def starter : StarterCatalog where
  items := CatalogSeed.starterTargets.map fun target =>
    { slug := "laptop"
      name := "Laptop"
      category := "Hardware"
      icon := "laptop"
      summary := "A laptop"
      description := "A laptop for work"
      included := []
      notIncluded := []
      needed := []
      keywords := []
      approvalLabel := "No approval"
      workflowPattern := .simpleTicket
      targetValue := target.1
      targetUnit := target.2
      published := true
      questions := [] }
  targets := by
    rw [List.map_map]
    exact List.map_id _

def timed (targetUnit : Option TargetUnit) : AdminRequest :=
  .createItem
    { slug := none
      name := "laptop"
      description := none
      summary := none
      details := none
      approvalLabel := none
      targetValue := some 3
      targetUnit
      category := none
      icon := none
      sortOrder := 0
      workflowDefinitionId := id 4 }

/-- The office once an item is offered, for a workflow that is still a draft. -/
def offered (targetUnit : Option TargetUnit) : Option World :=
  (drafted approvalThenTicket).bind (author (timed targetUnit) 10)

theorem offered_run {guard : World → AdminRequest → Prop}
    {targetUnit : Option TargetUnit} {w : World}
    (hw : offered targetUnit = some w)
    (hguard : ∀ w, guard w (draft approvalThenTicket) ∧
      guard w (timed targetUnit)) :
    Relation.ReflTransGen (CatalogStep deps reader starter guard) office w := by
  have hstep {req : AdminRequest} {first : Nat} {w w' : World}
      (hreq : guard w req)
      (h : author req first w = some w') :
      CatalogStep deps reader starter guard w w' := by
    obtain ⟨result, hrun, rfl⟩ := Option.map_eq_some_iff.mp h
    exact .request hreq ((runs_of_runAlone hrun).mono fun _ _ _ => trivial)
  obtain ⟨w', hdrafted, hoffered⟩ := Option.bind_eq_some_iff.mp hw
  exact .tail (.single (hstep (hguard office).1 hdrafted))
    (hstep (hguard w').2 hoffered)

end Sample

theorem targets_never_half_set_offered :
    let w := (Sample.offered (some .hours)).get (by decide)
    w.db.items.rows.map ServiceCatalogItem.targetUnit = [some .hours] ∧
    ∀ item ∈ w.db.items.rows, Web.TargetSet item := by
  intro w
  have hrun : Relation.ReflTransGen
      (CatalogStep Sample.deps Sample.reader Sample.starter storesWhole)
        Sample.office w :=
    Sample.offered_run (Option.some_get _).symm fun _ =>
      ⟨trivial, .inl ⟨3, .hours, rfl, rfl, by decide⟩⟩
  exact ⟨by decide, targets_never_half_set rfl hrun⟩

theorem half_set_target_stored :
    let w := (Sample.offered none).get (by decide)
    Sample.office.db.items = .empty ∧
    Relation.ReflTransGen (CatalogStep Sample.deps Sample.reader Sample.starter
      anyRequest) Sample.office w ∧
    ¬ ∀ item ∈ w.db.items.rows, Web.TargetSet item := by
  refine ⟨rfl, Sample.offered_run (Option.some_get _).symm
    fun _ => ⟨trivial, trivial⟩, ?_⟩
  intro hall
  rcases hall _ (List.mem_singleton_self _) with
    ⟨value, unit, -, hunit, -⟩ | ⟨hvalue, -⟩
  · cases hunit
  · cases hvalue

end Servcat
