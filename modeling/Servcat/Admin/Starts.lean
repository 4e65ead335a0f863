/-
Starting requests on what admins authored.  The history of edits decides what is
published; a start asks whether its item is active, and nothing else.
-/
import Servcat.Admin.Publication
import Servcat.Serial.Views

namespace Servcat

open Atomic Keyed

section Operations

variable {deps : Deps} {definition : WorkflowDefinition}
  {instanceId requesterUserId : Uuid} {answers : Answers} {c c' : Core}

/-- The requests of users are asides for those of admins. -/
theorem Operation.Completes.adminStep {reader : JsonReader}
    {guard : World → AdminRequest → Prop} {op : Operation} {w w' : World}
    {x : Exit ApiError (Option WorkflowInstance)}
    (h : op.Completes deps w x w') : AdminStep deps reader guard w w' := by
  obtain ⟨hdefinitions, hitems⟩ := h.performed.sameCatalog
  exact .aside hdefinitions hitems

/-- A start on an inactive item does nothing. -/
theorem Request.start_inactive_wp {catalogItemId : Uuid} {requester : User}
    {rounds : Nat} {w : World} {item : ServiceCatalogItem}
    (hitem : w.db.items.find? catalogItemId = some item)
    (hinactive : item.isActive = false) :
    wp Input.Admitted
      (Request.serve deps (.start catalogItemId requester, rounds))
      (fun _ w' => w' = w) w := by
  refine wp_some ?_
  unfold Orchestrator.startInstance
  refine wp_read (wp_okOr (fun _ => rfl) fun item' hitem' => ?_)
  obtain rfl := Option.some.inj (hitem.symm.trans hitem')
  rw [if_pos hinactive]
  exact rfl

/-- A start that inserts a row found its item active and its
definition stored. -/
theorem Operation.Completes.start_inserts {catalogItemId : Uuid}
    {requester : User} {w w' : World}
    {x : Exit ApiError (Option WorkflowInstance)}
    (h : (Operation.start catalogItemId requester).Completes deps w x w')
    {row : WorkflowInstance} (hrow : row ∈ w'.db.instances.rows)
    (hnew : w.db.instances.find? row.id = none) :
    ∃ item definition, w.db.items.find? catalogItemId = some item ∧
      item.isActive = true ∧
      w.db.definitions.find? item.workflowDefinitionId = some definition := by
  have hstored : w'.db.instances.find? row.id = some row :=
    Table.find?_of_mem hrow
  have hmoved : w'.db ≠ w.db := by
    intro hsame
    rw [hsame, hnew] at hstored
    cases hstored
  have hperformed := h.performed
  generalize hc : w.core = c at hperformed
  generalize hc' : w'.core = c' at hperformed
  cases hperformed with
  | declined =>
      have hsame : w'.db = w.db := congrArg Core.db (hc'.trans hc.symm)
      exact absurd hsame hmoved
  | @started _ _ item definition _ _ _ _ _ _ _ hitem hdefinition =>
      subst hc
      refine ⟨item, definition, hitem, ?_, hdefinition⟩
      by_contra hinactive
      obtain ⟨-, rounds, hrun⟩ := h
      have hsame := hrun.ensures
        (Request.start_inactive_wp hitem
        (Bool.eq_false_of_not_eq_true hinactive))
      exact hmoved (congrArg World.db hsame)

end Operations

/-- Whether a definition is published after these edits, newest first; `none`
until it is defined. -/
def lastPublished (id : Uuid) : List Edit → Option Bool
  | [] => none
  | .define newId _ _ :: earlier =>
      if id = newId then some false else lastPublished id earlier
  | .setPublished changedId isPublished :: earlier =>
      if id = changedId then (lastPublished id earlier).map fun _ => isPublished
      else lastPublished id earlier
  | _ :: earlier => lastPublished id earlier

/-- The definition a catalog item was created for. -/
def offered (itemId : Uuid) : List Edit → Option Uuid
  | [] => none
  | .addItem newId new _ :: earlier =>
      if itemId = newId then some new.workflowDefinitionId
      else offered itemId earlier
  | _ :: earlier => offered itemId earlier

/-- The edits that led from one state to another, newest first. -/
inductive Authored (deps : Deps) (reader : JsonReader) (w₀ : World) :
    List Edit → World → Prop
  | start : Authored deps reader w₀ [] w₀
  | edited {user : User} {req : AdminRequest} {edit : Edit} {edits : List Edit}
      {w w' : World} {x : Exit ApiError AdminReply}
      (hedits : Authored deps reader w₀ edits w)
      (hrun : Runs Input.Admitted (req.serve deps reader user) w x w')
      (hedit : req.Edits deps reader user edit w w') :
      Authored deps reader w₀ (edit :: edits) w'
  | aside {edits : List Edit} {w w' : World}
      (hedits : Authored deps reader w₀ edits w)
      (hdefinitions : w'.db.definitions = w.db.definitions)
      (hitems : w'.db.items = w.db.items) : Authored deps reader w₀ edits w'

section History

variable {deps : Deps} {reader : JsonReader} {w₀ w : World} {edits : List Edit}

/-- Every run has a history. -/
theorem exists_authored {guard : World → AdminRequest → Prop}
    (h : Relation.ReflTransGen (AdminStep deps reader guard) w₀ w) :
    ∃ edits, Authored deps reader w₀ edits w := by
  induction h with
  | refl => exact ⟨[], .start⟩
  | tail _ hstep ih =>
      obtain ⟨edits, hedits⟩ := ih
      cases hstep with
      | request _ hrun =>
          rcases AdminRequest.effect hrun with rfl | ⟨edit, hedit⟩
          · exact ⟨edits, hedits⟩
          · exact ⟨edit :: edits, hedits.edited hrun hedit⟩
      | aside hdefinitions hitems =>
          exact ⟨edits, hedits.aside hdefinitions hitems⟩

theorem lastPublished_cons (id : Uuid) (edit : Edit) (edits : List Edit)
    (old : Option WorkflowDefinition)
    (hold : old.map WorkflowDefinition.isPublished = lastPublished id edits) :
    (edit.onDefinition id old).map WorkflowDefinition.isPublished =
      lastPublished id (edit :: edits) := by
  cases edit with
  | define newId new createdBy =>
      simp only [Edit.onDefinition, lastPublished]
      split
      · rfl
      · exact hold
  | setPublished changedId isPublished =>
      simp only [Edit.onDefinition, lastPublished]
      split
      · rw [← hold, Option.map_map, Option.map_map]
        rfl
      · exact hold
  | addItem | updateItem | deactivateItem => exact hold

/-- The stored flag of a definition is what the history says. -/
theorem Authored.isPublished (h₀ : w₀.Unauthored)
    (h : Authored deps reader w₀ edits w) (id : Uuid) :
    (w.db.definitions.find? id).map WorkflowDefinition.isPublished =
      lastPublished id edits := by
  induction h with
  | start =>
      rw [h₀.definitions]
      rfl
  | edited _ _ hedit ih =>
      obtain ⟨db, happly, rfl⟩ := hedit.applied
      rw [Edit.find?_definition happly]
      exact lastPublished_cons id _ _ _ ih
  | aside _ hdefinitions _ ih =>
      rw [hdefinitions]
      exact ih

theorem offered_cons (id : Uuid) (edit : Edit) (edits : List Edit)
    (old : Option ServiceCatalogItem)
    (hold : old.map ServiceCatalogItem.workflowDefinitionId =
      offered id edits) :
    (edit.onItem id old).map ServiceCatalogItem.workflowDefinitionId =
      offered id (edit :: edits) := by
  cases edit with
  | addItem newId new createdBy =>
      simp only [Edit.onItem, offered]
      split
      · rfl
      · exact hold
  | updateItem | deactivateItem =>
      simp only [Edit.onItem, offered]
      split
      · rw [← hold, Option.map_map]
        rfl
      · exact hold
  | define | setPublished => exact hold

/-- A catalog item stays with the definition it was created for. -/
theorem Authored.offered (h₀ : w₀.Unauthored)
    (h : Authored deps reader w₀ edits w) (id : Uuid) :
    (w.db.items.find? id).map ServiceCatalogItem.workflowDefinitionId =
      Servcat.offered id edits := by
  induction h with
  | start =>
      rw [h₀.items]
      rfl
  | edited _ _ hedit ih =>
      obtain ⟨db, happly, rfl⟩ := hedit.applied
      rw [Edit.find?_item happly]
      exact offered_cons id _ _ _ ih
  | aside _ _ hitems ih =>
      rw [hitems]
      exact ih

/-- A start that creates a request finds an active item, and its definition
published just when the last admin to say so said so. -/
theorem started_on_published_iff (h₀ : w₀.Unauthored)
    (h : Authored deps reader w₀ edits w) {catalogItemId : Uuid}
    {requester : User} {w' : World}
    {x : Exit ApiError (Option WorkflowInstance)}
    (hstart : (Operation.start catalogItemId requester).Completes deps w x w')
    {row : WorkflowInstance} (hrow : row ∈ w'.db.instances.rows)
    (hnew : w.db.instances.find? row.id = none) :
    (∃ item definition, w.db.items.find? catalogItemId = some item ∧
      item.isActive = true ∧
      w.db.definitions.find? item.workflowDefinitionId = some definition ∧
      definition.isPublished = true) ↔
    ∃ definitionId, offered catalogItemId edits = some definitionId ∧
      lastPublished definitionId edits = some true := by
  obtain ⟨item, definition, hitem, hactive, hdefinition⟩ :=
    hstart.start_inserts hrow hnew
  have hoffered := h.offered h₀ catalogItemId
  have hpublished := h.isPublished h₀ item.workflowDefinitionId
  rw [hitem] at hoffered
  rw [hdefinition] at hpublished
  rw [← hoffered]
  constructor
  · rintro ⟨item', definition', hitem', -, hdefinition', hflag⟩
    obtain rfl := Option.some.inj (hitem.symm.trans hitem')
    obtain rfl := Option.some.inj (hdefinition.symm.trans hdefinition')
    refine ⟨item.workflowDefinitionId, rfl, ?_⟩
    rw [← hpublished, Option.map_some, hflag]
  · rintro ⟨definitionId, hid, hlast⟩
    obtain rfl := Option.some.inj hid
    rw [← hpublished, Option.map_some, Option.some.injEq] at hlast
    exact ⟨item, definition, hitem, hactive, hdefinition, hlast⟩

end History

namespace Sample

/-- A catalog item for the drafted definition. -/
def laptop : NewServiceCatalogItem where
  slug := none
  name := "laptop"
  description := none
  summary := none
  details := none
  approvalLabel := none
  targetValue := none
  targetUnit := none
  category := none
  icon := none
  sortOrder := 0
  workflowDefinitionId := id 4

def offerDraft : Option World :=
  (drafted questionThenApproval).bind (author (.createItem laptop) 5)

def offerPublished : Option World :=
  (published questionThenApproval).bind (author (.createItem laptop) 5)

/-- The history of `offerPublished`. -/
def offerEdits : List Edit :=
  [.addItem (id 5) laptop admin.id, .setPublished (id 4) true,
    .define (id 4)
      { name := "laptop request"
        graph := questionThenApproval
        fieldMapping := some [("summary", "laptop")]
        targetSystem := some .webhook } admin.id]

theorem authored_of_author {req : AdminRequest} {first : Nat} {edit : Edit}
    {edits : List Edit} {w w' : World}
    (hedits : Authored deps reader office edits w)
    (h : author req first w = some w')
    (hedit : req.Edits deps reader admin edit w w') :
    Authored deps reader office (edit :: edits) w' := by
  obtain ⟨result, hrun, rfl⟩ := Option.map_eq_some_iff.mp h
  exact hedits.edited (runs_of_runAlone hrun) hedit

theorem offerPublished_authored :
    Authored deps reader office offerEdits
      (offerPublished.get (by decide)) := by
  let drafted := (drafted questionThenApproval).get (by decide)
  let published := (published questionThenApproval).get (by decide)
  have hdraft : author (draft questionThenApproval) 4 office =
      some drafted := rfl
  have hpublish : author (.publish (id 4)) 10 drafted = some published := rfl
  have hoffer : author (.createItem laptop) 5 published =
      some (offerPublished.get (by decide)) := rfl
  have hone := authored_of_author .start hdraft ⟨rfl, ⟨id 4, rfl⟩, _, rfl, rfl⟩
  have htwo := authored_of_author hone hpublish ⟨rfl, ⟨id 4, rfl⟩, _, rfl, rfl⟩
  exact authored_of_author htwo hoffer ⟨rfl, ⟨id 5, rfl⟩, _, rfl, rfl⟩

def startLaptop : Operation :=
  .start (id 5) requester

end Sample

theorem started_on_published_iff_laptop :
    let w := Sample.offerPublished.get (by decide)
    (∃ item definition, w.db.items.find? (Sample.id 5) = some item ∧
      item.isActive = true ∧
      w.db.definitions.find? item.workflowDefinitionId = some definition ∧
      definition.isPublished = true) ↔
    ∃ definitionId,
      offered (Sample.id 5) Sample.offerEdits = some definitionId ∧
      lastPublished definitionId Sample.offerEdits = some true := by
  intro w
  let result := (Sample.perform Sample.startLaptop 100 w).get (by decide)
  have hstart : Sample.startLaptop.Completes Sample.deps w result.1 result.2 :=
    Sample.completes_of_perform trivial (Option.some_get _).symm
  have hrow : newInstance (Sample.id 102) (Sample.id 4) (Sample.id 5)
      Sample.requester.id "ask" ∈ result.2.db.instances.rows := by decide
  exact started_on_published_iff ⟨rfl, rfl⟩ Sample.offerPublished_authored
    hstart hrow rfl

/-- A draft is offered, and a request starts on it. -/
theorem request_started_on_draft :
    let w := Sample.offerDraft.get (by decide)
    let result := (Sample.perform Sample.startLaptop 100 w).get (by decide)
    Sample.office.Unauthored ∧
    Relation.ReflTransGen (AdminStep Sample.deps Sample.reader anyRequest)
      Sample.office w ∧
    Sample.startLaptop.Completes Sample.deps w result.1 result.2 ∧
    ¬ ∀ row ∈ result.2.db.instances.rows, w.db.instances.find? row.id = none →
      ∃ item definition, w.db.items.find? (Sample.id 5) = some item ∧
        item.isActive = true ∧
        w.db.definitions.find? item.workflowDefinitionId = some definition ∧
        definition.isPublished = true := by
  refine ⟨⟨rfl, rfl⟩, ?_,
    Sample.completes_of_perform trivial (Option.some_get _).symm, ?_⟩
  · let drafted := (Sample.drafted Sample.questionThenApproval).get (by decide)
    have hdraft : Sample.author (Sample.draft Sample.questionThenApproval) 4
        Sample.office = some drafted := rfl
    have hoffer : Sample.author (.createItem Sample.laptop) 5 drafted =
        some (Sample.offerDraft.get (by decide)) := rfl
    exact .tail (.single (Sample.step_of_author hdraft trivial))
      (Sample.step_of_author hoffer trivial)
  · intro hall
    obtain ⟨item, definition, hitem, -, hdefinition, hpublished⟩ :=
      hall _ (List.mem_singleton_self _) rfl
    obtain rfl := Option.some.inj hitem
    obtain rfl := Option.some.inj hdefinition
    cases hpublished

end Servcat
