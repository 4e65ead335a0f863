/-
Running the seed again after a statement failed: where the second run picks up,
and which failures leave a definition behind that stops it.
-/
import Servcat.CatalogSeed.Rerun

namespace Servcat

open Atomic Keyed

namespace CatalogSeed

variable {collation : String → String → Bool} {createdBy createdBy' : Uuid}
  {item : SeedItem} {items : List SeedItem} {entries entries' : List Entry}
  {db db' : Db} {inputs : List Input} {w w₁ w₂ : World}
  {statement : Statement} {fault : Fault}

/-- A failure of the statement leaves no definition behind without its item. -/
def Harmless : Statement → Fault → Prop
  | .listItems, _ => True
  | .insertDefinition, fault => fault = .lostRequest
  | .insertItem _, fault => fault = .lostReply
  | .selectItem _, _ => True
  | .deactivate, _ => True
  | .selectDefinition, _ | .setPublished, _ => False

/-- A failure of the statement also leaves the item as the file has
it, if at all. -/
def Traceless : Statement → Fault → Prop
  | .insertItem published, fault => fault = .lostReply ∧ published = true
  | .selectItem published, _ => published = true
  | .deactivate, fault => fault = .lostReply
  | statement, fault => Harmless statement fault

instance (statement : Statement) (fault : Fault) :
    Decidable (Harmless statement fault) := by
  cases statement <;> unfold Harmless <;> infer_instance

/-- The inputs of a run that adds all items end with a failure of this kind. -/
def FailsAt (items : List SeedItem) (inputs : List Input)
    (bad : Statement → Fault → Prop) : Prop :=
  ∃ before i statement, inputs = before ++ [i] ∧
    (sites items.zipIdx)[before.length]? = some statement ∧
      bad statement i.fault

theorem failsAt_append {before : List Input} {i : Input}
    {bad : Statement → Fault → Prop}
    (hstatement : (sites items.zipIdx)[before.length]? = some statement) :
    FailsAt items (before ++ [i]) bad ↔ bad statement i.fault := by
  constructor
  · rintro ⟨before', i', statement', hinputs, hstatement', hbad⟩
    obtain ⟨rfl, hi⟩ := List.append_inj' hinputs rfl
    obtain rfl := List.singleton_inj.mp hi
    rw [hstatement] at hstatement'
    obtain rfl := Option.some.inj hstatement'
    exact hbad
  · intro hbad
    exact ⟨before, i, statement, rfl, hstatement, hbad⟩

/-- The run succeeded and every slug of the file belongs to exactly one item. -/
def Recovered (items : List SeedItem) (x : Exit ApiError SeedSummary)
    (w : World) : Prop :=
  (∃ summary, x = .ok summary) ∧
    ∀ item ∈ items,
      (w.db.items.rows.map ServiceCatalogItem.slug).count (some item.slug) = 1

theorem missing_append (known : String → Bool) (index : Nat)
    (before rest : List SeedItem) :
    missing known index (before ++ rest) =
      missing known index before ++ missing known
        (index + before.length) rest := by
  unfold missing
  rw [List.zipIdx_append, List.filter_append]

theorem missing_eq_zipIdx {known : String → Bool} (index : Nat)
    {rest : List SeedItem} (h : ∀ item ∈ rest, known item.slug = false) :
    missing known index rest = rest.zipIdx index := by
  apply List.filter_eq_self.mpr
  intro entry hentry
  simp [h entry.1 (List.fst_mem_of_mem_zipIdx hentry)]

theorem missing_eq_nil {known : String → Bool} (index : Nat)
    {before : List SeedItem} (h : ∀ item ∈ before, known item.slug = true) :
    missing known index before = [] := by
  apply List.filter_eq_nil_iff.mpr
  intro entry hentry
  simp [h entry.1 (List.fst_mem_of_mem_zipIdx hentry)]

theorem absent_of_empty (hempty : db.items.rows = []) :
    absent db items = items.zipIdx := by
  apply missing_eq_zipIdx
  intro item _
  simp [HasSlug, hempty]

/-- After the first items were added, the other ones are absent. -/
theorem Grown.absent_eq (h : Grown entries db db') (hempty : db.items.rows = [])
    {rest : List SeedItem}
    (hslugs : ((entries.map Entry.item ++ rest).map SeedItem.slug).Nodup) :
    absent db' (entries.map Entry.item ++ rest) =
      rest.zipIdx entries.length := by
  have hrows : db'.items.rows = entries.map Entry.itemRow := by
    rw [h.items, hempty, List.nil_append]
  rw [List.map_append, List.nodup_append] at hslugs
  obtain ⟨-, -, hother⟩ := hslugs
  unfold absent
  rw [missing_append, missing_eq_nil, missing_eq_zipIdx, List.nil_append,
    List.length_map, Nat.zero_add]
  · rintro item hitem
    apply decide_eq_false
    rintro ⟨row, hrow, hslug⟩
    rw [hrows] at hrow
    obtain ⟨entry, hentry, rfl⟩ := List.mem_map.mp hrow
    refine hother _ (List.mem_map_of_mem (List.mem_map_of_mem hentry)) _
      (List.mem_map_of_mem hitem) ?_
    exact Option.some.inj hslug
  · intro item hitem
    obtain ⟨entry, hentry, rfl⟩ := List.mem_map.mp hitem
    exact decide_eq_true (h.hasSlug (.inr ⟨entry, hentry, rfl⟩))

/-- It does not matter which user adds entries. -/
theorem AddsAll.attributed (h : AddsAll collation createdBy' entries db db')
    (hcreator : (db.users.find? createdBy).isSome = true) :
    AddsAll collation createdBy entries db db' := by
  induction h with
  | nil => exact .nil
  | cons hadds _ ih =>
      refine .cons ⟨hcreator, hadds.nameFree, hadds.slugFree,
        hadds.rows⟩ (ih ?_)
      rw [(AddsAll.cons hadds .nil).grown.users]
      exact hcreator

/-- The items that come first in the file were added, and nothing else was. -/
structure Begun (collation : String → String → Bool) (createdBy : Uuid)
    (items : List SeedItem) (entries : List Entry) (w w' : World) : Prop where
  first : ∃ rest, items = entries.map Entry.item ++ rest
  places : entries.map Entry.place = (entries.map Entry.item).zipIdx
  adds : ∃ db, AddsAll collation createdBy entries w.db db ∧ w' = { w with db }

theorem Begun.nil : Begun collation createdBy items [] w w :=
  ⟨⟨items, rfl⟩, rfl, w.db, .nil, rfl⟩

/-- A definition was added and its item, which is absent, was not. -/
structure Orphaned (collation : String → String → Bool) (items : List SeedItem)
    (item : SeedItem) (db : Db) : Prop where
  mem : item ∈ (absent db items).map Prod.fst
  taken : ∃ row ∈ db.definitions.rows,
    row.name = (newDefinition item).name ∧ row.version = 1

theorem Completed.begun {before : List (SeedItem × Nat)}
    {after : List (SeedItem × Nat)} (htodo : items.zipIdx = before ++ after)
    (h : Completed collation createdBy before entries w w₁) :
    Begun collation createdBy items entries w w₁ ∧
      ∃ rest, items = entries.map Entry.item ++ rest ∧
        after = rest.zipIdx entries.length := by
  obtain ⟨front, rest, rfl, rfl, rfl⟩ := List.zipIdx_eq_append_iff.mp htodo
  have hitems : entries.map Entry.item = front := by
    rw [h.items_eq, List.zipIdx_map_fst]
  have hlength : front.length = entries.length := by
    rw [← hitems, List.length_map]
  rw [← hitems] at h ⊢
  refine ⟨⟨⟨rest, rfl⟩, h.places, h.adds⟩, rest, rfl, ?_⟩
  rw [List.length_map, Nat.zero_add]

theorem Orphans.not_harmless (h : Orphans statement fault) :
    ¬Harmless statement fault := by
  cases statement with
  | insertDefinition => rintro rfl; cases h
  | insertItem => rintro rfl; cases h
  | selectDefinition => exact id
  | setPublished => exact id
  | _ => cases h

theorem Leaves.harmless {isActive : Bool}
    (h : Leaves item statement fault isActive) :
    Harmless statement fault := by
  cases h <;> simp [Harmless]

theorem Leaves.traceless_iff {isActive : Bool}
    (h : Leaves item statement fault isActive) :
    Traceless statement fault ↔ isActive = item.published := by
  cases h with
  | inserted => exact ⟨fun h => h.2.symm, fun h => ⟨rfl, h.symm⟩⟩
  | unread => exact eq_comm
  | active hpublished => simp [Traceless, hpublished]
  | inactive hpublished => simp [Traceless, hpublished]

theorem Traceless.harmless (h : Traceless statement fault) :
    Harmless statement fault := by
  cases statement with
  | insertItem => exact h.1
  | selectItem => trivial
  | deactivate => trivial
  | _ => exact h

theorem Begun.snoc {entry : Entry} {rest : List SeedItem} {mid : World}
    (hbegun : Begun collation createdBy items entries w mid)
    (hitems : items = entries.map Entry.item ++ item :: rest)
    (hitem : entry.item = item) (hindex : entry.index = entries.length)
    (hadds : Adds collation createdBy entry mid.db db) :
    Begun collation createdBy items (entries ++ [entry]) w { mid with db } := by
  obtain ⟨-, hplaces, mid, hall, rfl⟩ := hbegun
  refine ⟨⟨rest, ?_⟩, ?_, db, hall.append (.cons hadds .nil), rfl⟩
  · rw [hitems, ← hitem]
    simp
  · rw [List.map_append, List.map_append, List.zipIdx_append, hplaces]
    simp [Entry.place, hindex]

/-- What a run that failed leaves behind in an empty catalog. -/
theorem run_error_cases {e : ApiError}
    (hslugs : (items.map SeedItem.slug).Nodup) (hempty : w.db.items.rows = [])
    (hcreator : (w.db.users.find? createdBy).isSome = true)
    (hrun : Consumes Input.Drawn (run collation items createdBy) inputs w
      (.error e) w₁) :
    ∃ before i statement, inputs = before ++ [i] ∧
      (sites items.zipIdx)[before.length]? = some statement ∧
      ((∃ entries, Begun collation createdBy items entries w w₁ ∧
          (Seedable collation w.db items → Harmless statement i.fault ∧
            (Traceless statement i.fault ↔
              ∀ entry ∈ entries, entry.isActive = entry.item.published))) ∨
        ¬(Seedable collation w.db items ∧ Harmless statement i.fault) ∧
          ∃ item, Orphaned collation items item w₁.db) := by
  rcases run_cases hrun with ⟨_, -, hx⟩ |
    ⟨before, i, statement, e, rfl, hstatement, -, hstopped⟩
  · cases hx
  rw [absent_of_empty hempty] at hstatement hstopped
  refine ⟨before, i, statement, rfl, hstatement, ?_⟩
  rcases hstopped with ⟨rfl, -, rfl⟩ | hstopped
  · exact .inl ⟨[], .nil, fun _ => ⟨trivial, by simp [Traceless, Harmless]⟩⟩
  · obtain @⟨mid, entries, item, index, _, _, htodo, hbefore,
        hbroken⟩ := hstopped
    obtain ⟨hbegun, rest, hitems, hafter⟩ := hbefore.begun htodo
    obtain _ | ⟨next, rest⟩ := rest
    · cases hafter
    obtain ⟨hnext, -⟩ := List.cons_eq_cons.mp hafter
    obtain ⟨rfl, rfl⟩ := Prod.mk.inj hnext
    have hfree : Seedable collation w.db items →
        Free collation mid.db item := by
      intro hseedable
      rw [hitems] at hseedable
      exact (hbefore.grown.seedable_append_iff.mp hseedable).2.free
        _ List.mem_cons_self
    cases hbroken with
    | nothing hcause =>
        refine .inl ⟨entries, hbegun, fun hseedable => ?_⟩
        have hfault : i.fault = .lostRequest := by
          refine hcause.resolve_right (not_not_intro ⟨?_, (hfree hseedable).1⟩)
          rw [hbefore.grown.users]
          exact hcreator
        exact ⟨hfault, iff_of_true hfault hbefore.active⟩
    | @orphan _ _ _ definition definitions hname hinsert hdefinition hcause =>
        refine .inr ⟨?_, item, ?_, definition, ?_, hdefinition⟩
        · rintro ⟨hseedable, hharmless⟩
          rcases hcause with horphans | hslug
          · exact horphans.not_harmless hharmless
          · exact hslug (hfree hseedable).2
        · change item ∈ (absent mid.db items).map Prod.fst
          subst hitems
          rw [hbefore.grown.absent_eq hempty hslugs, List.zipIdx_map_fst]
          exact List.mem_cons_self
        · change definition ∈ definitions.rows
          rw [(Table.insert?_eq_some_iff.mp hinsert).2]
          exact List.mem_append_right _ (List.mem_singleton_self _)
    | @both _ _ _ entry db hitem hindex hadds hleaves =>
        refine .inl ⟨entries ++ [entry],
          hbegun.snoc hitems hitem hindex hadds, ?_⟩
        intro _
        refine ⟨hleaves.harmless, hleaves.traceless_iff.trans ?_⟩
        rw [List.forall_mem_append, List.forall_mem_singleton, hitem]
        exact (and_iff_right hbefore.active).symm

section Again

variable {e : ApiError} {x : Exit ApiError SeedSummary}

/-- The definition that was left behind has the name that its
item's would get. -/
theorem Orphaned.not_ok (hreflexive : ∀ text, collation text text = true)
    (h : Orphaned collation items item w₁.db)
    (hagain : Runs Input.Undisturbed (run collation items createdBy') w₁ x w₂) :
    ¬∃ summary, x = .ok summary := by
  obtain ⟨inputs, hagain⟩ := runs_iff_consumes.mp hagain
  rcases run_cases (hagain.mono fun _ _ hi => hi.2) with
    ⟨entries, hcompleted, -⟩ | ⟨_, _, _, _, -, -, rfl, -⟩
  · exfalso
    obtain ⟨definition, hdefinition, hname, hversion⟩ := h.taken
    have hmem := h.mem
    rw [← hcompleted.items_eq] at hmem
    obtain ⟨-, -, db, hadds, -⟩ := hcompleted
    have hfree := (hadds.seedable.free _ hmem).1 definition hdefinition hversion
    rw [hname] at hfree
    simp [sameText, hreflexive] at hfree
  · rintro ⟨_, hx⟩
    cases hx

/-- The second run goes on where the first one stopped. -/
theorem Begun.completed (hslugs : (items.map SeedItem.slug).Nodup)
    (hempty : w.db.items.rows = [])
    (hcreator : (w.db.users.find? createdBy).isSome = true)
    (hbegun : Begun collation createdBy items entries w w₁)
    (hcompleted : Completed collation createdBy' (absent w₁.db items)
      entries' w₁ w₂) :
    (entries ++ entries').map Entry.place = items.zipIdx ∧
      ∃ db, AddsAll collation createdBy (entries ++ entries') w.db db ∧
        w₂ = { w with db } := by
  obtain ⟨⟨rest, rfl⟩, hplaces, mid, hall, rfl⟩ := hbegun
  obtain ⟨hplaces', -, db, hall', rfl⟩ := hcompleted
  rw [hall.grown.absent_eq hempty hslugs] at hplaces'
  refine ⟨?_, db, hall.append (hall'.attributed ?_), rfl⟩
  · rw [List.map_append, hplaces, hplaces', List.zipIdx_append, List.length_map,
      Nat.zero_add]
  · change (mid.users.find? createdBy).isSome = true
    rw [hall.grown.users]
    exact hcreator

/-- The second run succeeds where no constraint is in the way. -/
theorem Begun.ok_iff (hslugs : (items.map SeedItem.slug).Nodup)
    (hempty : w.db.items.rows = [])
    (hcreator : (w.db.users.find? createdBy).isSome = true)
    (hcreator' : (w.db.users.find? createdBy').isSome = true)
    (hbegun : Begun collation createdBy items entries w w₁)
    (hagain : Runs Input.Undisturbed (run collation items createdBy') w₁ x w₂) :
    ((∃ summary, x = .ok summary) ↔ Seedable collation w.db items) ∧
      ((∃ summary, x = .ok summary) → ∃ entries',
        Completed collation createdBy'
          (absent w₁.db items) entries' w₁ w₂) := by
  obtain ⟨inputs, hagain⟩ := runs_iff_consumes.mp hagain
  have hok : (∃ summary, x = .ok summary) →
      ∃ entries',
        Completed collation createdBy' (absent w₁.db items) entries' w₁ w₂ := by
    rintro ⟨summary, rfl⟩
    rcases run_cases (hagain.mono fun _ _ hi => hi.2) with
      ⟨entries', hcompleted, -⟩ | ⟨_, _, _, _, -, -, hx, -⟩
    · exact ⟨entries', hcompleted⟩
    · cases hx
  refine ⟨⟨fun hsome => ?_, fun hseedable => ?_⟩, hok⟩
  · obtain ⟨entries', hcompleted⟩ := hok hsome
    obtain ⟨hplaces, db, hall, -⟩ :=
      hbegun.completed hslugs hempty hcreator hcompleted
    have hitems : (entries ++ entries').map Entry.item = items := by
      rw [← List.zipIdx_map_fst 0 items, ← hplaces, List.map_map]
      rfl
    rw [← hitems]
    exact hall.seedable
  · obtain ⟨⟨rest, rfl⟩, -, mid, hall, rfl⟩ := hbegun
    have hrest := (hall.grown.seedable_append_iff.mp hseedable).2
    have habsent := hall.grown.absent_eq hempty hslugs
    obtain ⟨_, -, hx⟩ := run_undisturbed (w := { w with db := mid })
      (by rw [hall.grown.users]; exact hcreator')
      (by rw [habsent, List.zipIdx_map_fst]; exact hrest) hagain
    exact ⟨_, hx⟩

/-- The rows of the catalog tell which items are active. -/
theorem forall_active_of_rows
    (hrows : entries.map Entry.itemRow = entries'.map Entry.itemRow)
    (hplaces : entries.map Entry.place = entries'.map Entry.place)
    (h : ∀ entry ∈ entries, entry.isActive = entry.item.published) :
    ∀ entry ∈ entries', entry.isActive = entry.item.published := by
  have hactive := congrArg (List.map ServiceCatalogItem.isActive) hrows
  have hpublished := congrArg (List.map fun place => place.1.published) hplaces
  rw [List.map_map, List.map_map] at hactive hpublished
  exact List.map_inj_left.mp
    (hactive.symm.trans ((List.map_inj_left.mpr h).trans hpublished))

theorem count_slug_eq_one (hslugs : (items.map SeedItem.slug).Nodup)
    (hempty : db.items.rows = [])
    (hplaces : entries.map Entry.place = items.zipIdx)
    (hgrown : Grown entries db db') (hitem : item ∈ items) :
    (db'.items.rows.map ServiceCatalogItem.slug).count
      (some item.slug) = 1 := by
  have hrows : db'.items.rows.map ServiceCatalogItem.slug =
      (items.map SeedItem.slug).map some := by
    rw [hgrown.items, hempty, List.nil_append, ← List.zipIdx_map_fst 0 items,
      ← hplaces]
    simp only [List.map_map]
    rfl
  rw [hrows]
  refine List.count_eq_one_of_mem ?_
    (List.mem_map_of_mem (List.mem_map_of_mem hitem))
  exact hslugs.map (Option.some_injective _)

/-- A rerun repairs a run that failed in an empty catalog if and only if the
failure left no definition without its item and no constraint is in the way.
It then also ends as one run would if the item that was being added is as the
file has it. -/
theorem run_recovers_iff (hslugs : (items.map SeedItem.slug).Nodup)
    (hempty : w.db.items.rows = [])
    (hcreator : (w.db.users.find? createdBy).isSome = true)
    (hcreator' : (w.db.users.find? createdBy').isSome = true)
    (hreflexive : ∀ text, collation text text = true)
    (hfail : Consumes Input.Drawn (run collation items createdBy) inputs w
      (.error e) w₁)
    (hagain : Runs Input.Undisturbed (run collation items createdBy') w₁ x w₂) :
    (Recovered items x w₂ ↔
      Seedable collation w.db items ∧ FailsAt items inputs Harmless) ∧
    ((Recovered items x w₂ ∧
        ∃ entries, Completed collation createdBy items.zipIdx entries w w₂) ↔
      Seedable collation w.db items ∧ FailsAt items inputs Traceless) := by
  obtain ⟨before, i, statement, rfl, hstatement, hleft⟩ :=
    run_error_cases hslugs hempty hcreator hfail
  rw [failsAt_append hstatement, failsAt_append hstatement]
  rcases hleft with ⟨entries, hbegun, hharmless⟩ | ⟨hharmless, item, horphaned⟩
  · obtain ⟨hok, hcompleted⟩ :=
      hbegun.ok_iff hslugs hempty hcreator hcreator' hagain
    have hseeded : (∃ summary, x = .ok summary) → ∃ entries' db,
        (∀ entry ∈ entries', entry.isActive = entry.item.published) ∧
        (entries ++ entries').map Entry.place = items.zipIdx ∧
        AddsAll collation createdBy (entries ++ entries') w.db db ∧
        w₂ = { w with db } := by
      intro hsome
      obtain ⟨entries', hcompleted⟩ := hcompleted hsome
      obtain ⟨hplaces, db, hall, hw⟩ :=
        hbegun.completed hslugs hempty hcreator hcompleted
      exact ⟨entries', db, hcompleted.active, hplaces, hall, hw⟩
    have hrecovered : Recovered items x w₂ ↔ Seedable collation w.db items := by
      refine ⟨fun h => hok.mp h.1, fun hseedable => ⟨hok.mpr hseedable, ?_⟩⟩
      obtain ⟨_, _, -, hplaces, hall, rfl⟩ := hseeded (hok.mpr hseedable)
      exact fun _ hitem =>
        count_slug_eq_one hslugs hempty hplaces hall.grown hitem
    rw [hrecovered]
    refine ⟨(and_iff_left_of_imp fun h => (hharmless h).1).symm, ?_⟩
    refine and_congr_right fun hseedable => ?_
    rw [(hharmless hseedable).2]
    obtain ⟨entries', db, hactive, hplaces, hall, rfl⟩ :=
      hseeded (hok.mpr hseedable)
    constructor
    · rintro ⟨once, honce⟩
      refine (List.forall_mem_append.mp <| forall_active_of_rows ?_
        (honce.places.trans hplaces.symm) honce.active).1
      have hrows := honce.grown.items.symm.trans hall.grown.items
      rw [hempty] at hrows
      exact hrows
    · intro hentries
      exact ⟨entries ++ entries', hplaces,
        List.forall_mem_append.mpr ⟨hentries, hactive⟩, db, hall, rfl⟩
  · have hnot := horphaned.not_ok hreflexive hagain
    refine ⟨iff_of_false (fun h => hnot h.1) hharmless,
      iff_of_false (fun h => hnot h.1.1) fun h => hharmless ⟨h.1, h.2.harmless⟩⟩

end Again

/-- The file has one service. -/
def Sample.single : List SeedItem :=
  [service "vpn" "VPN access" true]

/-- As many statements without a fault, and one with it. -/
def Sample.interrupted (before : Nat) (fault : Fault) : List Input :=
  (Sample.inputs 0 100).take before ++ [⟨0, Sample.id 200, fault⟩]

/-- A first run in a new deployment. -/
def Sample.stopped (before : Nat) (fault : Fault) :
    Option (Exit ApiError SeedSummary × World) :=
  runOn Input.Drawn (run caseless Sample.single Sample.approver.id)
    (Sample.interrupted before fault) Sample.newDeployment

/-- The `INSERT` of the item did not arrive. -/
def Sample.orphaned : Exit ApiError SeedSummary × World :=
  (Sample.stopped 4 .lostRequest).get rfl

theorem run_recovers_orphan :
    (Sample.single.map SeedItem.slug).Nodup ∧
    (Sample.single.map SeedItem.name).Nodup ∧
    Sample.newDeployment.db.items.rows = [] ∧
    (Sample.newDeployment.db.users.find? Sample.approver.id).isSome = true ∧
    ∃ w₁ w₂,
      Consumes Input.Drawn (run caseless Sample.single Sample.approver.id)
        (Sample.interrupted 4 .lostRequest) Sample.newDeployment
          (.error .internal) w₁ ∧
      Runs Input.Undisturbed (run caseless Sample.single Sample.approver.id)
        w₁ (.error .internal) w₂ := by
  have hfail : Sample.stopped 4 .lostRequest = some Sample.orphaned :=
    (Option.some_get _).symm
  have hagain : ∃ w₂, Sample.seed Sample.single 300 Sample.orphaned.2 =
      some (.error .internal, w₂) := ⟨_, rfl⟩
  obtain ⟨w₂, hagain⟩ := hagain
  exact ⟨by decide, by decide, rfl, by decide, Sample.orphaned.2, w₂,
    consumes_of_runOn hfail, runs_of_runAlone hagain⟩

/-- The new item could not be read. -/
def Sample.unread : Exit ApiError SeedSummary × World :=
  (Sample.stopped 5 .lostReply).get rfl

theorem run_recovers_unread :
    ∃ x w₂,
      Runs Input.Undisturbed (run caseless Sample.single Sample.approver.id)
        Sample.unread.2 x w₂ ∧
      Recovered Sample.single x w₂ := by
  have hfail : Consumes Input.Drawn
      (run caseless Sample.single Sample.approver.id)
      (Sample.interrupted 5 .lostReply) Sample.newDeployment (.error .internal)
      Sample.unread.2 := by
    have hsome : Sample.stopped 5 .lostReply = some Sample.unread :=
      (Option.some_get _).symm
    exact consumes_of_runOn hsome
  have hagain : ∃ x w₂,
      Sample.seed Sample.single 300 Sample.unread.2 = some (x, w₂) :=
    ⟨_, _, rfl⟩
  obtain ⟨x, w₂, hagain⟩ := hagain
  have hagain := runs_of_runAlone hagain
  have hseedable : Seedable caseless Sample.newDeployment.db Sample.single :=
    ⟨List.pairwise_singleton _ _,
      fun _ _ =>
        ⟨fun _ hrow => absurd hrow List.not_mem_nil,
          fun _ hrow => absurd hrow List.not_mem_nil⟩⟩
  refine ⟨x, w₂, hagain,
    (run_recovers_iff (by decide) rfl (by decide) (by decide)
    caseless_refl hfail hagain).1.mpr ⟨hseedable, ?_⟩⟩
  exact ⟨_, _, .selectItem true, rfl, rfl, trivial⟩

end CatalogSeed

end Servcat
