/-
Running the seed again: a run without faults adds the absent items and nothing
else, and a run after it finds nothing to do.
-/
import Servcat.CatalogSeed.Runs
import Servcat.Sample

namespace Servcat

open Atomic Keyed

namespace CatalogSeed

variable {collation : String → String → Bool} {createdBy : Uuid} {index : Nat}
  {item : SeedItem} {items : List SeedItem} {entries : List Entry}
  {db db' mid : Db} {inputs : List Input} {w w' : World}

/-- The database tells the items' slugs apart, and the names of their
definitions. -/
def Distinct (collation : String → String → Bool) (a b : SeedItem) : Prop :=
  sameText collation (newDefinition a).name (newDefinition b).name = false ∧
    sameText collation a.slug b.slug = false

/-- No name or slug of an item is in use. -/
def Free (collation : String → String → Bool) (db : Db)
    (item : SeedItem) : Prop :=
  NameFree collation db item ∧ SlugFree collation db item

/-- No constraint keeps the items from being added. -/
structure Seedable (collation : String → String → Bool) (db : Db)
    (todo : List SeedItem) : Prop where
  distinct : todo.Pairwise (Distinct collation)
  free : ∀ item ∈ todo, Free collation db item

/-- What entries add to the tables. -/
structure Grown (entries : List Entry) (db db' : Db) : Prop where
  users : db'.users = db.users
  items : db'.items.rows = db.items.rows ++ entries.map Entry.itemRow
  definitions : db'.definitions.rows =
    db.definitions.rows ++ entries.map Entry.definitionRow

theorem AddsAll.grown (h : AddsAll collation createdBy entries db db') :
    Grown entries db db' := by
  induction h with
  | nil => exact ⟨rfl, (List.append_nil _).symm, (List.append_nil _).symm⟩
  | @cons entry entries db mid db' hadds _ ih =>
      obtain ⟨-, -, -, definitions, items, hdefinitions, hitems, rfl⟩ := hadds
      refine ⟨ih.users, ih.items.trans ?_, ih.definitions.trans ?_⟩
      · rw [(Table.insert?_eq_some_iff.mp hitems).2, List.append_assoc]
        rfl
      · rw [(Table.insert?_eq_some_iff.mp hdefinitions).2, List.append_assoc]
        rfl

/-- What is free once entries were added. -/
theorem Grown.free_iff (h : Grown entries db db') :
    Free collation db' item ↔
      Free collation db item ∧
      ∀ entry ∈ entries, Distinct collation entry.item item := by
  have hname : NameFree collation db' item ↔ NameFree collation db item ∧
      ∀ entry ∈ entries, sameText collation (newDefinition entry.item).name
        (newDefinition item).name = false := by
    unfold NameFree
    rw [h.definitions, List.forall_mem_append, List.forall_mem_map]
    exact and_congr_right fun _ => forall₂_congr fun _ _ =>
      forall_prop_of_true rfl
  have hslug : SlugFree collation db' item ↔ SlugFree collation db item ∧
      ∀ entry ∈ entries,
        sameText collation entry.item.slug item.slug = false := by
    unfold SlugFree
    rw [h.items, List.forall_mem_append, List.forall_mem_map]
    refine and_congr_right fun _ => forall₂_congr fun entry _ => ?_
    simp [Entry.itemRow, Db.newItem, newItem]
  unfold Free Distinct
  rw [hname, hslug, forall₂_and, and_and_and_comm]

theorem Grown.seedable_append_iff (h : Grown entries db mid)
    {rest : List SeedItem} :
    Seedable collation db (entries.map Entry.item ++ rest) ↔
      Seedable collation db (entries.map Entry.item) ∧
      Seedable collation mid rest := by
  have hcross : (∀ item ∈ rest, Free collation mid item) ↔
      (∀ item ∈ rest, Free collation db item) ∧
        ∀ a ∈ entries.map Entry.item, ∀ b ∈ rest, Distinct collation a b := by
    simp only [h.free_iff, List.forall_mem_map]
    constructor
    · intro hall
      exact ⟨fun item hitem => (hall item hitem).1,
        fun entry hentry item hitem => (hall item hitem).2 entry hentry⟩
    · rintro ⟨hfree, hdistinct⟩ item hitem
      exact ⟨hfree item hitem, fun entry hentry => hdistinct entry hentry
        item hitem⟩
  constructor
  · rintro ⟨hdistinct, hfree⟩
    obtain ⟨hentries, hrest, hboth⟩ := List.pairwise_append.mp hdistinct
    obtain ⟨hfreeEntries, hfreeRest⟩ := List.forall_mem_append.mp hfree
    exact ⟨⟨hentries, hfreeEntries⟩, hrest, hcross.mpr ⟨hfreeRest, hboth⟩⟩
  · rintro ⟨⟨hentries, hfreeEntries⟩, hrest, hfreeRest⟩
    obtain ⟨hfreeRest, hboth⟩ := hcross.mp hfreeRest
    exact ⟨List.pairwise_append.mpr ⟨hentries, hrest, hboth⟩,
      List.forall_mem_append.mpr ⟨hfreeEntries, hfreeRest⟩⟩

/-- What was added could be. -/
theorem AddsAll.seedable (h : AddsAll collation createdBy entries db db') :
    Seedable collation db (entries.map Entry.item) := by
  induction h with
  | nil => exact ⟨.nil, by simp⟩
  | @cons entry entries db mid db' hadds _ ih =>
      have hgrown := (AddsAll.cons hadds .nil).grown
      refine hgrown.seedable_append_iff.mpr
        ⟨⟨List.pairwise_singleton _ _, ?_⟩, ih⟩
      intro item hitem
      obtain rfl := List.mem_singleton.mp hitem
      exact ⟨hadds.nameFree, hadds.slugFree⟩

theorem Leaves.disturbed {statement : Statement} {fault : Fault}
    {isActive : Bool}
    (h : Leaves item statement fault isActive) : fault ≠ .none := by
  cases h with
  | unread hfault => exact hfault
  | _ => simp

/-- Without a fault, only constraints stop a run. -/
theorem Broken.not_free {statement : Statement} {fault : Fault}
    (h : Broken collation createdBy index item statement fault w w')
    (hfault : fault = .none)
    (hcreator : (w.db.users.find? createdBy).isSome = true) :
    ¬Free collation w.db item := by
  rintro ⟨hname, hslug⟩
  subst hfault
  cases h with
  | nothing h =>
      rcases h with hfault | hnot
      · cases hfault
      · exact hnot ⟨hcreator, hname⟩
  | orphan _ _ _ h =>
      rcases h with horphans | hnot
      · cases statement <;> simp [Orphans] at horphans
      · exact hnot hslug
  | both _ _ _ h => exact h.disturbed rfl

theorem missing_map_fst (known : String → Bool) (index : Nat)
    (items : List SeedItem) :
    (missing known index items).map Prod.fst =
      items.filter fun item => !known item.slug := by
  induction items generalizing index with
  | nil => rfl
  | cons item rest ih =>
      rw [missing_cons]
      cases hknown : known item.slug <;> simp [hknown, ih]

/-- Where no constraint is in the way, a run without faults adds
what is absent. -/
theorem run_undisturbed {x : Exit ApiError SeedSummary}
    (hcreator : (w.db.users.find? createdBy).isSome = true)
    (hseedable : Seedable collation w.db ((absent w.db items).map Prod.fst))
    (h : Consumes Input.Undisturbed (run collation items createdBy)
      inputs w x w') :
    ∃ entries, Completed collation createdBy (absent w.db items) entries w w' ∧
      x = .ok
        { added := entries.length
          skipped :=
            (present (fun slug => decide (HasSlug w.db slug)) items).length
          skippedNames :=
            (present (fun slug => decide (HasSlug w.db slug)) items).map
            SeedItem.name } := by
  have hfaultless := h.all fun _ _ hi => hi.1
  rcases run_cases (h.mono fun _ _ hi => hi.2) with hcompleted |
    ⟨before, i, statement, e, rfl, -, -, hstopped⟩
  · exact hcompleted
  · have hi : i.fault = .none := hfaultless i (by simp)
    rcases hstopped with ⟨-, hfault, -⟩ | hstopped
    · exact absurd hi hfault
    · obtain ⟨htodo, ⟨rfl, -, db, hadds, rfl⟩, hbroken⟩ := hstopped
      have hgrown := hadds.grown
      rw [htodo, List.map_append, List.map_map] at hseedable
      have hrest := (hgrown.seedable_append_iff.mp hseedable).2
      refine absurd (hrest.free _ List.mem_cons_self) (hbroken.not_free hi ?_)
      change (db.users.find? createdBy).isSome = true
      rw [hgrown.users]
      exact hcreator

/-- The items of added entries are in the catalog from then on. -/
theorem Grown.hasSlug (h : Grown entries db db') {slug : String}
    (hslug : HasSlug db slug ∨ ∃ entry ∈ entries, entry.item.slug = slug) :
    HasSlug db' slug := by
  rcases hslug with ⟨row, hrow, hslug⟩ | ⟨entry, hentry, rfl⟩
  · exact ⟨row, by rw [h.items]; exact List.mem_append_left _ hrow, hslug⟩
  · refine ⟨entry.itemRow, ?_, rfl⟩
    rw [h.items]
    exact List.mem_append_right _ (List.mem_map_of_mem hentry)

theorem Completed.grown {todo : List (SeedItem × Nat)}
    (h : Completed collation createdBy todo entries w w') :
    Grown entries w.db w'.db := by
  obtain ⟨-, -, db, hadds, rfl⟩ := h
  exact hadds.grown

theorem Completed.items_eq {todo : List (SeedItem × Nat)}
    (h : Completed collation createdBy todo entries w w') :
    entries.map Entry.item = todo.map Prod.fst := by
  rw [← h.places, List.map_map]
  rfl

theorem absent_map_fst (db : Db) (items : List SeedItem) :
    (absent db items).map Prod.fst =
      items.filter fun item => !decide (HasSlug db item.slug) :=
  missing_map_fst _ 0 items

/-- With nothing absent there is nothing to add. -/
theorem run_idle {x : Exit ApiError SeedSummary}
    (hcreator : (w.db.users.find? createdBy).isSome = true)
    (hpresent : ∀ item ∈ items, HasSlug w.db item.slug)
    (h : Runs Input.Undisturbed (run collation items createdBy) w x w') :
    w' = w ∧ ∃ names, x = .ok ⟨0, items.length, names⟩ := by
  obtain ⟨inputs, h⟩ := runs_iff_consumes.mp h
  have hnone : absent w.db items = [] := by
    apply List.map_eq_nil_iff.mp
    rw [absent_map_fst, List.filter_eq_nil_iff]
    intro item hitem
    simp [hpresent item hitem]
  have hall : present (fun slug => decide (HasSlug w.db slug)) items =
      items := by
    apply List.filter_eq_self.mpr
    intro item hitem
    simp [hpresent item hitem]
  obtain ⟨entries, hcompleted, rfl⟩ :=
    run_undisturbed hcreator (by rw [hnone]; exact ⟨.nil, by simp⟩) h
  rw [hnone] at hcompleted
  obtain ⟨hplaces, -, db, hadds, rfl⟩ := hcompleted
  obtain rfl := List.map_eq_nil_iff.mp hplaces
  cases hadds
  exact ⟨rfl, _, by rw [hall]; rfl⟩

/-- A run without faults changes no row that is there, adds exactly the absent
items, each with a published definition of its own, and leaves nothing to do
for the next. -/
theorem run_twice {x : Exit ApiError SeedSummary}
    (hcreator : (w.db.users.find? createdBy).isSome = true)
    (hdistinct : items.Pairwise (Distinct collation))
    (hfree : ∀ item ∈ items, ¬HasSlug w.db item.slug → Free collation w.db item)
    (hrun : Runs Input.Undisturbed (run collation items createdBy) w x w') :
    ∃ (entries : List Entry) (summary : SeedSummary),
      x = .ok summary ∧ summary.added = entries.length ∧
      summary.added + summary.skipped = items.length ∧
      entries.map Entry.item = items.filter
        (fun item => !decide (HasSlug w.db item.slug)) ∧
      (∀ entry ∈ entries, entry.isActive = entry.item.published ∧
        w.db.definitions.find? entry.definitionId = none ∧
        w'.db.definitions.find? entry.definitionId = some entry.definitionRow) ∧
      w'.db.items.rows = w.db.items.rows ++ entries.map Entry.itemRow ∧
      w'.db.definitions.rows =
        w.db.definitions.rows ++ entries.map Entry.definitionRow ∧
      ∀ x' w'',
        Runs Input.Undisturbed (run collation items createdBy) w' x' w'' →
        w'' = w' ∧ ∃ names, x' = .ok ⟨0, items.length, names⟩ := by
  obtain ⟨inputs, hconsumes⟩ := runs_iff_consumes.mp hrun
  have hseedable : Seedable collation w.db
      ((absent w.db items).map Prod.fst) := by
    rw [absent_map_fst]
    refine ⟨hdistinct.filter _, ?_⟩
    intro item hitem
    obtain ⟨hmem, habsent⟩ := List.mem_filter.mp hitem
    exact hfree item hmem (by simpa using habsent)
  obtain ⟨entries, hcompleted, rfl⟩ :=
    run_undisturbed hcreator hseedable hconsumes
  have hgrown := hcompleted.grown
  have hitems := hcompleted.items_eq
  rw [absent_map_fst] at hitems
  refine ⟨entries, _, rfl, rfl, ?_, hitems, ?_, hgrown.items,
    hgrown.definitions, ?_⟩
  · have hlength := congrArg List.length hitems
    rw [List.length_map] at hlength
    rw [List.length_eq_length_filter_add (l := items) fun item =>
      decide (HasSlug w.db item.slug), Nat.add_comm, hlength]
    rfl
  · intro entry hentry
    have hrow : entry.definitionRow ∈ w'.db.definitions.rows := by
      rw [hgrown.definitions]
      exact List.mem_append_right _ (List.mem_map_of_mem hentry)
    exact ⟨hcompleted.active entry hentry,
      Table.find?_appended hgrown.definitions (List.mem_map_of_mem hentry),
      Table.find?_of_mem hrow⟩
  · intro x' w'' hagain
    refine run_idle ?_ ?_ hagain
    · rw [hgrown.users]
      exact hcreator
    · intro item hitem
      apply hgrown.hasSlug
      by_cases hslug : HasSlug w.db item.slug
      · exact .inl hslug
      · have hmem : item ∈ entries.map Entry.item := by
          rw [hitems]
          exact List.mem_filter.mpr ⟨hitem, by simp [hslug]⟩
        obtain ⟨entry, hentry, rfl⟩ := List.mem_map.mp hmem
        exact .inr ⟨entry, hentry, rfl⟩

/-- Upper and lower case are the same to the database. -/
def caseless (a b : String) : Bool :=
  !(b.toList.map Char.toLower).lex (a.toList.map Char.toLower) fun c d =>
    decide (c.toNat < d.toNat)

theorem caseless_refl (text : String) : caseless text text = true := by
  have hnot : ¬List.Lex (fun c d : Char => decide (c.toNat < d.toNat) = true)
      (text.toList.map Char.toLower) (text.toList.map Char.toLower) :=
    List.lex_irrefl (by simp) _
  unfold caseless
  rw [List.lex_eq_false_iff_not_lex _ |>.mpr hnot]
  rfl

/-- A service of the starter catalog. -/
def service (slug name : String) (published : Bool) : SeedItem where
  slug := slug
  name := name
  category := "Access"
  icon := "key"
  summary := ""
  description := ""
  included := []
  notIncluded := []
  needed := []
  keywords := []
  approvalLabel := "None"
  workflowPattern := .simpleTicket
  targetValue := 1
  targetUnit := .hours
  published := published
  questions := []

/-- A new deployment: there are users, but nothing to request. -/
def Sample.newDeployment : World :=
  { Sample.world ⟨"", []⟩ with
    db :=
      { (Sample.world ⟨"", []⟩).db with
        items := .empty
        definitions := .empty } }

/-- One run of the seed without faults, which finds identifiers from
`first` on. -/
def Sample.seed (items : List SeedItem) (first : Nat) (w : World) :
    Option (Exit ApiError SeedSummary × World) :=
  runAlone Input.Undisturbed (run caseless items Sample.approver.id)
    (Sample.inputs 0 first) w

/-- Two names that differ in case only. -/
def Sample.twins : List SeedItem :=
  [service "vpn" "VPN access" true, service "vpn-office" "Vpn access" true]

/-- One service of two is offered at once. -/
def Sample.pair : List SeedItem :=
  [service "vpn" "VPN access" true, service "badge" "Badge" false]

theorem run_twice_twins :
    (Sample.twins.map SeedItem.slug).Nodup ∧
    (Sample.twins.map SeedItem.name).Nodup ∧
    Sample.newDeployment.db.items.rows = [] ∧
    Sample.newDeployment.db.definitions.rows = [] ∧
    (Sample.newDeployment.db.users.find? Sample.approver.id).isSome = true ∧
    ∃ w', Runs Input.Undisturbed (run caseless Sample.twins Sample.approver.id)
      Sample.newDeployment (.error .internal) w' := by
  refine ⟨by decide, by decide, rfl, rfl, by decide, ?_⟩
  have hrun : ∃ w', Sample.seed Sample.twins 100 Sample.newDeployment =
      some (.error .internal, w') := ⟨_, rfl⟩
  obtain ⟨w', hrun⟩ := hrun
  exact ⟨w', runs_of_runAlone hrun⟩

def Sample.seeded : Exit ApiError SeedSummary × World :=
  (Sample.seed Sample.pair 100 Sample.newDeployment).get rfl

theorem run_twice_pair :
    Sample.seeded.2.db.items.rows.map (fun row => (row.slug, row.isActive)) =
      [(some "vpn", true), (some "badge", false)] ∧
    ∀ x' w'',
      Runs Input.Undisturbed (run caseless Sample.pair Sample.approver.id)
      Sample.seeded.2 x' w'' →
        w'' = Sample.seeded.2 ∧ ∃ names, x' = .ok ⟨0, 2, names⟩ := by
  have hrun : Runs Input.Undisturbed
      (run caseless Sample.pair Sample.approver.id)
      Sample.newDeployment Sample.seeded.1 Sample.seeded.2 := by
    have hsome : Sample.seed Sample.pair 100 Sample.newDeployment =
        some Sample.seeded :=
      (Option.some_get _).symm
    exact runs_of_runAlone hsome
  have hdistinct : Sample.pair.Pairwise (Distinct caseless) := by
    refine List.pairwise_pair.mpr ⟨?_, ?_⟩ <;> decide
  have hfree : ∀ item ∈ Sample.pair,
      ¬HasSlug Sample.newDeployment.db item.slug →
      Free caseless Sample.newDeployment.db item :=
    fun _ _ _ =>
      ⟨fun _ hrow => absurd hrow List.not_mem_nil,
        fun _ hrow => absurd hrow List.not_mem_nil⟩
  obtain ⟨_, _, -, -, -, -, -, -, -, hagain⟩ :=
    run_twice (by decide) hdistinct hfree hrun
  exact ⟨rfl, hagain⟩

end CatalogSeed

end Servcat
