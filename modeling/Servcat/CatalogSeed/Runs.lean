/-
Complete runs of the seed: which items a run adds, and what it leaves behind
when a statement stops it.
-/
import Servcat.CatalogSeed.Effects

namespace Servcat

open Atomic Keyed

namespace CatalogSeed

variable {collation : String → String → Bool} {createdBy : Uuid} {index : Nat}
  {item : SeedItem} {items : List SeedItem} {entries : List Entry}
  {db db' mid : Db} {inputs : List Input} {w w' : World}

/-- The items whose slugs are not known, with their places in the file, the
first of which is `index`. -/
def missing (known : String → Bool) (index : Nat) (items : List SeedItem) :
    List (SeedItem × Nat) :=
  (items.zipIdx index).filter fun entry => !known entry.1.slug

/-- Some catalog item has the slug. -/
def HasSlug (db : Db) (slug : String) : Prop :=
  ∃ row ∈ db.items.rows, row.slug = some slug

instance (db : Db) (slug : String) : Decidable (HasSlug db slug) :=
  inferInstanceAs (Decidable (∃ row ∈ db.items.rows, row.slug = some slug))

/-- The items that are not in the catalog. -/
def absent (db : Db) (items : List SeedItem) : List (SeedItem × Nat) :=
  missing (fun slug => decide (HasSlug db slug)) 0 items

/-- The items that are in the catalog. -/
def present (known : String → Bool) (items : List SeedItem) : List SeedItem :=
  items.filter fun item => known item.slug

def Entry.place (entry : Entry) : SeedItem × Nat :=
  (entry.item, entry.index)

/-- Entries were added one after the other. -/
inductive AddsAll (collation : String → String → Bool) (createdBy : Uuid) :
    List Entry → Db → Db → Prop
  | nil {db : Db} : AddsAll collation createdBy [] db db
  | cons {entry : Entry} {entries : List Entry} {db mid db' : Db}
      (hadds : Adds collation createdBy entry db mid)
      (hrest : AddsAll collation createdBy entries mid db') :
      AddsAll collation createdBy (entry :: entries) db db'

theorem AddsAll.append {entries' : List Entry}
    (h : AddsAll collation createdBy entries db mid)
    (h' : AddsAll collation createdBy entries' mid db') :
    AddsAll collation createdBy (entries ++ entries') db db' := by
  induction h with
  | nil => exact h'
  | cons hadds _ ih => exact .cons hadds (ih h')

/-- The statements that add these items. -/
def itemSites (todo : List (SeedItem × Nat)) : List Statement :=
  todo.flatMap fun entry => statements entry.1

/-- The statements of a run that has these items to add. -/
def sites (todo : List (SeedItem × Nat)) : List Statement :=
  .listItems :: itemSites todo

/-- Every item of the list was added, active as the file says. -/
structure Completed (collation : String → String → Bool) (createdBy : Uuid)
    (todo : List (SeedItem × Nat)) (entries : List Entry)
    (w w' : World) : Prop where
  places : entries.map Entry.place = todo
  active : ∀ entry ∈ entries, entry.isActive = entry.item.published
  adds : ∃ db, AddsAll collation createdBy entries w.db db ∧ w' = { w with db }

/-- What a run leaves behind when a statement for one of these items fails. -/
inductive Stopped (collation : String → String → Bool) (createdBy : Uuid)
    (todo : List (SeedItem × Nat)) (statement : Statement) (fault : Fault)
    (w w' : World) : Prop
  | at {mid : World} {entries : List Entry} {item : SeedItem} {index : Nat}
      {before after : List (SeedItem × Nat)}
      (htodo : todo = before ++ (item, index) :: after)
      (hbefore : Completed collation createdBy before entries w mid)
      (hbroken : Broken collation createdBy index item statement fault mid w') :
      Stopped collation createdBy todo statement fault w w'

theorem missing_cons (known : String → Bool) (index : Nat) (item : SeedItem)
    (items : List SeedItem) :
    missing known index (item :: items) =
      if known item.slug = true then missing known (index + 1) items
      else (item, index) :: missing known (index + 1) items := by
  cases hknown : known item.slug <;> simp [missing, List.zipIdx_cons, hknown]

theorem Completed.nil : Completed collation createdBy [] [] w w :=
  ⟨rfl, by simp, w.db, .nil, rfl⟩

theorem Completed.cons {entry : Entry} {todo : List (SeedItem × Nat)}
    (hadds : Adds collation createdBy entry w.db db)
    (hactive : entry.isActive = entry.item.published)
    (hrest : Completed collation createdBy todo entries { w with db } w') :
    Completed collation createdBy (entry.place :: todo)
      (entry :: entries) w w' := by
  obtain ⟨hplaces, hactives, db', hall, rfl⟩ := hrest
  exact ⟨by rw [List.map_cons, hplaces],
    List.forall_mem_cons.mpr ⟨hactive, hactives⟩, db', .cons hadds hall, rfl⟩

theorem Stopped.cons {entry : Entry} {todo : List (SeedItem × Nat)}
    {statement : Statement} {fault : Fault}
    (hadds : Adds collation createdBy entry w.db db)
    (hactive : entry.isActive = entry.item.published)
    (hrest : Stopped collation createdBy todo statement fault
      { w with db } w') :
    Stopped collation createdBy (entry.place :: todo) statement fault w w' := by
  obtain ⟨rfl, hbefore, hbroken⟩ := hrest
  exact .at List.cons_append.symm (hbefore.cons hadds hactive) hbroken

/-- All ways in which the loop over the items ends. -/
theorem runLoop_cases {slugs : List String} {summary : SeedSummary}
    {x : Exit ApiError SeedSummary}
    (h : Consumes Input.Drawn
      (runLoop collation createdBy slugs summary index items) inputs w x w') :
    (∃ entries,
      Completed collation createdBy
        (missing slugs.contains index items) entries w w' ∧
      x = .ok
        { added := summary.added + entries.length
          skipped := summary.skipped + (present slugs.contains items).length
          skippedNames := summary.skippedNames ++
            (present slugs.contains items).map SeedItem.name }) ∨
    ∃ before i statement e, inputs = before ++ [i] ∧
      (itemSites (missing slugs.contains index items))[before.length]? =
        some statement ∧
      x = .error e ∧
      Stopped collation createdBy (missing slugs.contains index items)
        statement i.fault w w' := by
  induction items generalizing index summary inputs w with
  | nil =>
      obtain ⟨-, rfl, rfl⟩ := h.of_exit
      exact .inl ⟨[], .nil, by simp [present]⟩
  | cons item rest ih =>
      unfold runLoop at h
      rw [missing_cons]
      by_cases hknown : slugs.contains item.slug = true
      · rw [if_pos hknown] at h ⊢
        rcases ih h with ⟨entries, hcompleted, rfl⟩ | hstopped
        · refine .inl ⟨entries, hcompleted, ?_⟩
          simp only [present, List.filter_cons, hknown, ↓reduceIte,
            List.length_cons, List.map_cons, List.append_assoc,
            List.singleton_append]
          rw [Nat.add_assoc, Nat.add_comm 1]
        · exact .inr hstopped
      · rw [if_neg hknown] at h ⊢
        have hpresent : present slugs.contains (item :: rest) =
            present slugs.contains rest :=
          List.filter_cons_of_neg hknown
        rw [hpresent]
        obtain ⟨before, after, y, u, rfl, hadd, hrest⟩ := h.of_bind
        rcases addItem_cases hadd with
          ⟨entry, db, rfl, rfl, hactive, hadds, rfl, rfl, hlength⟩ |
          ⟨before, i, statement, e, rfl, hstatement, rfl, hbroken⟩
        · rcases ih hrest with ⟨entries, hcompleted, rfl⟩ |
            ⟨front, i, statement, e, rfl, hstatement, rfl, hstopped⟩
          · refine .inl ⟨entry :: entries, hcompleted.cons hadds hactive, ?_⟩
            rw [List.length_cons, Nat.add_assoc, Nat.add_comm 1]
          · refine .inr ⟨before ++ front, i, statement, e,
              (List.append_assoc _ _ _).symm, ?_, rfl, ?_⟩
            · rw [← hstatement]
              simp only [itemSites, List.flatMap_cons, List.length_append]
              rw [Nat.zero_add] at hlength
              rw [hlength, List.getElem?_append_right (Nat.le_add_right _ _),
                Nat.add_sub_cancel_left]
            · exact hstopped.cons hadds hactive
        · obtain ⟨rfl, rfl, rfl⟩ := hrest.of_exit
          refine .inr ⟨before, i, statement, e, List.append_nil _, ?_, rfl,
            .at (List.nil_append _).symm .nil hbroken⟩
          simp only [itemSites, List.flatMap_cons]
          rw [Nat.zero_add] at hstatement
          rw [List.getElem?_append_left
            (List.getElem?_eq_some_iff.mp hstatement).1, hstatement]

/-- The set of slugs that a run begins with. -/
theorem existingSlugs_contains (db : Db) :
    (((db.items.rows.filter fun item => true || item.isActive).insertionSort
      fun a b =>
      Repositories.Catalog.ordered collation a b = true).filterMap
        ServiceCatalogItem.slug).contains =
      fun slug => decide (HasSlug db slug) := by
  funext slug
  rw [Bool.eq_iff_iff, decide_eq_true_eq]
  simp [HasSlug, List.mem_insertionSort]

/-- All ways in which a run of the seed ends. -/
theorem run_cases {x : Exit ApiError SeedSummary}
    (h : Consumes Input.Drawn (run collation items createdBy) inputs w x w') :
    (∃ entries, Completed collation createdBy (absent w.db items) entries w w' ∧
      x = .ok
        { added := entries.length
          skipped :=
            (present (fun slug => decide (HasSlug w.db slug)) items).length
          skippedNames :=
            (present (fun slug => decide (HasSlug w.db slug)) items).map
            SeedItem.name }) ∨
    ∃ before i statement e, inputs = before ++ [i] ∧
      (sites (absent w.db items))[before.length]? = some statement ∧
        x = .error e ∧
      (statement = .listItems ∧ i.fault ≠ .none ∧ w' = w ∨
        Stopped collation createdBy (absent w.db items) statement i.fault
          w w') := by
  obtain ⟨before, after, y, u, rfl, hlist, hloop⟩ := h.of_bind
  obtain ⟨z, rfl, hselect⟩ := hlist.of_mapError
  obtain ⟨i, rfl, rfl, ⟨hi, rfl⟩ | ⟨hi, rfl⟩⟩ := select_cases hselect
  · have hcases := runLoop_cases hloop
    rw [existingSlugs_contains] at hcases
    rcases hcases with ⟨entries, hcompleted, rfl⟩ |
      ⟨front, j, statement, e, rfl, hstatement, rfl, hstopped⟩
    · exact .inl ⟨entries, hcompleted, by simp⟩
    · exact .inr ⟨i :: front, j, statement, e, rfl, hstatement, rfl,
        .inr hstopped⟩
  · obtain ⟨rfl, rfl, rfl⟩ := hloop.of_exit
    exact .inr ⟨[], i, _, _, rfl, rfl, rfl, .inl ⟨rfl, hi, rfl⟩⟩

end CatalogSeed

end Servcat
