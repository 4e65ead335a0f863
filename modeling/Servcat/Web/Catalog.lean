/-
The catalog page: services grouped by category.
-/
import Servcat.Keyed.Grouping
import Servcat.Model.Records

namespace Servcat

open Keyed

namespace Web

/-- Rust's order of strings, by code points. -/
def codesLe : List Char → List Char → Bool
  | [], _ => true
  | _ :: _, [] => false
  | a :: as, b :: bs =>
      if a.toNat = b.toNat then codesLe as bs else decide (a.toNat < b.toNat)

def TextLe (a b : String) : Prop :=
  codesLe a.toList b.toList = true

instance : DecidableRel TextLe := fun _ _ => inferInstanceAs (Decidable (_ = _))

theorem codesLe_refl (cs : List Char) : codesLe cs cs = true := by
  induction cs with
  | nil => rfl
  | cons c cs ih => simpa [codesLe] using ih

theorem codesLe_total (as bs : List Char) :
    codesLe as bs = true ∨ codesLe bs as = true := by
  induction as generalizing bs with
  | nil => exact .inl rfl
  | cons a as ih =>
      cases bs with
      | nil => exact .inr rfl
      | cons b bs =>
          rcases Nat.lt_trichotomy a.toNat b.toNat with hlt | heq | hgt
          · simp [codesLe, hlt.ne, hlt]
          · simpa [codesLe, heq] using ih bs
          · simp [codesLe, hgt.ne, hgt]

theorem codesLe_trans {as bs cs : List Char} (hab : codesLe as bs = true)
    (hbc : codesLe bs cs = true) : codesLe as cs = true := by
  induction as generalizing bs cs with
  | nil => rfl
  | cons a as ih =>
      cases bs with
      | nil => cases hab
      | cons b bs =>
          cases cs with
          | nil => cases hbc
          | cons c cs =>
              simp only [codesLe] at hab hbc ⊢
              by_cases heq : a.toNat = b.toNat
              · rw [if_pos heq] at hab
                by_cases heq' : b.toNat = c.toNat
                · rw [if_pos heq'] at hbc
                  rw [if_pos (heq.trans heq')]
                  exact ih hab hbc
                · rw [if_neg heq'] at hbc
                  rw [heq, if_neg heq']
                  exact hbc
              · rw [if_neg heq, decide_eq_true_eq] at hab
                split at hbc
                · rename_i heq'
                  rw [← heq', if_neg heq, decide_eq_true_eq]
                  exact hab
                · rw [decide_eq_true_eq] at hbc
                  rw [if_neg (by omega), decide_eq_true_eq]
                  omega

theorem codesLe_antisymm {as bs : List Char} (hab : codesLe as bs = true)
    (hba : codesLe bs as = true) : as = bs := by
  induction as generalizing bs with
  | nil =>
      cases bs with
      | nil => rfl
      | cons b bs => cases hba
  | cons a as ih =>
      cases bs with
      | nil => cases hab
      | cons b bs =>
          simp only [codesLe] at hab hba
          by_cases heq : a.toNat = b.toNat
          · rw [if_pos heq] at hab
            rw [if_pos heq.symm] at hba
            rw [Char.toNat_inj.mp heq, ih hab hba]
          · rw [if_neg heq, decide_eq_true_eq] at hab
            rw [if_neg (Ne.symm heq), decide_eq_true_eq] at hba
            omega

instance : IsTrans String TextLe :=
  ⟨fun _ _ _ hab hbc => codesLe_trans hab hbc⟩

instance : Std.Total TextLe :=
  ⟨fun a b => codesLe_total a.toList b.toList⟩

/-- The order in which the listed categories are shown. -/
def categoryOrder : List String :=
  ["Accounts & Access", "Network & Connectivity", "Workstations & Devices",
    "Software", "Printing, Copying & Scanning", "Telephone & Mobile",
    "Audio/Visual & Collaboration", "Servers, Data & Infrastructure",
    "Security & Physical Access", "Other"]

structure CatalogCard where
  item : ServiceCatalogItem
  searchBlob : String
deriving DecidableEq, Repr

structure CategoryGroup where
  name : String
  cards : List CatalogCard
deriving DecidableEq, Repr

/-- `item.details()`. -/
def details (item : ServiceCatalogItem) : CatalogItemDetails :=
  item.detailsJson.getD ⟨[], [], [], []⟩

def categoryOf (item : ServiceCatalogItem) : String :=
  item.category.getD "Other"

/-- `lower` is `str::to_lowercase`. -/
def catalogCard (lower : String → String)
    (item : ServiceCatalogItem) : CatalogCard where
  item := item
  searchBlob :=
    lower item.name ++ " " ++ lower (item.summary.getD "") ++ " " ++
      lower (" ".intercalate (details item).keywords)

/-- By sort order, then by name. -/
def CatalogCard.NotAfter (a b : CatalogCard) : Prop :=
  a.item.sortOrder.toInt < b.item.sortOrder.toInt ∨
    a.item.sortOrder.toInt = b.item.sortOrder.toInt ∧
      TextLe a.item.name b.item.name

instance : DecidableRel CatalogCard.NotAfter := fun _ _ =>
  inferInstanceAs (Decidable (_ ∨ _))

/-- The order in which a hash map goes through its keys. -/
structure HashOrder where
  order : List String → List String
  perm : ∀ keys, (order keys).Perm keys

def buildGroups (lower : String → String) (hash : HashOrder)
    (items : List ServiceCatalogItem) : List CategoryGroup × List String :=
  let byCategory :=
    (Groups.collect categoryOf (catalogCard lower) items).mapLists
      fun cards => cards.insertionSort CatalogCard.NotAfter
  let listed := categoryOrder.filter fun name => decide (name ∈ byCategory.keys)
  let leftover := (hash.order byCategory.keys).filter fun name =>
    decide (name ∉ categoryOrder)
  let names := listed ++ leftover.insertionSort TextLe
  ((byCategory.drain names).map fun entry => ⟨entry.1, entry.2⟩, names)

instance : IsTrans CatalogCard CatalogCard.NotAfter where
  trans a b c hab hbc := by
    rcases hab with hab | ⟨hab, hab'⟩
    · rcases hbc with hbc | ⟨hbc, -⟩
      · exact .inl (hab.trans hbc)
      · exact .inl (hbc ▸ hab)
    · rcases hbc with hbc | ⟨hbc, hbc'⟩
      · exact .inl (hab ▸ hbc)
      · exact .inr ⟨hab.trans hbc, codesLe_trans hab' hbc'⟩

instance : Std.Total CatalogCard.NotAfter where
  total a b := by
    rcases Int.lt_trichotomy a.item.sortOrder.toInt b.item.sortOrder.toInt with
      hlt | heq | hgt
    · exact .inl (.inl hlt)
    · rcases codesLe_total a.item.name.toList b.item.name.toList with hle | hle
      · exact .inl (.inr ⟨heq, hle⟩)
      · exact .inr (.inr ⟨heq.symm, hle⟩)
    · exact .inr (.inl hgt)

section Groups

variable (lower : String → String) (hash : HashOrder)
  (items : List ServiceCatalogItem)

/-- The categories in use, in the order in which the page shows them. -/
def categoryNames : List String :=
  let used := (Groups.collect categoryOf (catalogCard lower) items).keys
  (categoryOrder.filter fun name => decide (name ∈ used)) ++
    ((hash.order used).filter
      fun name => decide (name ∉ categoryOrder)).insertionSort TextLe

/-- The cards of a category, as the page shows them. -/
def cardsOf (name : String) : List CatalogCard :=
  ((items.filter fun item => categoryOf item = name).map
    (catalogCard lower)).insertionSort CatalogCard.NotAfter

variable {lower hash items}

theorem mem_categoryNames {name : String} :
    name ∈ categoryNames lower hash items ↔
      ∃ item ∈ items, categoryOf item = name := by
  have hused : ∀ name, name ∈ hash.order
      (Groups.collect categoryOf (catalogCard lower) items).keys ↔
        ∃ item ∈ items, categoryOf item = name := fun name =>
    (hash.perm _).mem_iff.trans Groups.mem_keys_collect
  simp only [categoryNames, List.mem_append, List.mem_filter,
    List.mem_insertionSort, decide_eq_true_eq, hused, Groups.mem_keys_collect]
  by_cases hlisted : name ∈ categoryOrder <;> simp [hlisted]

theorem nodup_categoryNames : (categoryNames lower hash items).Nodup := by
  refine List.nodup_append.mpr ⟨?_, ?_, ?_⟩
  · exact (by decide : categoryOrder.Nodup).filter _
  · refine (List.perm_insertionSort _ _).nodup_iff.mpr (List.Nodup.filter _ ?_)
    exact (hash.perm _).nodup_iff.mpr (Groups.nodup_keys_collect _ _ _)
  · intro a ha b hb heq
    rw [List.mem_insertionSort, List.mem_filter, decide_eq_true_eq] at hb
    exact hb.2 (heq ▸ (List.mem_filter.mp ha).1)

/-- The page takes from the map what a look at the whole list would give. -/
theorem buildGroups_eq : buildGroups lower hash items =
    ((categoryNames lower hash items).map
      fun name => ⟨name, cardsOf lower items name⟩,
      categoryNames lower hash items) := by
  have hkeys : ((Groups.collect categoryOf (catalogCard lower) items).mapLists
      fun cards => cards.insertionSort CatalogCard.NotAfter).keys =
        (Groups.collect categoryOf (catalogCard lower) items).keys :=
    Groups.keys_mapLists _ _
  have hnames : buildGroups lower hash items = ((((Groups.collect categoryOf
      (catalogCard lower) items).mapLists fun cards =>
        cards.insertionSort CatalogCard.NotAfter).drain
          (categoryNames lower hash items)).map
            (fun entry => ⟨entry.1, entry.2⟩),
        categoryNames lower hash items) := by
    simp only [buildGroups, hkeys]
    rfl
  rw [hnames, Groups.drain_eq nodup_categoryNames, List.map_map]
  congr 1
  refine List.map_congr_left fun name _ => ?_
  simp only [Function.comp_apply, CategoryGroup.mk.injEq, true_and]
  rw [Groups.get_mapLists rfl, Groups.get_collect]
  rfl

theorem mem_cardsOf {name : String} {card : CatalogCard} :
    card ∈ cardsOf lower items name ↔
      ∃ item ∈ items, categoryOf item = name ∧
        catalogCard lower item = card := by
  simp [cardsOf, and_assoc]

/-- Cards of one sort order and name are shown in the order the
items came in. -/
theorem filter_cardsOf (name : String) (sortOrder : Int32) (itemName : String) :
    ((cardsOf lower items name).filter fun card =>
      card.item.sortOrder = sortOrder ∧ card.item.name = itemName) =
      (items.filter fun item => categoryOf item = name ∧
        item.sortOrder = sortOrder ∧
        item.name = itemName).map (catalogCard lower) := by
  have hmap : ∀ l : List ServiceCatalogItem,
      ((l.map (catalogCard lower)).filter fun card =>
        card.item.sortOrder = sortOrder ∧ card.item.name = itemName) =
        (l.filter fun item => item.sortOrder = sortOrder ∧
          item.name = itemName).map (catalogCard lower) := fun l => by
    rw [List.filter_map]
    rfl
  rw [cardsOf, filter_insertionSort]
  · rw [hmap, List.filter_filter]
    congr 1
    refine List.filter_congr fun item _ => ?_
    simp only [← Bool.decide_and]
    exact decide_eq_decide.mpr (by tauto)
  · intro a b ha hb
    simp only [decide_eq_true_eq] at ha hb
    refine .inr ⟨by rw [ha.1, hb.1], ?_⟩
    rw [ha.2, hb.2]
    exact codesLe_refl _

variable (lower hash items)

/-- The page shows every service once, in the section of its category: the
listed categories first, in their order, the others after them by name. -/
theorem build_groups_partition :
    ((buildGroups lower hash items).1.map CategoryGroup.name).Nodup ∧
      (∀ group ∈ (buildGroups lower hash items).1, group.cards ≠ []) ∧
      ((buildGroups lower hash items).1.flatMap CategoryGroup.cards).Perm
        (items.map (catalogCard lower)) ∧
      (∀ group ∈ (buildGroups lower hash items).1, ∀ card ∈ group.cards,
        categoryOf card.item = group.name) ∧
      (∃ others, (buildGroups lower hash items).1.map CategoryGroup.name =
          (categoryOrder.filter fun name =>
            decide (name ∈ (buildGroups lower hash items).1.map
              CategoryGroup.name)) ++
            others ∧
        (∀ name ∈ others, name ∉ categoryOrder) ∧ others.Pairwise TextLe) ∧
      (∀ group ∈ (buildGroups lower hash items).1,
        group.cards.Pairwise CatalogCard.NotAfter ∧
        ∀ sortOrder name, (group.cards.filter fun card =>
            card.item.sortOrder = sortOrder ∧ card.item.name = name) =
          (items.filter fun item => categoryOf item = group.name ∧
            item.sortOrder = sortOrder ∧ item.name = name).map
              (catalogCard lower)) ∧
      (buildGroups lower hash items).2 =
        (buildGroups lower hash items).1.map CategoryGroup.name := by
  have hnames : (categoryNames lower hash items).map
      (CategoryGroup.name ∘ fun name => ⟨name, cardsOf lower items name⟩) =
        categoryNames lower hash items := List.map_id _
  rw [buildGroups_eq]
  simp only [List.map_map, hnames, List.forall_mem_map, List.flatMap_map]
  refine ⟨nodup_categoryNames, fun name hname hnil => ?_, ?_,
    fun name _ card hcard => ?_, ?_,
    fun name _ => ⟨List.pairwise_insertionSort _ _, filter_cardsOf name⟩,
    trivial⟩
  · obtain ⟨item, hitem, hcategory⟩ := mem_categoryNames.mp hname
    have hcard : catalogCard lower item ∈ cardsOf lower items name :=
      mem_cardsOf.mpr ⟨item, hitem, hcategory, rfl⟩
    rw [hnil] at hcard
    exact absurd hcard List.not_mem_nil
  · refine .trans (.flatMap_left _ fun name _ => List.perm_insertionSort _ _) ?_
    rw [← List.map_flatMap]
    refine .map _ (flatMap_filter_perm nodup_categoryNames fun item hitem => ?_)
    exact mem_categoryNames.mpr ⟨item, hitem, rfl⟩
  · obtain ⟨item, hitem, hcategory, rfl⟩ := mem_cardsOf.mp hcard
    exact hcategory
  · refine ⟨_, congrArg (· ++ _) (List.filter_congr fun name hname => ?_), ?_,
      List.pairwise_insertionSort _ _⟩
    · rw [decide_eq_decide, mem_categoryNames, Groups.mem_keys_collect]
    · intro name hname
      rw [List.mem_insertionSort, List.mem_filter, decide_eq_true_eq] at hname
      exact hname.2

end Groups

end Web

end Servcat
