/-
Saving a catalog item that nobody edited: what the form makes of the fields it
was sent, and when the catalog looks the same afterwards.
-/
import Servcat.Sample
import Servcat.Web.Lines
import Servcat.Web.NumberBranches

namespace Servcat

open Atomic Keyed Numeric Html

namespace Web

/-- A line without null characters. -/
def denulled (line : String) : String :=
  String.ofList (line.toList.map replaced)

theorem isWhitespace_replaced (c : Char) :
    isWhitespace (replaced c) = isWhitespace c := by
  unfold replaced
  split
  · rename_i hc
    simp only [isWhitespace, hc]
    decide
  · rfl

theorem trim_denulled (line : String) :
    trim isWhitespace (denulled line) = denulled (trim isWhitespace line) := by
  have hspace : isWhitespace ∘ replaced = isWhitespace :=
    funext isWhitespace_replaced
  simp only [trim, denulled, String.toList_ofList, List.dropWhile_map,
    ← List.map_reverse, hspace]

/-- The lines that come back from a textarea are the lines that went in. -/
theorem linesToVec_textarea {lines : List String}
    (h : ∀ line ∈ lines, Line line.toList ∧ trim isWhitespace line = line) :
    linesToVec (textarea ("\n".intercalate lines)) = lines.map denulled := by
  rw [textarea_intercalate fun line hline => (h line hline).1]
  refine linesToVec_join ['\r'] (List.forall_mem_singleton.mpr (by decide))
    (by decide) fun line hline => ?_
  obtain ⟨sent, hsent, rfl⟩ := List.mem_map.mp hline
  obtain ⟨hline, htrim⟩ := h sent hsent
  obtain ⟨hne, hfeed, -⟩ := hline.map_replaced
  have hlist : (denulled sent).toList = sent.toList.map replaced :=
    String.toList_ofList
  refine ⟨(trim_denulled sent).trans (congrArg denulled htrim),
    fun hempty => hne ?_, ?_⟩
  · rw [← hlist]
    exact congrArg String.toList hempty
  · rw [String.toList_ofList]
    exact hfeed

theorem isWhitespace_of_isDigit {c : Char}
    (h : c.isDigit = true) : isWhitespace c = false := by
  have hrange : 48 ≤ c.toNat ∧ c.toNat ≤ 57 := by
    simpa [Char.isDigit, UInt32.le_iff_toNat_le] using h
  simp only [isWhitespace, Bool.or_eq_false_iff, Bool.and_eq_false_iff,
    decide_eq_false_iff_not, beq_eq_false_iff_ne]
  omega

theorem toString_natCast (n : ℕ) :
    toString (n : Int) = String.ofList (Nat.toDigits 10 n) :=
  Nat.toString_eq_ofList_toDigits

theorem isDigit_toString {n : ℕ} {c : Char}
    (hc : c ∈ (toString (n : Int)).toList) :
    c.isDigit = true := by
  rw [toString_natCast, String.toList_ofList] at hc
  exact Nat.isDigit_of_mem_toDigits (by decide) (by decide) hc

theorem parseI32_toString {value : Int32} (h : 0 ≤ value.toInt) :
    parseI32 (toString value.toInt) = some value := by
  obtain ⟨n, hn⟩ := Int.eq_ofNat_of_zero_le h
  have hdigits := digitsValue?_eq_some (by simp : Nat.toDigits 10 n ≠ [])
    fun c hc => Nat.isDigit_of_mem_toDigits (by decide) (by decide) hc
  have hsigned : signed (Nat.toDigits 10 n) = (false, Nat.toDigits 10 n) := by
    unfold signed
    split
    · rename_i rest heq
      have hmem : '+' ∈ Nat.toDigits 10 n := heq ▸ List.mem_cons_self
      exact absurd (Nat.isDigit_of_mem_toDigits (by decide) (by decide) hmem)
        (by decide)
    · rename_i rest heq
      have hmem : '-' ∈ Nat.toDigits 10 n := heq ▸ List.mem_cons_self
      exact absurd (Nat.isDigit_of_mem_toDigits (by decide) (by decide) hmem)
        (by decide)
    · rfl
  have hlow := value.minValue_le_toInt
  have hhigh := value.toInt_le
  rw [Nat.ofDigitChars_ten_toDigits] at hdigits
  rw [hn] at hlow hhigh
  rw [hn, parseI32, toString_natCast, String.toList_ofList, hsigned]
  simp only [hdigits, Option.bind_some, Bool.false_eq_true, if_false]
  rw [if_pos ⟨hlow, hhigh⟩, ← hn, Int32.ofInt_toInt]

theorem TargetUnit.parse_asStr (unit : TargetUnit) :
    TargetUnit.parse unit.asStr = .ok unit := by
  cases unit <;> rfl

theorem parseTarget_rendered {item : ServiceCatalogItem} (h : TargetSet item) :
    parseTarget (item.targetValue.elim "" fun value => toString value.toInt)
      (item.targetUnit.elim "" TargetUnit.asStr) =
        .ok (item.targetValue, item.targetUnit) := by
  rcases h with ⟨value, unit, hvalue, hunit, hnonneg⟩ | ⟨hvalue, hunit⟩
  · have htext : trim isWhitespace (toString value.toInt) =
        toString value.toInt := by
      obtain ⟨n, hn⟩ := Int.eq_ofNat_of_zero_le hnonneg
      rw [hn]
      exact trim_eq_self fun c hc =>
        isWhitespace_of_isDigit (isDigit_toString hc)
    have hne : toString value.toInt ≠ "" := by
      obtain ⟨n, hn⟩ := Int.eq_ofNat_of_zero_le hnonneg
      rw [hn, toString_natCast]
      simp
    have hunitText : trim isWhitespace unit.asStr = unit.asStr ∧
        unit.asStr ≠ "" := by
      cases unit <;> decide
    rw [hvalue, hunit]
    simp only [Option.elim_some, parseTarget, htext, hunitText.1, hne,
      hunitText.2, false_and, or_self, if_false, parseI32_toString hnonneg,
      TargetUnit.parse_asStr]
    rw [if_neg (not_lt.mpr hnonneg)]
  · rw [hvalue, hunit]
    rfl

section Saved

variable (item : ServiceCatalogItem)

/-- All lines of the details. -/
def detailLines : List String :=
  (details item).included ++ (details item).notIncluded ++
    (details item).needed ++ (details item).keywords

/-- The item as the form leaves it. -/
def saved : ServiceCatalogItem :=
  { item with
    name := textInput item.name
    description := some (textarea (item.description.getD ""))
    summary := some (textInput (item.summary.getD ""))
    detailsJson := some {
      included := (details item).included.map denulled
      notIncluded := (details item).notIncluded.map denulled
      needed := (details item).needed.map denulled
      keywords := (details item).keywords.map denulled }
    approvalLabel := some (textInput (item.approvalLabel.getD ""))
    category := some (textInput (item.category.getD ""))
    icon := some (textInput (item.icon.getD "")) }

variable {item}

theorem patched_submission {page : CatalogEditTemplate} {form : CatalogItemForm}
    (hitem : page.item = item) (hdetails : page.details = details item)
    (htarget : TargetSet item)
    (hlines : ∀ line ∈ detailLines item,
      Line line.toList ∧ trim isWhitespace line = line)
    (hform : page.submission = some form) :
    ∃ patch, Catalog.patchFromForm form = .ok patch ∧
      Db.patched patch item = saved item := by
  simp only [detailLines, List.forall_mem_append] at hlines
  obtain ⟨⟨⟨hincluded, hnotIncluded⟩, hneeded⟩, hkeywords⟩ := hlines
  unfold CatalogEditTemplate.submission at hform
  split at hform
  · cases hform
  · rw [hitem, hdetails, Option.some.injEq] at hform
    subst hform
    refine ⟨_,
      by rw [Catalog.patchFromForm, parseTarget_rendered htarget]; rfl, ?_⟩
    have hself : ∀ {α : Type} (o : Option α), (o <|> o) = o :=
      fun o => by cases o <;> rfl
    simp only [Db.patched, detailsFromForm, linesToVec_textarea hincluded,
      linesToVec_textarea hnotIncluded, linesToVec_textarea hneeded,
      linesToVec_textarea hkeywords, hself]
    rfl

end Saved

section Seen

/-- What a card says. -/
structure CardText where
  id : Uuid
  icon : String
  name : String
  summary : String
  searchBlob : String
deriving DecidableEq

def CatalogCard.text (card : CatalogCard) : CardText where
  id := card.item.id
  icon := card.item.icon.getD ""
  name := card.item.name
  summary := card.item.summary.getD ""
  searchBlob := card.searchBlob

def CategoryGroup.text (group : CategoryGroup) : String × List CardText :=
  (group.name, group.cards.map CatalogCard.text)

/-- The sections of the catalog, with their cards, and the categories to
choose from. -/
def shown (lower : String → String) (hash : HashOrder)
    (items : List ServiceCatalogItem) :
    List (String × List CardText) × List String :=
  ((buildGroups lower hash items).1.map CategoryGroup.text,
    (buildGroups lower hash items).2)

/-- Two items that differ in nothing the catalog shows or sorts by. -/
structure Alike (lower : String → String)
    (a b : ServiceCatalogItem) : Prop where
  category : a.category = b.category
  sortOrder : a.sortOrder = b.sortOrder
  text : (catalogCard lower a).text = (catalogCard lower b).text

variable {lower : String → String} {items : List ServiceCatalogItem}

theorem Alike.refl (a : ServiceCatalogItem) : Alike lower a a :=
  ⟨rfl, rfl, rfl⟩

theorem Alike.name {a b : ServiceCatalogItem}
    (h : Alike lower a b) : a.name = b.name :=
  congrArg CardText.name h.text

theorem Alike.categoryOf {a b : ServiceCatalogItem} (h : Alike lower a b) :
    categoryOf a = categoryOf b :=
  congrArg (·.getD "Other") h.category

theorem shown_eq (hash : HashOrder) : shown lower hash items =
    ((categoryNames lower hash items).map fun name =>
        (name, (cardsOf lower items name).map CatalogCard.text),
      categoryNames lower hash items) := by
  rw [shown, buildGroups_eq, List.map_map]
  rfl

/-- The order of the sections depends on which categories are in use, and on
nothing else. -/
theorem categoryNames_congr {items' : List ServiceCatalogItem}
    (hash hash' : HashOrder)
    (h : ∀ name, (∃ item ∈ items, categoryOf item = name) ↔
      ∃ item ∈ items', categoryOf item = name) :
    categoryNames lower hash items = categoryNames lower hash' items' := by
  have hused : ∀ name,
      name ∈ (Groups.collect categoryOf (catalogCard lower) items).keys ↔
        name ∈ (Groups.collect categoryOf (catalogCard lower) items').keys :=
      fun name => by
    rw [Groups.mem_keys_collect, Groups.mem_keys_collect, h]
  have hperm : (hash.order
      (Groups.collect categoryOf (catalogCard lower) items).keys).Perm
      (hash'.order (Groups.collect categoryOf (catalogCard lower)
        items').keys) := by
    refine (hash.perm _).trans (.trans ?_ (hash'.perm _).symm)
    exact (List.perm_ext_iff_of_nodup (Groups.nodup_keys_collect _ _ _)
      (Groups.nodup_keys_collect _ _ _)).mpr hused
  unfold categoryNames
  refine congrArg₂ (· ++ ·)
    (List.filter_congr fun name _ => decide_eq_decide.mpr (hused name)) ?_
  refine List.Perm.eq_of_pairwise (fun a b _ _ hab hba => ?_)
    (List.pairwise_insertionSort _ _) (List.pairwise_insertionSort _ _) ?_
  · exact String.toList_inj.mp (codesLe_antisymm hab hba)
  · exact (List.perm_insertionSort _ _).trans
      ((hperm.filter _).trans (List.perm_insertionSort _ _).symm)

theorem cardsOf_map {f : ServiceCatalogItem → ServiceCatalogItem}
    (h : ∀ item ∈ items, Alike lower (f item) item) (name : String) :
    (cardsOf lower (items.map f) name).map CatalogCard.text =
      (cardsOf lower items name).map CatalogCard.text := by
  let g : CatalogCard → CatalogCard :=
    fun card => catalogCard lower (f card.item)
  let here := items.filter fun item => categoryOf item = name
  have hhere : (items.map f).filter (fun item => categoryOf item = name) =
      here.map f := by
    rw [List.filter_map]
    congr 1
    refine List.filter_congr fun item hitem => ?_
    simp only [Function.comp_apply, (h item hitem).categoryOf]
  have hkeys : ∀ a ∈ here.map (catalogCard lower),
      ∀ b ∈ here.map (catalogCard lower),
      CatalogCard.NotAfter a b ↔ CatalogCard.NotAfter (g a) (g b) := by
    simp only [List.forall_mem_map]
    intro a ha b hb
    have ha := h a (List.mem_of_mem_filter ha)
    have hb := h b (List.mem_of_mem_filter hb)
    simp only [CatalogCard.NotAfter, g, catalogCard, ha.sortOrder,
      hb.sortOrder, ha.name, hb.name]
  have hsorted := List.map_insertionSort (r := CatalogCard.NotAfter)
    (s := CatalogCard.NotAfter) g _ hkeys
  have hmap : (here.map (catalogCard lower)).map g =
      (here.map f).map (catalogCard lower) := by
    rw [List.map_map, List.map_map]
    rfl
  rw [cardsOf, hhere, ← hmap, ← hsorted, List.map_map]
  refine List.map_congr_left fun card hcard => ?_
  rw [List.mem_insertionSort] at hcard
  obtain ⟨item, hitem, rfl⟩ := List.mem_map.mp hcard
  exact (h item (List.mem_of_mem_filter hitem)).text

theorem shown_map {f : ServiceCatalogItem → ServiceCatalogItem}
    (h : ∀ item ∈ items, Alike lower (f item) item) (hash hash' : HashOrder) :
    shown lower hash (items.map f) = shown lower hash' items := by
  have hnames : categoryNames lower hash (items.map f) =
      categoryNames lower hash' items := by
    refine categoryNames_congr hash hash' fun name => ?_
    constructor
    · rintro ⟨_, hmem, rfl⟩
      obtain ⟨item, hitem, rfl⟩ := List.mem_map.mp hmem
      exact ⟨item, hitem, (h item hitem).categoryOf.symm⟩
    · rintro ⟨item, hitem, rfl⟩
      exact ⟨f item, List.mem_map_of_mem hitem, (h item hitem).categoryOf⟩
  rw [shown_eq, shown_eq, hnames]
  simp only [cardsOf_map h]

theorem shown_hash (hash hash' : HashOrder) :
    shown lower hash items = shown lower hash' items := by
  have h : shown lower hash (items.map id) = shown lower hash' items :=
    shown_map (fun item _ => .refl item) hash hash'
  rwa [List.map_id] at h

theorem mem_shown {hash : HashOrder} {name : String} {text : CardText} :
    (∃ group ∈ (shown lower hash items).1, group.1 = name ∧ text ∈ group.2) ↔
      ∃ item ∈ items, categoryOf item = name ∧
        (catalogCard lower item).text = text := by
  rw [shown_eq]
  constructor
  · rintro ⟨_, hgroup, rfl, htext⟩
    obtain ⟨name, -, rfl⟩ := List.mem_map.mp hgroup
    obtain ⟨card, hcard, rfl⟩ := List.mem_map.mp htext
    obtain ⟨item, hitem, hcategory, rfl⟩ := mem_cardsOf.mp hcard
    exact ⟨item, hitem, hcategory, rfl⟩
  · rintro ⟨item, hitem, hcategory, rfl⟩
    have hname : name ∈ categoryNames lower hash items :=
      mem_categoryNames.mpr ⟨item, hitem, hcategory⟩
    refine ⟨_, List.mem_map_of_mem hname, rfl, ?_⟩
    exact List.mem_map_of_mem (mem_cardsOf.mpr ⟨item, hitem, hcategory, rfl⟩)

end Seen

section Kept

/-- What else is shown of an item has not changed. -/
structure SameItem (old new : ServiceCatalogItem) : Prop where
  details : details new = details old
  targetValue : new.targetValue = old.targetValue
  targetUnit : new.targetUnit = old.targetUnit
  approvalLabel : new.approvalLabel = old.approvalLabel
  isActive : new.isActive = old.isActive

/-- An item that its form leaves where it is, if that is to be seen. -/
structure Settled (item : ServiceCatalogItem) : Prop where
  category : ∃ category, item.category = some category ∧ Plain category
  name : Plain item.name
  summary : Plain (item.summary.getD "")
  icon : Plain (item.icon.getD "")

/-- An item that its form leaves as it is. -/
structure Kept (item : ServiceCatalogItem) : Prop where
  details : ∀ line ∈ detailLines item, ∀ c ∈ line.toList, c.toNat ≠ 0
  approvalLabel : ∃ label, item.approvalLabel = some label ∧ Plain label
  settled : item.isActive = true → Settled item

variable {item : ServiceCatalogItem} {lower : String → String}

theorem denulled_eq_self {line : String} :
    denulled line = line ↔ ∀ c ∈ line.toList, c.toNat ≠ 0 := by
  rw [← map_replaced_eq_self, denulled, ← String.toList_inj,
    String.toList_ofList]

theorem map_denulled_eq_self {lines : List String} :
    lines.map denulled = lines ↔
      ∀ line ∈ lines, ∀ c ∈ line.toList, c.toNat ≠ 0 := by
  conv_lhs => rhs; rw [← List.map_id lines]
  rw [List.map_inj_left]
  simp only [id, denulled_eq_self]

theorem details_saved : details (saved item) = details item ↔
    ∀ line ∈ detailLines item, ∀ c ∈ line.toList, c.toNat ≠ 0 := by
  change CatalogItemDetails.mk _ _ _ _ = details item ↔ _
  rw [detailLines]
  cases details item
  simp only [CatalogItemDetails.mk.injEq, map_denulled_eq_self,
    List.forall_mem_append, and_assoc]

theorem sameItem_saved : SameItem item (saved item) ↔
    (∀ line ∈ detailLines item, ∀ c ∈ line.toList, c.toNat ≠ 0) ∧
      ∃ label, item.approvalLabel = some label ∧ Plain label := by
  have hlabel : (saved item).approvalLabel = item.approvalLabel ↔
      ∃ label, item.approvalLabel = some label ∧ Plain label := by
    change some _ = item.approvalLabel ↔ _
    cases item.approvalLabel with
    | none => simp
    | some label => simp [textInput_eq_self_iff]
  constructor
  · exact fun h => ⟨details_saved.mp h.details, hlabel.mp h.approvalLabel⟩
  · exact fun h => ⟨details_saved.mpr h.1, rfl, rfl, hlabel.mpr h.2, rfl⟩

theorem settled_of_text (hcategory : categoryOf (saved item) = categoryOf item)
    (htext : (catalogCard lower (saved item)).text =
      (catalogCard lower item).text) :
    Settled item := by
  refine ⟨?_, textInput_eq_self_iff.mp (congrArg CardText.name htext),
    textInput_eq_self_iff.mp (congrArg CardText.summary htext),
    textInput_eq_self_iff.mp (congrArg CardText.icon htext)⟩
  change textInput (item.category.getD "") =
    item.category.getD "Other" at hcategory
  cases hnone : item.category with
  | none =>
      rw [hnone] at hcategory
      exact absurd hcategory (by decide)
  | some category =>
      rw [hnone] at hcategory
      exact ⟨category, rfl, textInput_eq_self_iff.mp hcategory⟩

theorem Settled.alike (h : Settled item)
    (hdetails : ∀ line ∈ detailLines item, ∀ c ∈ line.toList, c.toNat ≠ 0) :
    Alike lower (saved item) item := by
  obtain ⟨⟨category, hsome, hcategory⟩, hname, hsummary, hicon⟩ := h
  have hname' : (saved item).name = item.name := textInput_eq_self_iff.mpr hname
  have hsummary' : (saved item).summary.getD "" = item.summary.getD "" :=
    textInput_eq_self_iff.mpr hsummary
  have hicon' : (saved item).icon.getD "" = item.icon.getD "" :=
    textInput_eq_self_iff.mpr hicon
  refine ⟨?_, rfl, ?_⟩
  · change some (textInput (item.category.getD "")) = item.category
    rw [hsome]
    exact congrArg some (textInput_eq_self_iff.mpr hcategory)
  · simp only [CatalogCard.text, catalogCard, hname', hsummary', hicon',
      details_saved.mpr hdetails]
    rfl

end Kept

namespace Catalog

section Edit

variable {collation : String → String → Bool} {lower : String → String}
  {w : World} {user : User} {id : Uuid} {item : ServiceCatalogItem}
  {patch : UpdateServiceCatalogItem}

theorem ordered_congr {a b c d : ServiceCatalogItem} (hac : Alike lower a c)
    (hbd : Alike lower b d) : Repositories.Catalog.ordered collation a b =
      Repositories.Catalog.ordered collation c d := by
  simp only [Repositories.Catalog.ordered, Repositories.Catalog.ordered.tie,
    hac.category, hbd.category, hac.sortOrder, hbd.sortOrder, hac.name,
    hbd.name]

/-- The items that are listed after an update. -/
theorem offered_updateItem (hactive : ∀ row ∈ w.db.items.rows, row.id = id →
      (Db.patched patch row).isActive = row.isActive ∧
        (row.isActive = true → Alike lower (Db.patched patch row) row)) :
    ∃ f : ServiceCatalogItem → ServiceCatalogItem,
      (∀ row ∈ offered collation w.db, Alike lower (f row) row) ∧
        offered collation (w.db.updateItem id patch) =
          (offered collation w.db).map f := by
  let f := fun row : ServiceCatalogItem =>
    if row.id = id then Db.patched patch row else row
  have hf : ∀ row ∈ w.db.items.rows, (f row).isActive = row.isActive ∧
      (row.isActive = true → Alike lower (f row) row) := by
    intro row hrow
    by_cases hid : row.id = id
    · simp only [f, if_pos hid]
      exact hactive row hrow hid
    · simp only [f, if_neg hid]
      exact ⟨trivial, fun _ => .refl row⟩
  have halike : ∀ row ∈ w.db.items.rows.filter fun item => item.isActive,
      Alike lower (f row) row := by
    intro row hrow
    obtain ⟨hmem, hactive⟩ := List.mem_filter.mp hrow
    exact (hf row hmem).2 hactive
  refine ⟨f, fun row hrow => halike row
    ((List.mem_insertionSort _).mp hrow), ?_⟩
  have hrows : (w.db.updateItem id patch).items.rows.filter
      (fun item => item.isActive) =
      (w.db.items.rows.filter fun item => item.isActive).map f := by
    change (w.db.items.rows.map f).filter _ = _
    rw [List.filter_map]
    congr 1
    exact List.filter_congr fun row hrow => (hf row hrow).1
  rw [offered, offered, hrows]
  refine (List.map_insertionSort _ _ f _ fun a ha b hb => ?_).symm
  rw [ordered_congr (halike a ha) (halike b hb)]

/-- The same catalog, for whoever looks at it. -/
def SamePlaces (collation : String → String → Bool) (lower : String → String)
    (w w' : World) : Prop :=
  ∀ visitor hash hash' page page' v v',
    Runs Input.Arbitrary (showCatalog collation lower hash visitor) w
      (.ok page) v →
    Runs Input.Arbitrary (showCatalog collation lower hash' visitor) w'
      (.ok page') v' →
    (page.groups.map CategoryGroup.text, page.categories) =
      (page'.groups.map CategoryGroup.text, page'.categories)

theorem samePlaces_iff (user : User) {w w' : World} :
    SamePlaces collation lower w w' ↔
    ∀ hash hash', shown lower hash (offered collation w.db) =
      shown lower hash' (offered collation w'.db) := by
  constructor
  · intro h hash hash'
    obtain ⟨page, hgroups, hcategories, hpage⟩ :=
      showCatalog_arbitrary_wp collation lower hash w user
    obtain ⟨page', hgroups', hcategories', hpage'⟩ :=
      showCatalog_arbitrary_wp collation lower hash' w' user
    have hsame :=
      h user hash hash' page page' w w' ((runs_ok_iff hpage).mpr ⟨rfl, rfl⟩)
        ((runs_ok_iff hpage').mpr ⟨rfl, rfl⟩)
    rw [hgroups, hgroups', hcategories, hcategories'] at hsame
    exact hsame
  · intro h visitor hash hash' page page' v v' hrun hrun'
    obtain ⟨shownPage, hgroups, hcategories, hpage⟩ :=
      showCatalog_arbitrary_wp collation lower hash w visitor
    obtain ⟨shownPage', hgroups', hcategories', hpage'⟩ :=
      showCatalog_arbitrary_wp collation lower hash' w' visitor
    obtain ⟨rfl, -⟩ := (runs_ok_iff hpage).mp hrun
    obtain ⟨rfl, -⟩ := (runs_ok_iff hpage').mp hrun'
    rw [hgroups, hgroups', hcategories, hcategories']
    exact h hash hash'

/-- The catalog after the form was saved. -/
theorem samePlaces_saved_iff (user : User)
    (hitem : w.db.items.find? id = some item)
    (hpatch : Db.patched patch item = saved item)
    (hdetails : ∀ line ∈ detailLines item, ∀ c ∈ line.toList, c.toNat ≠ 0) :
    SamePlaces collation lower w { w with db := w.db.updateItem id patch } ↔
      (item.isActive = true → Settled item) := by
  obtain ⟨hmem, hid⟩ := Table.find?_eq_some_iff.mp hitem
  have honly : ∀ row ∈ w.db.items.rows, row.id = id → row = item := by
    intro row hrow hrowId
    have hfind := Table.find?_eq_some_iff.mpr ⟨hrow, hrowId⟩
    exact Option.some.inj (hfind.symm.trans hitem)
  rw [samePlaces_iff user]
  constructor
  · intro h hactive
    let hash : HashOrder := ⟨fun keys => keys, fun _ => .refl _⟩
    have hbefore : ∃ group ∈ (shown lower hash (offered collation w.db)).1,
        group.1 = categoryOf item ∧
          (catalogCard lower item).text ∈ group.2 := by
      refine mem_shown.mpr ⟨item, ?_, rfl, rfl⟩
      exact (List.mem_insertionSort _).mpr (List.mem_filter.mpr ⟨hmem, hactive⟩)
    rw [h hash hash] at hbefore
    obtain ⟨row, hrow, hcategory, htext⟩ := mem_shown.mp hbefore
    have hrowMem := (List.mem_filter.mp ((List.mem_insertionSort _).mp hrow)).1
    have hrowId : row.id = id := (congrArg CardText.id htext).trans hid
    have hfind := Table.find?_eq_some_iff.mpr ⟨hrowMem, hrowId⟩
    rw [Db.find?_updateItem, if_pos rfl, hitem, Option.map_some,
      hpatch] at hfind
    obtain rfl := Option.some.inj hfind
    exact settled_of_text hcategory htext
  · intro h hash hash'
    have hrows : ∀ row ∈ w.db.items.rows, row.id = id →
        (Db.patched patch row).isActive = row.isActive ∧
          (row.isActive = true → Alike lower (Db.patched patch row) row) := by
      intro row hrow hrowId
      obtain rfl := honly row hrow hrowId
      rw [hpatch]
      exact ⟨rfl, fun hactive => (h hactive).alike hdetails⟩
    obtain ⟨f, hf, hoffered⟩ := offered_updateItem hrows
    rw [hoffered]
    exact (shown_map hf hash' hash).symm

/-- Nothing that is shown of the catalog and of the item has changed. -/
def Unchanged (collation : String → String → Bool) (lower : String → String)
    (item : ServiceCatalogItem) (w w' : World) : Prop :=
  SamePlaces collation lower w w' ∧
    ∃ new, w'.db.items.find? item.id = some new ∧ SameItem item new

/-- Nothing shown changes when an admin opens the form of the item and submits
it as it is, whatever faults there are. -/
def UneditedUnchanged (collation : String → String → Bool)
    (lower : String → String) (user : User) (w : World)
    (item : ServiceCatalogItem) : Prop :=
  ∀ page form x v w',
    Runs Input.Arbitrary (editForm user item.id) w (.ok page) v →
    page.submission = some form →
      Runs Input.Arbitrary (edit user item.id form) v x w' →
      Unchanged collation lower item w w'

/-- That is so exactly if the browser refuses to submit the form or the item is
one that the form leaves as it is. -/
theorem edit_unedited_iff (collation : String → String → Bool)
    (lower : String → String) (hadmin : user.role = .admin)
    (hitem : w.db.items.find? id = some item)
    (hlines : ∀ line ∈ detailLines item,
      Line line.toList ∧ trim isWhitespace line = line)
    (htarget : TargetSet item) :
    UneditedUnchanged collation lower user w item ↔
      textInput item.name = "" ∨ Kept item := by
  obtain rfl : item.id = id := Table.key_of_find? hitem
  obtain ⟨layout, hload⟩ := editForm_arbitrary_wp (w := w) hadmin hitem
  have hpage : ∀ page v,
      Runs Input.Arbitrary (editForm user item.id) w (.ok page) v ↔
      page = ⟨layout, "catalog", item, details item, none⟩ ∧ v = w :=
    fun page v => runs_ok_iff hload
  unfold UneditedUnchanged
  simp only [hpage]
  by_cases hname : textInput item.name = ""
  · refine iff_of_true ?_ (.inl hname)
    rintro page form x v w' ⟨rfl, rfl⟩ hform
    rw [CatalogEditTemplate.submission, if_pos hname] at hform
    cases hform
  obtain ⟨form, hform⟩ : ∃ form, CatalogEditTemplate.submission
      ⟨layout, "catalog", item, details item, none⟩ = some form :=
    ⟨_, if_neg hname⟩
  obtain ⟨patch, hpatch, hsaved⟩ :=
    patched_submission rfl rfl htarget hlines hform
  have hfind : (w.db.updateItem item.id patch).items.find? item.id =
      some (saved item) := by
    rw [Db.find?_updateItem, if_pos rfl, hitem, Option.map_some, hsaved]
  constructor
  · intro h
    have hafter := ((edit_arbitrary_wp hadmin hitem hpatch).mp <|
      (wp_iff_runs _ _ _).mpr
        fun x w' hrun => h _ form x w w' ⟨rfl, rfl⟩ hform hrun).1
    obtain ⟨hplaces, new, hnew, hsame⟩ := hafter
    obtain rfl := Option.some.inj (hfind.symm.trans hnew)
    obtain ⟨hdetails, hlabel⟩ := sameItem_saved.mp hsame
    exact .inr ⟨hdetails, hlabel,
      (samePlaces_saved_iff user hitem hsaved hdetails).mp hplaces⟩
  · rintro (hempty | hkept)
    · exact absurd hempty hname
    rintro page form' x v w' ⟨rfl, rfl⟩ hform' hrun
    obtain rfl := Option.some.inj (hform.symm.trans hform')
    have hbefore : Unchanged collation lower item v v :=
      ⟨(samePlaces_iff user).mpr shown_hash, item, hitem, rfl, rfl,
        rfl, rfl, rfl⟩
    have hafter : Unchanged collation lower item v
        { v with db := v.db.updateItem item.id patch } :=
      ⟨(samePlaces_saved_iff user hitem hsaved hkept.details).mpr hkept.settled,
        saved item, hfind,
        sameItem_saved.mpr ⟨hkept.details, hkept.approvalLabel⟩⟩
    have hwp : wp Input.Arbitrary (edit user item.id form)
        (fun _ => Unchanged collation lower item v) v :=
      (edit_arbitrary_wp hadmin hitem hpatch).mpr ⟨hafter, hbefore, hafter⟩
    exact hrun.ensures hwp

end Edit

namespace Uncategorised

def admin : User :=
  Sample.user 7 "eve" .admin

/-- A deployment with one service, which has no category. -/
def world : World :=
  Sample.world ⟨"", []⟩

/-- What the catalog shows, read in the order of the keys. -/
def catalog (w : World) : List (String × List CardText) × List String :=
  shown (fun text => text) ⟨fun keys => keys, fun _ => .refl _⟩
    (offered Sample.deps.collation w.db)

end Uncategorised

open Uncategorised in
/-- A service without a category is in the last section, and in one without a
title once its form was saved. -/
theorem edit_moves_uncategorised : ∃ page form w',
    world.db.items.find? Sample.item.id = some Sample.item ∧
      (∀ line ∈ detailLines Sample.item,
        Line line.toList ∧ trim isWhitespace line = line) ∧
      TargetSet Sample.item ∧
      Runs Input.Arbitrary (editForm admin Sample.item.id) world
        (.ok page) world ∧
      page.submission = some form ∧
      Runs Input.Arbitrary (edit admin Sample.item.id form) world
        (.ok (.redirect "/admin/catalog")) w' ∧
      (catalog world).2 = ["Other"] ∧ (catalog w').2 = [""] ∧
      ¬ Unchanged Sample.deps.collation
        (fun text => text) Sample.item world w' := by
  refine ⟨_, _, _, rfl, by decide, .inr ⟨rfl, rfl⟩,
    @runs_of_runAlone _ _ _ _ _ _ _ (Sample.inputs 0 100) _ _ _ rfl, rfl,
    @runs_of_runAlone _ _ _ _ _ _ _ (Sample.inputs 0 100) _ _ _ rfl, ?_, ?_, ?_⟩
  · decide
  · decide
  · rintro ⟨hplaces, -⟩
    have hsame :=
      (samePlaces_iff admin).mp hplaces ⟨fun keys => keys, fun _ => .refl _⟩
        ⟨fun keys => keys, fun _ => .refl _⟩
    have hcategories := congrArg Prod.snd hsame
    revert hcategories
    decide

namespace Categorised

def laptop : ServiceCatalogItem :=
  { Sample.item with
    detailsJson := some ⟨["a laptop", "a charger"], [], ["your office"], []⟩
    approvalLabel := some "Manager approval"
    targetValue := some 3
    targetUnit := some .businessDays
    category := some "Software" }

def world : World :=
  { Uncategorised.world with
    db := { Uncategorised.world.db with items := ⟨[laptop], by decide⟩ } }

end Categorised

open Categorised in
theorem edit_unedited_categorised :
    UneditedUnchanged Sample.deps.collation
      (fun text => text) Uncategorised.admin world
      laptop := by
  refine (edit_unedited_iff _ _ rfl (Table.find?_of_mem List.mem_cons_self)
    (by decide) (.inl ⟨_, _, rfl, rfl, by decide⟩)).mpr <|
      .inr ⟨?details, ⟨_, rfl, ?label⟩,
        fun _ => ⟨⟨_, rfl, ?category⟩, ?name, ?summary, ?icon⟩⟩
  case details => simp [detailLines, details, laptop]
  all_goals simp [Plain, laptop, Sample.item]

end Catalog

end Web

end Servcat
