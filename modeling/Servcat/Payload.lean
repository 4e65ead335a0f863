/-
The payload of a ticket as its field mapping writes it.  The mapping is a hash
map, so the payload is well defined where the order of its entries is not seen.
-/
import Servcat.Connectors

namespace Servcat

namespace JsonMap

theorem insert_insert (map : JsonMap) (key : String)
    (value value' : JsonValue) :
    (map.insert key value).insert key value' = map.insert key value' := by
  induction map with
  | nil => simp [insert]
  | cons entry rest ih =>
      obtain ⟨other, old⟩ := entry
      by_cases hkey : key = other
      · simp [insert, hkey]
      · by_cases hlt : key < other
        · simp [insert, hkey, hlt]
        · simp [insert, hkey, hlt, ih]

theorem lt_or_eq_or_gt (a b : String) : a < b ∨ a = b ∨ b < a := by
  by_cases hlt : a < b
  · exact .inl hlt
  · by_cases hgt : b < a
    · exact .inr (.inr hgt)
    · exact .inr (.inl (String.le_antisymm (String.not_lt.mp hgt)
        (String.not_lt.mp hlt)))

theorem insert_comm_of_lt (map : JsonMap) {a b : String} (hlt : a < b)
    (x y : JsonValue) :
    (map.insert a x).insert b y = (map.insert b y).insert a x := by
  have hnot : ¬b < a := String.lt_asymm hlt
  have hne : a ≠ b := by
    rintro rfl
    exact String.lt_irrefl a hlt
  induction map with
  | nil => simp [insert, hlt, hnot, hne, hne.symm]
  | cons entry rest ih =>
      obtain ⟨other, old⟩ := entry
      by_cases ha : a = other
      · subst ha
        simp [insert, hnot, hne.symm]
      · by_cases ha' : a < other
        · by_cases hb : b = other
          · subst hb
            simp [insert, hlt, hne, hnot, hne.symm]
          · by_cases hb' : b < other
            · simp [insert, ha, ha', hb, hb', hlt, hnot, hne, hne.symm]
            · simp [insert, ha, ha', hb, hb', hnot, hne.symm]
        · have hother : other < b := by
            rcases lt_or_eq_or_gt a other with h | h | h
            · exact absurd h ha'
            · exact absurd h ha
            · exact String.lt_trans h hlt
          have hb : b ≠ other := by
            rintro rfl
            exact String.lt_irrefl b hother
          have hb' : ¬b < other := String.lt_asymm hother
          simp [insert, ha, ha', hb, hb', ih]

theorem insert_comm (map : JsonMap) {a b : String} (hne : a ≠ b)
    (x y : JsonValue) :
    (map.insert a x).insert b y = (map.insert b y).insert a x := by
  rcases lt_or_eq_or_gt a b with hlt | heq | hlt
  · exact insert_comm_of_lt map hlt x y
  · exact absurd heq hne
  · exact (insert_comm_of_lt map hlt y x).symm

end JsonMap

/-- The object a payload holds at a key, empty where it holds something else. -/
def objectAt (root : JsonMap) (segment : String) : JsonMap :=
  ((root.get? segment).bind JsonValue.asObject).getD []

/-- What a path puts at its first segment, over the object found there. -/
def written (held : JsonMap) (value : JsonValue) : List String → JsonValue
  | [] => value
  | segment :: rest => .object (setSegments held value (segment :: rest))

theorem setSegments_cons (root : JsonMap) (value : JsonValue) (segment : String)
    (rest : List String) :
    setSegments root value (segment :: rest) =
      root.insert segment (written (objectAt root segment) value rest) := by
  cases rest with
  | nil => rfl
  | cons next tail =>
      unfold setSegments objectAt
      cases hheld : root.get? segment with
      | none => rfl
      | some held => cases held <;> rfl

theorem objectAt_insert_self (root entries : JsonMap) (segment : String) :
    objectAt (root.insert segment (.object entries)) segment = entries := by
  simp [objectAt, JsonMap.get?_insert, JsonValue.asObject]

theorem objectAt_insert_of_ne (root : JsonMap) (value : JsonValue)
    {segment other : String} (hne : other ≠ segment) :
    objectAt (root.insert segment value) other = objectAt root other := by
  simp [objectAt, JsonMap.get?_insert, hne]

/-- Writing at two paths neither of which starts with the other commutes. -/
theorem setSegments_comm {p q : List String} (hpq : ¬p <+: q) (hqp : ¬q <+: p)
    (root : JsonMap) (x y : JsonValue) :
    setSegments (setSegments root x p) y q = setSegments
      (setSegments root y q) x p := by
  induction p generalizing q root with
  | nil => exact absurd List.nil_prefix hpq
  | cons a p ih =>
      cases q with
      | nil => exact absurd List.nil_prefix hqp
      | cons b q =>
          simp only [setSegments_cons]
          by_cases hab : a = b
          · -- below a shared first segment both paths go on
            subst hab
            rw [List.cons_prefix_cons] at hpq hqp
            have hrest := ih (fun h => hpq ⟨rfl, h⟩) (fun h => hqp ⟨rfl, h⟩)
            cases p with
            | nil => exact absurd ⟨rfl, List.nil_prefix⟩ hpq
            | cons c p =>
                cases q with
                | nil => exact absurd ⟨rfl, List.nil_prefix⟩ hqp
                | cons d q =>
                    simp only [written, objectAt_insert_self,
                      JsonMap.insert_insert, hrest]
          · rw [objectAt_insert_of_ne _ _ hab,
              objectAt_insert_of_ne _ _ (Ne.symm hab)]
            exact JsonMap.insert_comm root hab _ _

/-- The value a payload holds at a path. -/
def valueAt (root : JsonMap) : List String → Option JsonValue
  | [] => some (.object root)
  | [last] => root.get? last
  | segment :: rest =>
      match root.get? segment with
      | some (.object entries) => valueAt entries rest
      | _ => none

theorem valueAt_cons (root : JsonMap) (segment : String) {rest : List String}
    (hrest : rest ≠ []) :
    valueAt root (segment :: rest) =
      ((root.get? segment).bind JsonValue.asObject).bind fun entries =>
        valueAt entries rest := by
  rw [valueAt.eq_3 _ _ _ hrest]
  cases hheld : root.get? segment with
  | none => rfl
  | some held => cases held <;> rfl

/-- The last write to a path is the one that is found there. -/
theorem valueAt_setSegments (root : JsonMap) (value : JsonValue)
    {path : List String} (hpath : path ≠ []) :
    valueAt (setSegments root value path) path = some value := by
  induction path generalizing root with
  | nil => exact absurd rfl hpath
  | cons segment rest ih =>
      rw [setSegments_cons]
      cases rest with
      | nil => simp [valueAt, written, JsonMap.get?_insert]
      | cons next tail =>
          rw [valueAt_cons _ _ (List.cons_ne_nil _ _)]
          simp only [written, JsonMap.get?_insert, ↓reduceIte, Option.bind_some,
            JsonValue.asObject]
          exact ih _ (List.cons_ne_nil _ _)

/-- Above a path that holds something there are only objects. -/
theorem valueAt_of_prefix {root : JsonMap} {path : List String}
    {segment : String} {rest : List String} {value : JsonValue}
    (h : valueAt root (path ++ segment :: rest) = some value) :
    ∃ entries, valueAt root path = some (.object entries) := by
  induction path generalizing root with
  | nil => exact ⟨root, rfl⟩
  | cons first path ih =>
      rw [List.cons_append, valueAt_cons _ _ (by simp)] at h
      obtain ⟨entries, hentries, hbelow⟩ := Option.bind_eq_some_iff.mp h
      obtain ⟨held, hheld, hobject⟩ := Option.bind_eq_some_iff.mp hentries
      cases path with
      | nil =>
          cases held with
          | object entries' => exact ⟨entries', hheld⟩
          | _ => cases hobject
      | cons next tail =>
          rw [valueAt_cons _ _ (List.cons_ne_nil _ _), hentries]
          exact ih hbelow

theorem splitDots_ne_nil (path : String) : splitDots path ≠ [] := by
  unfold splitDots
  simp [List.splitOn_ne_nil]

theorem splitDots_injective {a b : String}
    (h : splitDots a = splitDots b) : a = b := by
  have hlists := List.map_injective_iff.mpr
    (fun _ _ hof => String.ofList_injective hof) h
  have hchars := congrArg (List.intercalate ['.']) hlists
  rw [List.intercalate_splitOn, List.intercalate_splitOn] at hchars
  exact String.ext hchars

/-- Every template of the mapping renders in this context. -/
def FieldMapping.Renders (oneOff : OneOff) (context : TemplateContext)
    (mapping : FieldMapping) : Prop :=
  ∀ entry ∈ mapping, ∃ text, oneOff entry.2 context = .ok text

/-- No target field goes on, after a dot, from another target field. -/
def FieldMapping.Unnested (mapping : FieldMapping) : Prop :=
  ∀ a ∈ mapping, ∀ b ∈ mapping, a.1 ≠ b.1 → ¬splitDots a.1 <+: splitDots b.1

instance (mapping : FieldMapping) : Decidable mapping.Unnested :=
  inferInstanceAs (Decidable (∀ a ∈ mapping, ∀ b ∈ mapping, a.1 ≠ b.1 → _))

section Orders

variable {oneOff : OneOff} {context : TemplateContext}

/-- One round of the loop, for a template that renders. -/
def renderEntry (oneOff : OneOff) (context : TemplateContext) (root : JsonMap)
    (entry : String × String) : JsonMap :=
  setDotPath root entry.1
    (.string ((oneOff entry.2 context).toOption.getD ""))

theorem renderInto_eq_foldl {mapping : FieldMapping}
    (hrenders : mapping.Renders oneOff context) (root : JsonMap) :
    renderInto oneOff context root mapping =
      .ok (mapping.foldl (renderEntry oneOff context) root) := by
  induction mapping generalizing root with
  | nil => rfl
  | cons entry rest ih =>
      obtain ⟨text, htext⟩ := hrenders entry List.mem_cons_self
      have hrest : FieldMapping.Renders oneOff context rest := by
        intro other hother
        exact hrenders other (List.mem_cons_of_mem entry hother)
      simp only [renderInto, htext, List.foldl_cons, renderEntry,
        Except.toOption, Option.getD_some]
      exact ih hrest _

theorem renderFieldMapping_eq_foldl {mapping : FieldMapping}
    (hrenders : mapping.Renders oneOff context) :
    renderFieldMapping oneOff mapping context =
      .ok (.object (mapping.foldl (renderEntry oneOff context) [])) := by
  simp [renderFieldMapping, renderInto_eq_foldl hrenders, Except.map]

theorem FieldMapping.Renders.perm {mapping mapping' : FieldMapping}
    (hrenders : mapping.Renders oneOff context)
    (hperm : mapping'.Perm mapping) : mapping'.Renders oneOff context := by
  intro entry hentry
  exact hrenders entry (hperm.mem_iff.mp hentry)

theorem renderEntry_comm {a b : String × String}
    (hab : ¬splitDots a.1 <+: splitDots b.1)
    (hba : ¬splitDots b.1 <+: splitDots a.1) (root : JsonMap) :
    renderEntry oneOff context (renderEntry oneOff context root a) b =
      renderEntry oneOff context (renderEntry oneOff context root b) a :=
  setSegments_comm hab hba root _ _

theorem foldl_renderEntry_perm {mapping mapping' : FieldMapping}
    (hkeys : (mapping.map Prod.fst).Nodup) (hunnested : mapping.Unnested)
    (hperm : mapping'.Perm mapping) (root : JsonMap) :
    mapping'.foldl (renderEntry oneOff context) root =
      mapping.foldl (renderEntry oneOff context) root := by
  apply List.Perm.foldl_eq' hperm
  intro a ha b hb root
  have ha := hperm.mem_iff.mp ha
  have hb := hperm.mem_iff.mp hb
  by_cases hkey : a.1 = b.1
  · rw [List.inj_on_of_nodup_map hkeys ha hb hkey]
  · exact renderEntry_comm (hunnested a ha b hb hkey)
      (hunnested b hb a ha (Ne.symm hkey)) root

/-- The entry the hash map yields last is in the payload. -/
theorem valueAt_last (mapping : FieldMapping) (entry : String × String)
    (root : JsonMap) :
    valueAt ((mapping ++ [entry]).foldl (renderEntry oneOff context) root)
        (splitDots entry.1) =
      some (.string ((oneOff entry.2 context).toOption.getD "")) := by
  rw [List.foldl_append, List.foldl_cons, List.foldl_nil]
  exact valueAt_setSegments _ _ (splitDots_ne_nil entry.1)

/-- A payload is the same for every order of its field mapping if and only if no
target field goes on, after a dot, from another one. -/
theorem renderFieldMapping_perm_iff {mapping : FieldMapping}
    (hkeys : (mapping.map Prod.fst).Nodup)
    (hrenders : mapping.Renders oneOff context) :
    (∀ mapping' : FieldMapping, mapping'.Perm mapping →
        renderFieldMapping oneOff mapping' context =
          renderFieldMapping oneOff mapping context) ↔
      mapping.Unnested := by
  constructor
  · intro hsame a ha b hb hne hprefix
    have hlast : ∀ entry ∈ mapping,
        valueAt (mapping.foldl (renderEntry oneOff context) [])
          (splitDots entry.1) =
          some (.string ((oneOff entry.2 context).toOption.getD "")) := by
      intro entry hentry
      have hperm : (mapping.erase entry ++ [entry]).Perm mapping :=
        (List.perm_append_singleton entry _).trans
          (List.perm_cons_erase hentry).symm
      have hrender := hsame _ hperm
      rw [renderFieldMapping_eq_foldl (hrenders.perm hperm),
        renderFieldMapping_eq_foldl hrenders] at hrender
      simp only [Except.ok.injEq, JsonValue.object.injEq] at hrender
      rw [← hrender]
      exact valueAt_last _ entry []
    obtain ⟨below, hbelow⟩ := hprefix
    cases below with
    | nil =>
        rw [List.append_nil] at hbelow
        exact hne (splitDots_injective hbelow)
    | cons segment rest =>
        have hb' := hlast b hb
        rw [← hbelow] at hb'
        obtain ⟨entries, hentries⟩ := valueAt_of_prefix hb'
        rw [hlast a ha] at hentries
        cases hentries
  · intro hunnested mapping' hperm
    rw [renderFieldMapping_eq_foldl (hrenders.perm hperm),
      renderFieldMapping_eq_foldl hrenders,
      foldl_renderEntry_perm hkeys hunnested hperm]

end Orders

/-- Templates without placeholders. -/
def plainTemplates : OneOff :=
  fun template _ => .ok template

def laptopContext : TemplateContext where
  answers := .object []
  requesterEmail := "ada@example.org"
  requesterDisplayName := "ada"
  instanceId := "1"
  catalogItemName := "laptop"

def laptopMapping : FieldMapping :=
  [("summary", "laptop"), ("project.key", "ITHD"), ("project.id", "7")]

theorem renderFieldMapping_perm_iff_laptop :
    (∀ mapping' : FieldMapping, mapping'.Perm laptopMapping →
        renderFieldMapping plainTemplates mapping' laptopContext =
          renderFieldMapping plainTemplates laptopMapping laptopContext) ↔
      laptopMapping.Unnested := by
  apply renderFieldMapping_perm_iff
  · decide
  · intro entry _
    exact ⟨entry.2, rfl⟩

/-- A target field that another one goes on from. -/
def nestedMapping : FieldMapping :=
  [("project", "hardware"), ("project.key", "ITHD")]

/-- The two orders of the nested mapping render to different payloads. -/
theorem renderFieldMapping_nested_differs :
    (nestedMapping.map Prod.fst).Nodup ∧
      nestedMapping.Renders plainTemplates laptopContext ∧
      ¬∀ mapping' : FieldMapping, mapping'.Perm nestedMapping →
        renderFieldMapping plainTemplates mapping' laptopContext =
          renderFieldMapping plainTemplates nestedMapping laptopContext := by
  refine ⟨by decide, ?_, ?_⟩
  · intro entry _
    exact ⟨entry.2, rfl⟩
  · intro hsame
    have hswap := hsame nestedMapping.reverse (List.reverse_perm _)
    have hkey : renderFieldMapping plainTemplates nestedMapping laptopContext =
        .ok (.object [("project", .object [("key", .string "ITHD")])]) :=
      rfl
    have hflat : renderFieldMapping plainTemplates nestedMapping.reverse
        laptopContext = .ok (.object [("project", .string "hardware")]) :=
      rfl
    rw [hkey, hflat] at hswap
    cases hswap

end Servcat
