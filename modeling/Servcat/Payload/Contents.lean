/-
What a payload holds: the rendered strings at the paths of their target fields,
the objects above them, and nothing else.
-/
import Servcat.Payload

namespace Servcat

/-- Neither path goes on from the other. -/
def Diverge (p q : List String) : Prop :=
  ¬p <+: q ∧ ¬q <+: p

namespace Diverge

variable {a b : String} {p q : List String}

theorem symm (h : Diverge p q) : Diverge q p :=
  ⟨h.2, h.1⟩

theorem tail (h : Diverge (a :: p) (a :: q)) : Diverge p q :=
  ⟨fun hpq => h.1 (List.cons_prefix_cons.mpr ⟨rfl, hpq⟩),
    fun hqp => h.2 (List.cons_prefix_cons.mpr ⟨rfl, hqp⟩)⟩

theorem ne_nil_left (h : Diverge p q) : p ≠ [] := by
  rintro rfl
  exact h.1 List.nil_prefix

theorem ne_nil_right (h : Diverge p q) : q ≠ [] :=
  h.symm.ne_nil_left

end Diverge

section Paths

variable {root : JsonMap} {value found : JsonValue} {p q : List String}

/-- Below a segment that holds no object there is what an empty object holds. -/
theorem valueAt_objectAt (root : JsonMap) (segment : String)
    {rest : List String} (hrest : rest ≠ []) :
    valueAt root (segment :: rest) = valueAt (objectAt root segment) rest := by
  rw [valueAt_cons _ _ hrest, objectAt]
  cases (root.get? segment).bind JsonValue.asObject with
  | some entries => rfl
  | none =>
      obtain ⟨next, tail, rfl⟩ := List.exists_cons_of_ne_nil hrest
      cases tail <;> rfl

/-- What stands below a segment after a write that goes on from it. -/
theorem valueAt_insert_object (root entries : JsonMap) (segment : String)
    {rest : List String} (hrest : rest ≠ []) :
    valueAt (root.insert segment (.object entries)) (segment :: rest) =
      valueAt entries rest := by
  rw [valueAt_objectAt _ _ hrest, objectAt_insert_self]

theorem valueAt_insert_of_ne (root : JsonMap) (value : JsonValue)
    {segment other : String} (hne : other ≠ segment) (rest : List String) :
    valueAt (root.insert segment value) (other :: rest) = valueAt root
      (other :: rest) := by
  cases rest with
  | nil => simp [valueAt, JsonMap.get?_insert, hne]
  | cons next tail =>
      rw [valueAt_objectAt _ _ (List.cons_ne_nil _ _),
        valueAt_objectAt _ _ (List.cons_ne_nil _ _),
          objectAt_insert_of_ne _ _ hne]

/-- A write leaves everything beside its path as it was. -/
theorem valueAt_setSegments_of_diverge (h : Diverge p q) (root : JsonMap)
    (value : JsonValue) :
    valueAt (setSegments root value p) q = valueAt root q := by
  induction p generalizing q root with
  | nil => exact absurd rfl h.ne_nil_left
  | cons a p ih =>
      cases q with
      | nil => exact absurd rfl h.ne_nil_right
      | cons b q =>
          rw [setSegments_cons]
          by_cases hab : b = a
          · subst hab
            have hrest := h.tail
            obtain ⟨c, p, rfl⟩ := List.exists_cons_of_ne_nil hrest.ne_nil_left
            rw [written, valueAt_insert_object _ _ _ hrest.ne_nil_right,
              ih hrest (objectAt root b),
                valueAt_objectAt _ _ hrest.ne_nil_right]
          · exact valueAt_insert_of_ne _ _ hab q

/-- Above the path of a write there are objects. -/
theorem valueAt_setSegments_of_prefix (hqp : q <+: p) (hne : q ≠ p)
    (root : JsonMap) (value : JsonValue) :
    ∃ entries,
      valueAt (setSegments root value p) q = some (.object entries) := by
  obtain ⟨rest, rfl⟩ := hqp
  cases rest with
  | nil => exact absurd (List.append_nil q).symm hne
  | cons segment rest =>
      have hwritten := valueAt_setSegments root value
        (List.append_ne_nil_of_right_ne_nil q (List.cons_ne_nil segment rest))
      exact valueAt_of_prefix hwritten

/-- Below a string there is nothing. -/
theorem valueAt_append_of_string {text : String} {rest : List String}
    (h : valueAt root p = some (.string text)) (hrest : rest ≠ []) :
    valueAt root (p ++ rest) = none := by
  obtain ⟨segment, rest, rfl⟩ := List.exists_cons_of_ne_nil hrest
  cases hbelow : valueAt root (p ++ segment :: rest) with
  | none => rfl
  | some held =>
      obtain ⟨entries, hentries⟩ := valueAt_of_prefix hbelow
      rw [h] at hentries
      cases hentries

end Paths

/-- The payload holds these strings at these paths, objects above them, and
nothing else. -/
structure Carries (root : JsonMap)
    (fields : List (List String × String)) : Prop where
  reached : ∀ field ∈ fields, valueAt root field.1 = some (.string field.2)
  only : ∀ path value, valueAt root path = some value →
    (∃ text, value = .string text ∧ (path, text) ∈ fields) ∨
      (∃ entries, value = .object entries) ∧
        (path = [] ∨ ∃ field ∈ fields, path <+: field.1 ∧ path ≠ field.1)

namespace Carries

variable {root : JsonMap} {fields : List (List String × String)}

theorem empty : Carries [] [] where
  reached field hfield := by cases hfield
  only path value h := by
    rcases path with _ | ⟨name, _ | ⟨next, rest⟩⟩
    · exact .inr ⟨⟨[], (Option.some.inj h).symm⟩, .inl rfl⟩
    · cases h
    · cases h

/-- A string written at a path of its own joins those that were there. -/
theorem write (h : Carries root fields) {path : List String} (hpath : path ≠ [])
    (hown : ∀ field ∈ fields, Diverge path field.1) (text : String) :
    Carries (setSegments root (.string text) path)
      ((path, text) :: fields) where
  reached field hfield := by
    rcases List.mem_cons.mp hfield with rfl | hfield
    · exact valueAt_setSegments root _ hpath
    · rw [valueAt_setSegments_of_diverge (hown field hfield)]
      exact h.reached field hfield
  only other value hvalue := by
    by_cases heq : other = path
    · subst heq
      rw [valueAt_setSegments root _ hpath] at hvalue
      exact .inl ⟨text, (Option.some.inj hvalue).symm, List.mem_cons_self⟩
    · by_cases habove : other <+: path
      · obtain ⟨entries, hentries⟩ :=
          valueAt_setSegments_of_prefix habove heq root (.string text)
        rw [hentries] at hvalue
        exact .inr ⟨⟨entries, (Option.some.inj hvalue).symm⟩,
          .inr ⟨(path, text), List.mem_cons_self, habove, heq⟩⟩
      · by_cases hbelow : path <+: other
        · obtain ⟨rest, rfl⟩ := hbelow
          have hrest : rest ≠ [] := by
            rintro rfl
            exact heq (List.append_nil path)
          rw [valueAt_append_of_string (valueAt_setSegments root _ hpath)
            hrest] at hvalue
          cases hvalue
        · rw [valueAt_setSegments_of_diverge ⟨hbelow, habove⟩] at hvalue
          rcases h.only other value hvalue with
            ⟨old, hold, hmem⟩ | ⟨hobject, hplace⟩
          · exact .inl ⟨old, hold, List.mem_cons_of_mem _ hmem⟩
          · refine .inr ⟨hobject, hplace.imp_right ?_⟩
            rintro ⟨field, hfield, hprefix⟩
            exact ⟨field, List.mem_cons_of_mem _ hfield, hprefix⟩

end Carries

section Render

variable {oneOff : OneOff} {context : TemplateContext} {mapping : FieldMapping}

/-- The path and the text of an entry whose template renders. -/
def renderedField (oneOff : OneOff) (context : TemplateContext)
    (entry : String × String) : List String × String :=
  (splitDots entry.1, (oneOff entry.2 context).toOption.getD "")

theorem FieldMapping.Unnested.diverge (hunnested : mapping.Unnested)
    {a b : String × String} (ha : a ∈ mapping) (hb : b ∈ mapping)
    (hne : a.1 ≠ b.1) : Diverge (splitDots a.1) (splitDots b.1) :=
  ⟨hunnested a ha b hb hne, hunnested b hb a ha (Ne.symm hne)⟩

/-- The loop adds the fields of its entries, in whatever order they come. -/
theorem foldl_renderEntry_carries {root : JsonMap}
    {fields : List (List String × String)} (h : Carries root fields)
    (hkeys : (mapping.map Prod.fst).Nodup) (hunnested : mapping.Unnested)
    (hown : ∀ entry ∈ mapping, ∀ field ∈ fields,
      Diverge (splitDots entry.1) field.1) :
    Carries (mapping.foldl (renderEntry oneOff context) root)
      ((mapping.map (renderedField oneOff context)).reverse ++ fields) := by
  induction mapping generalizing root fields with
  | nil => exact h
  | cons entry rest ih =>
      obtain ⟨hnew, hkeys⟩ := List.nodup_cons.mp hkeys
      have hwrite : Carries (renderEntry oneOff context root entry)
          (renderedField oneOff context entry :: fields) :=
        h.write (splitDots_ne_nil entry.1) (hown entry List.mem_cons_self) _
      have hrest := ih hwrite hkeys
        (fun a ha b hb => hunnested a (List.mem_cons_of_mem _ ha) b
          (List.mem_cons_of_mem _ hb)) ?_
      · simpa using hrest
      · intro other hother field hfield
        rcases List.mem_cons.mp hfield with rfl | hfield
        · have hne : other.1 ≠ entry.1 := by
            intro heq
            apply hnew
            rw [← heq]
            exact List.mem_map_of_mem hother
          exact hunnested.diverge (List.mem_cons_of_mem _ hother)
            List.mem_cons_self hne
        · exact hown other (List.mem_cons_of_mem _ hother) field hfield

/-- In every order of the mapping the payload carries exactly the mapped fields:
each rendered string where its target field says, each string at one target
field, and above them only objects. -/
theorem renderFieldMapping_carries (hkeys : (mapping.map Prod.fst).Nodup)
    (hunnested : mapping.Unnested) (hrenders : mapping.Renders oneOff context)
    {mapping' : FieldMapping} (hperm : mapping'.Perm mapping) :
    ∃ root, renderFieldMapping oneOff mapping' context = .ok (.object root) ∧
      (∀ entry ∈ mapping, ∃ text, oneOff entry.2 context = .ok text ∧
        valueAt root (splitDots entry.1) = some (.string text)) ∧
      (∀ path text, valueAt root path = some (.string text) →
        ∃! entry, entry ∈ mapping ∧ splitDots entry.1 = path ∧
          oneOff entry.2 context = .ok text) ∧
      ∀ path value, valueAt root path = some value →
        (∃ text, value = .string text) ∨
          (∃ entries, value = .object entries) ∧
            (path = [] ∨ ∃ entry ∈ mapping,
              path <+: splitDots entry.1 ∧ path ≠ splitDots entry.1) := by
  have hrendered : ∀ entry ∈ mapping, ∃ text,
      oneOff entry.2 context = .ok text ∧
      renderedField oneOff context entry = (splitDots entry.1, text) := by
    intro entry hentry
    obtain ⟨text, htext⟩ := hrenders entry hentry
    exact ⟨text, htext, by simp [renderedField, htext, Except.toOption]⟩
  have hcarries : Carries (mapping.foldl (renderEntry oneOff context) [])
      ((mapping.map (renderedField oneOff context)).reverse ++ []) :=
    foldl_renderEntry_carries .empty hkeys hunnested
      fun _ _ _ hfield => absurd hfield List.not_mem_nil
  have hmem : ∀ field,
      field ∈ (mapping.map (renderedField oneOff context)).reverse ++ [] ↔
      ∃ entry ∈ mapping, renderedField oneOff context entry = field := by
    simp
  refine ⟨mapping.foldl (renderEntry oneOff context) [], ?_, ?_, ?_, ?_⟩
  · rw [renderFieldMapping_eq_foldl (hrenders.perm hperm),
      foldl_renderEntry_perm hkeys hunnested hperm]
  · intro entry hentry
    obtain ⟨text, htext, hfield⟩ := hrendered entry hentry
    exact ⟨text, htext, hcarries.reached
      _ ((hmem _).mpr ⟨entry, hentry, hfield⟩)⟩
  · intro path text hvalue
    rcases hcarries.only path _ hvalue with
      ⟨other, hother, hfield⟩ | ⟨⟨_, hobject⟩, -⟩
    · obtain rfl := JsonValue.string.inj hother
      obtain ⟨entry, hentry, heq⟩ := (hmem _).mp hfield
      obtain ⟨text', htext, hfield⟩ := hrendered entry hentry
      obtain ⟨rfl, rfl⟩ := Prod.mk.inj (hfield.symm.trans heq)
      refine ⟨entry, ⟨hentry, rfl, htext⟩, ?_⟩
      rintro entry' ⟨hentry', hpath, -⟩
      exact List.inj_on_of_nodup_map hkeys hentry' hentry
        (splitDots_injective hpath)
    · cases hobject
  · intro path value hvalue
    rcases hcarries.only path value hvalue with
      ⟨text, htext, -⟩ | ⟨hobject, hplace⟩
    · exact .inl ⟨text, htext⟩
    · refine .inr ⟨hobject, hplace.imp_right ?_⟩
      rintro ⟨field, hfield, hprefix⟩
      obtain ⟨entry, hentry, rfl⟩ := (hmem field).mp hfield
      exact ⟨entry, hentry, hprefix⟩

theorem renderFieldMapping_carries_laptop :
    ∃ root,
      renderFieldMapping plainTemplates laptopMapping.reverse laptopContext =
        .ok (.object root) ∧
      (∀ entry ∈ laptopMapping, ∃ text,
        plainTemplates entry.2 laptopContext = .ok text ∧
        valueAt root (splitDots entry.1) = some (.string text)) ∧
      (∀ path text, valueAt root path = some (.string text) →
        ∃! entry, entry ∈ laptopMapping ∧ splitDots entry.1 = path ∧
          plainTemplates entry.2 laptopContext = .ok text) ∧
      ∀ path value, valueAt root path = some value →
        (∃ text, value = .string text) ∨
          (∃ entries, value = .object entries) ∧
            (path = [] ∨ ∃ entry ∈ laptopMapping,
              path <+: splitDots entry.1 ∧ path ≠ splitDots entry.1) := by
  apply renderFieldMapping_carries
  · decide
  · decide
  · intro entry _
    exact ⟨entry.2, rfl⟩
  · exact List.reverse_perm _

end Render

end Servcat
