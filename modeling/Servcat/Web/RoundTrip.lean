/-
Graphs that are loaded into the builder and written again.
-/
import Servcat.Web.NumberBranches
import Servcat.Web.RoundTrip.Kinds

namespace Servcat

open JsValue (parse parseItems read? readItems? literal)

namespace Builder

variable {readFloat : ReadFloat} {ref : Ref} {parseUuid : String → Option Uuid}

section Steps

theorem kindToJson_ne_undefined (step : BuilderStep) :
    kindToJson step ≠ .undefined := by
  unfold kindToJson
  split <;> simp [literal]

/-- A step that is loaded, as the one that the counter then has, and
written again. -/
def rebuiltStep (readFloat : ReadFloat) (stepCounter : ℕ)
    (s : JsValue) : Option JsonValue :=
  (hydrateKind s).bind fun kind =>
    (hydrateStep stepCounter kind s).bind fun step =>
      (stepToJson step).read? readFloat

/-- The steps that come back: those that are written as objects, with a name. -/
def KeepsStep (readFloat : ReadFloat) (v : JsonValue) (step : Step) : Prop :=
  ∃ entries kind, v = .object entries ∧
    JsonMap.get? entries "kind" = some (.object kind) ∧
    step.id ≠ "" ∧ KeepsKind readFloat kind step.kind

theorem step_of_ofJson? {entries : JsonMap} {step : Step}
    (h : Step.ofJson? parseUuid (.object entries) = some step) :
    entries.get? "id" = some (.string step.id) ∧
      entries.get? "label" = some (.string step.label) ∧
      ∃ v, entries.get? "kind" = some v ∧
        StepKind.ofJson? parseUuid v = some step.kind := by
  simp only [Step.ofJson?, JsonValue.record?, Option.bind_eq_bind,
    Option.bind_some, Option.bind_eq_some_iff,
    JsonMap.field?_string?_eq_some] at h
  obtain ⟨id, hid, label, hlabel, kind, hkind, h⟩ := h
  obtain rfl := Option.some.inj h
  exact ⟨hid, hlabel, Option.bind_eq_some_iff.mp hkind⟩

theorem ofJson?_step (id label : String) (kind : JsonValue) :
    Step.ofJson? parseUuid
        (.object [("id", .string id), ("label", .string label),
          ("kind", kind)]) =
      (StepKind.ofJson? parseUuid kind).map fun kind => ⟨id, label, kind⟩ := by
  show Option.bind (StepKind.ofJson? parseUuid kind) _ = _
  cases StepKind.ofJson? parseUuid kind <;> rfl

theorem read?_stepToJson {id label : String} {step : BuilderStep}
    (hid : step.id = .string id) (hlabel : step.label = .string label) :
    (stepToJson step).read? readFloat =
      ((kindToJson step).read? readFloat).map fun kind =>
        .object
          [("id", .string id), ("label", .string label), ("kind", kind)] := by
  rw [stepToJson, hid, hlabel, literal, read?, readEntries?_cons (by simp),
    readEntries?_cons (by simp),
      readEntries?_cons (kindToJson_ne_undefined step)]
  cases read? readFloat (kindToJson step) <;> rfl

/-- The step before its fields, as the loader has made it. -/
def loadedStep (stepCounter : ℕ) (kind : String)
    (id label : String) : BuilderStep :=
  { newStep stepCounter (.string kind) with
    id := (JsValue.string id).or (newStep stepCounter (.string kind)).id
    label := .string label }

theorem hydrateStep_parse {entries kind : JsonMap} {stepCounter : ℕ}
    {name id label : String} (hid : entries.get? "id" = some (.string id))
    (hlabel : entries.get? "label" = some (.string label))
    (hkind : entries.get? "kind" = some (.object kind)) :
    hydrateStep stepCounter (.string name) (parse ref (.object entries)) =
      hydrateFields (loadedStep stepCounter name id label)
        (parse ("kind" :: ref) (.object kind)) := by
  simp only [hydrateStep, get?_parse hid, textOf?_parse hlabel,
    get?_parse hkind, or_parse_object, Option.bind_eq_bind, Option.bind_some]
  rfl

theorem hydrateKind_parse {entries kind : JsonMap} {name : String}
    (hkind : entries.get? "kind" = some (.object kind))
    (hname : kind.get? "type" = some (.string name))
    (hmem : name ∈ stepKindLabels) :
    hydrateKind (parse ref (.object entries)) = some (.string name) := by
  have htype : (parse ("kind" :: ref) (.object kind)).get? "type" =
      some (.string name) :=
    get?_parse hname
  have htruthy : (parse ("kind" :: ref) (.object kind)).truthy = true := rfl
  simp only [hydrateKind, get?_parse hkind, Option.bind_eq_bind,
    Option.bind_some]
  rw [if_pos htruthy, htype]
  exact if_pos hmem

/-- The name that the loader gives a step that has none. -/
theorem loadedStep_id (stepCounter : ℕ) (kind id label : String) :
    ∃ id', (loadedStep stepCounter kind id label).id = .string id' ∧
      (id' = id ↔ id ≠ "") := by
  by_cases hid : id = ""
  · subst hid
    refine ⟨kind ++ "_" ++ toString stepCounter, rfl, ?_⟩
    simp [String.append_eq_empty_iff]
  · refine ⟨id, or_of_truthy ?_, by simp [hid]⟩
    simpa [JsValue.truthy] using hid

theorem keepsStep_object_iff {entries kind : JsonMap} {step : Step}
    (stepCounter : ℕ) (hid : entries.get? "id" = some (.string step.id))
    (hlabel : entries.get? "label" = some (.string step.label))
    (hv : entries.get? "kind" = some (.object kind))
    (hkind : StepKind.ofJson? parseUuid (.object kind) = some step.kind) :
    (rebuiltStep readFloat stepCounter (parse ref (.object entries))).bind
        (Step.ofJson? parseUuid) = some step ↔
          KeepsStep readFloat (.object entries) step := by
  obtain ⟨name, hname, hmem⟩ := ofJson?_object hkind
  have hlabels : name ∈ stepKindLabels := by
    have hall : ∀ name ∈ StepTag.variants.map Prod.fst,
        name ∈ stepKindLabels := by decide
    exact hall name hmem
  obtain ⟨id', hid', hiff⟩ := loadedStep_id stepCounter name step.id step.label
  have hrebuilt : rebuiltStep readFloat stepCounter
      (parse ref (.object entries)) =
      (rebuiltKind readFloat (loadedStep stepCounter name step.id step.label)
        (parse ("kind" :: ref) (.object kind))).map fun kind =>
          .object [("id", .string id'), ("label", .string step.label),
            ("kind", kind)] := by
    rw [rebuiltStep, hydrateKind_parse hv hname hlabels, Option.bind_some,
      hydrateStep_parse hid hlabel hv, rebuiltKind]
    cases hbuilt : hydrateFields
        (loadedStep stepCounter name step.id step.label)
        (parse ("kind" :: ref) (.object kind)) with
    | none => rfl
    | some built =>
        have hsame := hydrateFields_same hbuilt
        exact read?_stepToJson (hsame.id.trans hid') hsame.label
  rw [hrebuilt]
  by_cases hblank : step.id = ""
  · have hnot : ¬KeepsStep readFloat (.object entries) step := by
      rintro ⟨_, _, _, _, hne, _⟩
      exact hne hblank
    refine iff_of_false (fun h => ?_) hnot
    obtain ⟨written, hwritten, h⟩ := Option.bind_eq_some_iff.mp h
    obtain ⟨kind', -, rfl⟩ := Option.map_eq_some_iff.mp hwritten
    rw [ofJson?_step] at h
    obtain ⟨_, -, hstep⟩ := Option.map_eq_some_iff.mp h
    exact hiff.mp (congrArg Step.id hstep) hblank
  · obtain rfl := hiff.mpr hblank
    show _ = some (⟨step.id, step.label, step.kind⟩ : Step) ↔ _
    rw [map_bind_part (ofJson?_step _ _) fun _ _ h => (Step.mk.inj h).2.2,
      keepsKind_iff hname rfl hkind]
    simp [KeepsStep, hv, hblank]

theorem keepsStep_iff {v : JsonValue} {step : Step} (stepCounter : ℕ)
    (h : Step.ofJson? parseUuid v = some step) :
    (rebuiltStep readFloat stepCounter (parse ref v)).bind
      (Step.ofJson? parseUuid) = some step ↔
      KeepsStep readFloat v step := by
  cases v with
  | null | bool _ | number _ | string _ => cases h
  | array items =>
      -- The builder finds no kind in a list.
      refine iff_of_false (fun h => by cases h) ?_
      rintro ⟨entries, kind, ⟨⟩, -⟩
  | object entries =>
      obtain ⟨hid, hlabel, v, hv, hkind⟩ := step_of_ofJson? h
      cases v with
      | null | bool _ | number _ | string _ => cases hkind
      | array items =>
          have hnone : hydrateKind (parse ref (.object entries)) = none := by
            simp only [hydrateKind, get?_parse hv, Option.bind_eq_bind,
              Option.bind_some]
            rfl
          refine iff_of_false (fun h => ?_) ?_
          · rw [rebuiltStep, hnone] at h
            cases h
          · rintro ⟨entries', kind, ⟨⟩, hobject, -⟩
            rw [hv] at hobject
            cases hobject
      | object kind =>
          exact keepsStep_object_iff stepCounter hid hlabel hv hkind

/-- The steps that are loaded after the counter has reached a value, and written
again. -/
def rebuiltSteps (readFloat : ReadFloat) (stepCounter : ℕ)
    (items : List JsValue) : Option (List JsonValue) :=
  (hydrateSteps stepCounter items).2.bind fun steps =>
    readItems? readFloat (steps.map stepToJson)

theorem rebuiltSteps_cons (stepCounter : ℕ) (s : JsValue)
    (rest : List JsValue) :
    rebuiltSteps readFloat stepCounter (s :: rest) =
      (rebuiltStep readFloat (stepCounter + 1) s).bind fun v =>
        (rebuiltSteps readFloat (stepCounter + 1) rest).map (v :: ·) := by
  unfold rebuiltSteps rebuiltStep
  rw [hydrateSteps]
  cases hydrateKind s with
  | none => rfl
  | some kind =>
      simp only [Option.bind_some]
      cases hydrateStep (stepCounter + 1) kind s with
      | none => rfl
      | some step =>
          simp only [Prod.map_snd, Option.bind_some, Option.bind_map]
          cases (hydrateSteps (stepCounter + 1) rest).2 with
          | none => cases (stepToJson step).read? readFloat <;> rfl
          | some steps =>
              simp only [Option.bind_some, Function.comp_apply, List.map_cons,
                readItems?]

theorem keepsSteps_iff (ref : Ref) {items : List JsonValue} {steps : List Step}
    (h : items.mapM (Step.ofJson? parseUuid) = some steps)
    (stepCounter index : ℕ) :
    (rebuiltSteps readFloat stepCounter (parseItems ref index items)).bind
        (List.mapM (Step.ofJson? parseUuid)) = some steps ↔
      List.Forall₂ (KeepsStep readFloat) items steps := by
  have hitems := mapM_eq_some.mp h
  induction hitems generalizing stepCounter index with
  | nil => exact iff_of_true rfl .nil
  | cons hv hrest ih =>
      rw [parseItems, rebuiltSteps_cons, List.forall₂_cons]
      refine (bind_map_parts (k := List.cons) ?_
        fun _ _ _ _ h => List.cons.inj h).trans
        (and_congr (keepsStep_iff _ hv) (ih (mapM_eq_some.mpr hrest) _ _))
      intro v rest
      rw [List.mapM_cons]
      cases Step.ofJson? parseUuid v with
      | none => rfl
      | some step => cases List.mapM (Step.ofJson? parseUuid) rest <;> rfl

end Steps

/-- What the server reads when a value is loaded into the builder and the graph
that is then there is written again; nothing where the value is not loaded. -/
def rebuilt (readFloat : ReadFloat) (b : Builder)
    (v : JsonValue) : Option JsonValue :=
  match hydrateFromGraph b (parse [] v) with
  | (built, true) => (buildGraphObject built).read? readFloat
  | (_, false) => none

/-- The graphs that come back. -/
def Keeps (readFloat : ReadFloat) (v : JsonValue) (g : WorkflowGraph) : Prop :=
  ∃ entries items, v = .object entries ∧
    JsonMap.get? entries "steps" = some (.array items) ∧
    (g.entryStepId ≠ "" ∨ g.steps = []) ∧
      List.Forall₂ (KeepsStep readFloat) items g.steps

theorem graph_of_ofJson? {entries : JsonMap} {g : WorkflowGraph}
    (h : WorkflowGraph.ofJson? parseUuid (.object entries) = some g) :
    entries.get? "entry_step_id" = some (.string g.entryStepId) ∧
      ∃ items, entries.get? "steps" = some (.array items) ∧
        items.mapM (Step.ofJson? parseUuid) = some g.steps := by
  simp only [WorkflowGraph.ofJson?, JsonValue.record?, Option.bind_eq_bind,
    Option.bind_some, Option.bind_eq_some_iff,
    JsonMap.field?_string?_eq_some] at h
  obtain ⟨entryStepId, hentry, steps, hsteps, h⟩ := h
  obtain rfl := Option.some.inj h
  obtain ⟨v, hv, hlist⟩ := Option.bind_eq_some_iff.mp hsteps
  obtain ⟨items, harray, hitems⟩ := Option.bind_eq_some_iff.mp hlist
  cases v with
  | array items' =>
      obtain rfl := Option.some.inj harray
      exact ⟨hentry, items', hv, hitems⟩
  | _ => cases harray

theorem ofJson?_graph (entryStepId : String) (steps : List JsonValue) :
    WorkflowGraph.ofJson? parseUuid
        (.object [("entry_step_id", .string entryStepId),
          ("steps", .array steps)]) =
      (List.mapM (Step.ofJson? parseUuid) steps).map
        (WorkflowGraph.mk entryStepId) := by
  show Option.bind (List.mapM (Step.ofJson? parseUuid) steps) _ = _
  cases List.mapM (Step.ofJson? parseUuid) steps <;> rfl

theorem read?_buildGraphObject {b : Builder} {entryStepId : String}
    (h : b.entryStepId.or (.string "") = .string entryStepId) :
    (buildGraphObject b).read? readFloat =
      (readItems? readFloat (b.steps.map stepToJson)).map fun steps =>
        .object [("entry_step_id", .string entryStepId),
          ("steps", .array steps)] := by
  rw [buildGraphObject, h, literal, read?, readEntries?_cons (by simp),
    readEntries?_cons (by simp), read?_array]
  cases readItems? readFloat (b.steps.map stepToJson) <;> rfl

theorem or_string_of_ne {id : String} (h : id ≠ "") (other : JsValue) :
    (JsValue.string id).or other = .string id :=
  or_of_truthy (by simpa [JsValue.truthy] using h)

theorem hydrateStep_id {stepCounter : ℕ} {kind s : JsValue} {step : BuilderStep}
    (h : hydrateStep stepCounter kind s = some step) :
    ∃ id, s.get? "id" = some id ∧
      step.id = id.or (newStep stepCounter kind).id := by
  simp only [hydrateStep, Option.bind_eq_bind, Option.bind_eq_some_iff] at h
  obtain ⟨id, hid, label, -, k, -, h⟩ := h
  exact ⟨id, hid, (hydrateFields_same h).id⟩

/-- Every step that is loaded has a name. -/
theorem name_of_hydrateStep {stepCounter : ℕ} {kind : JsValue} {v : JsonValue}
    {step : Step} {built : BuilderStep}
    (hv : Step.ofJson? parseUuid v = some step)
    (h : hydrateStep stepCounter kind (parse ref v) = some built) :
    ∃ id, built.id = .string id ∧ id ≠ "" := by
  obtain ⟨id, hid, hbuilt⟩ := hydrateStep_id h
  have hfresh : ∃ id, (newStep stepCounter kind).id = .string id ∧ id ≠ "" :=
    ⟨_, rfl, by simp [String.append_eq_empty_iff]⟩
  cases v with
  | null | bool _ | number _ | string _ => cases hv
  | array items =>
      obtain rfl := Option.some.inj hid
      rw [hbuilt]
      exact hfresh
  | object entries =>
      rw [get?_parse (step_of_ofJson? hv).1] at hid
      obtain rfl := Option.some.inj hid
      rw [hbuilt]
      by_cases hblank : step.id = ""
      · rw [hblank]
        exact hfresh
      · exact ⟨step.id, or_string_of_ne hblank _, hblank⟩

/-- The entry of the graph that is written: the one that was loaded or, where
that is blank, the first step. -/
theorem exists_entry {items : List JsonValue} {steps : List Step}
    {stepCounter : ℕ} {built : List BuilderStep}
    (hitems : items.mapM (Step.ofJson? parseUuid) = some steps)
    (hbuilt : hydrateSteps 0 (parseItems ref 0 items) =
      (stepCounter, some built))
    (entryStepId : String) :
    ∃ id, ((JsValue.string entryStepId).or
        (((built.head?.map BuilderStep.id).getD .undefined).or .null)).or
          (.string "") = .string id ∧
      (id = entryStepId ↔ entryStepId ≠ "" ∨ steps = []) := by
  by_cases hentry : entryStepId = ""
  · subst hentry
    cases mapM_eq_some.mp hitems with
    | nil =>
        obtain ⟨rfl, rfl⟩ : stepCounter = 0 ∧ built = [] := by
          simpa [hydrateSteps, parseItems, eq_comm] using hbuilt
        exact ⟨"", rfl, by simp⟩
    | @cons v step rest steps hv hrest =>
        obtain ⟨first, rest', id, rfl, hid, hne⟩ : ∃ first rest' id,
            built = first :: rest' ∧ first.id = .string id ∧ id ≠ "" := by
          rw [parseItems, hydrateSteps] at hbuilt
          split at hbuilt
          · cases hbuilt
          · split at hbuilt
            · cases hbuilt
            · rename_i step' hstep'
              obtain ⟨rest', -, rfl⟩ :=
                Option.map_eq_some_iff.mp (Prod.mk.inj hbuilt).2
              obtain ⟨id, hid, hne⟩ := name_of_hydrateStep hv hstep'
              exact ⟨step', rest', id, rfl, hid, hne⟩
        refine ⟨id, ?_, by simp [hne]⟩
        show ((first.id).or .null).or (.string "") = _
        rw [hid, or_string_of_ne hne, or_string_of_ne hne]
  · refine ⟨entryStepId, ?_, by simp [hentry]⟩
    rw [or_string_of_ne hentry, or_string_of_ne hentry]

theorem hydrateFromGraph_parse {entries : JsonMap} {items : List JsonValue}
    {entryStepId : String} (b : Builder)
    (hentry : entries.get? "entry_step_id" = some (.string entryStepId))
    (hsteps : entries.get? "steps" = some (.array items)) :
    hydrateFromGraph b (parse ref (.object entries)) =
      match hydrateSteps 0 (parseItems ("steps" :: ref) 0 items) with
      | (stepCounter, none) => ({ b with stepCounter := stepCounter }, false)
      | (stepCounter, some steps) =>
          (⟨steps, (JsValue.string entryStepId).or
            (((steps.head?.map BuilderStep.id).getD .undefined).or .null),
              stepCounter⟩, true) := by
  have hitems : stepsOf? (parse ref (.object entries)) =
      some (parseItems ("steps" :: ref) 0 items) := by
    rw [stepsOf?, get?_parse hsteps, parse]
  rw [hydrateFromGraph, hitems, get?_parse hentry]
  rfl

/-- A graph is read from its entry and its steps. -/
theorem keepsGraph_iff {written : Option (List JsonValue)} {g : WorkflowGraph}
    (id : String) :
    (written.map fun steps => JsonValue.object
        [("entry_step_id", .string id), ("steps", .array steps)]).bind
          (WorkflowGraph.ofJson? parseUuid) = some g ↔
      id = g.entryStepId ∧
        written.bind (List.mapM (Step.ofJson? parseUuid)) = some g.steps := by
  cases written with
  | none => simp
  | some steps =>
      simp only [Option.map_some, Option.bind_some, ofJson?_graph,
        Option.map_eq_some_iff]
      constructor
      · rintro ⟨steps', hsteps, rfl⟩
        exact ⟨rfl, hsteps⟩
      · rintro ⟨rfl, hsteps⟩
        exact ⟨g.steps, hsteps, rfl⟩

/-- A graph comes back exactly if each of its parts does. -/
theorem rebuilt_iff (b : Builder) {v : JsonValue} {g : WorkflowGraph}
    (h : WorkflowGraph.ofJson? parseUuid v = some g) :
    (rebuilt readFloat b v).bind (WorkflowGraph.ofJson? parseUuid) = some g ↔
      Keeps readFloat v g := by
  cases v with
  | null | bool _ | number _ | string _ => cases h
  | array items =>
      -- The builder finds no steps in a list.
      refine iff_of_false (fun h => by cases h) ?_
      rintro ⟨entries, items, ⟨⟩, -⟩
  | object entries =>
      obtain ⟨hentry, items, hv, hitems⟩ := graph_of_ofJson? h
      have hkeeps : Keeps readFloat (.object entries) g ↔
          (g.entryStepId ≠ "" ∨ g.steps = []) ∧
            List.Forall₂ (KeepsStep readFloat) items g.steps := by
        simp [Keeps, hv]
      rw [hkeeps, rebuilt, hydrateFromGraph_parse b hentry hv,
        ← keepsSteps_iff ["steps"] hitems 0 0, rebuiltSteps]
      cases hbuilt : hydrateSteps 0 (parseItems ["steps"] 0 items) with
      | mk stepCounter built =>
          cases built with
          | none => simp
          | some built =>
              obtain ⟨id, hid, hiff⟩ := exists_entry hitems hbuilt g.entryStepId
              show ((buildGraphObject ⟨built, _, stepCounter⟩).read?
                readFloat).bind _ = _ ↔
                _ ∧ (readItems? readFloat (built.map stepToJson)).bind _ = _
              rw [read?_buildGraphObject hid, ← hiff]
              exact keepsGraph_iff id

/-- One step that asks whether an answer is in a list. -/
def listGraph (values : List JsonValue) : JsonValue :=
  .object [("entry_step_id", .string "check"), ("steps", .array
    [.object [("id", .string "check"), ("label", .string "Check"),
      ("kind", .object [("type", .string "branch"), ("condition", .object
        [("op", .string "in"), ("field_key", .string "site"),
          ("values", .array values)]),
        ("on_true", .string "check"), ("on_false", .string "check")])]])]

theorem listGraph_ofJson? (values : List JsonValue) :
    WorkflowGraph.ofJson? parseUuid (listGraph values) =
      some ⟨"check",
        [⟨"check", "Check", .branch (.in "site" values) "check" "check"⟩]⟩ := by
  have hcondition : Condition.ofJson? (.object
      [("op", .string "in"), ("field_key", .string "site"),
        ("values", .array values)]) =
        some (.in "site" values) :=
    Condition.ofJson?_of_written rfl ⟨rfl, rfl, rfl⟩
  have hkind : StepKind.ofJson? parseUuid (.object
      [("type", .string "branch"), ("condition", .object
        [("op", .string "in"), ("field_key", .string "site"),
          ("values", .array values)]),
        ("on_true", .string "check"), ("on_false", .string "check")]) =
          some (.branch (.in "site" values) "check" "check") := by
    show Option.bind (Condition.ofJson? _) _ = _
    rw [hcondition]
    rfl
  rw [listGraph, ofJson?_graph, List.mapM_cons, ofJson?_step, hkind]
  rfl

/-- A text with a comma comes back as two. -/
theorem rebuilt_listGraph :
    WorkflowGraph.ofJson? (fun _ => none) (listGraph [.string "a,b"]) =
        some ⟨"check", [⟨"check", "Check",
          .branch (.in "site" [.string "a,b"]) "check" "check"⟩]⟩ ∧
      (rebuilt roundingReader ⟨[], .null, 0⟩ (listGraph [.string "a,b"])).bind
          (WorkflowGraph.ofJson? fun _ => none) =
        some ⟨"check", [⟨"check", "Check",
          .branch (.in "site" [.string "a", .string "b"]) "check" "check"⟩]⟩ ∧
      [JsonValue.string "a", .string "b"] ≠ [.string "a,b"] := by
  refine ⟨listGraph_ofJson? _, ?_, by decide⟩
  have hwritten : rebuilt roundingReader ⟨[], .null, 0⟩
      (listGraph [.string "a,b"]) =
      some (listGraph [.string "a", .string "b"]) := by decide +kernel
  rw [hwritten, Option.bind_some]
  exact listGraph_ofJson? _

theorem rebuilt_iff_listGraph :
    ((rebuilt roundingReader ⟨[], .null, 0⟩ (listGraph [.string "a"])).bind
        (WorkflowGraph.ofJson? fun _ => none) =
        some ⟨"check", [⟨"check", "Check",
          .branch (.in "site" [.string "a"]) "check" "check"⟩]⟩ ↔
      Keeps roundingReader (listGraph [.string "a"])
        ⟨"check", [⟨"check", "Check",
          .branch (.in "site" [.string "a"]) "check" "check"⟩]⟩) :=
  rebuilt_iff _ (listGraph_ofJson? _)

end Builder

end Servcat
