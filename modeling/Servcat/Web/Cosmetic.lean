/-
Edits of the builder that only rename, reorder or fold steps: the graph it
writes afterwards is the one before with other names and in another order.
-/
import Servcat.Engine.Renaming
import Servcat.Web.RoundTrip
import Servcat.Web.Uids
import Servcat.Web.Validation

namespace Servcat

open JsValue (read? readItems? readEntries? readItems?_eq_mapM literal)
open JsonValue (string?)

/-- The name of an arrow in the JSON of a step. -/
def EdgeKind.field : EdgeKind → String
  | .next => "next"
  | .onTrue => "on_true"
  | .onFalse => "on_false"
  | .onApprove => "on_approve"
  | .onReject => "on_reject"

/-- `REF_FIELDS` -/
def refFields : List String :=
  ["next", "on_true", "on_false", "on_approve", "on_reject"]

/-- What a rename of the first id to the second one makes of an id. -/
def renameTo (oldId : JsValue) (newId id : String) : String :=
  if (JsValue.string id).strictEq oldId then newId else id

section Json

variable {parseUuid : String → Option Uuid} {f : String → String}

def JsonValue.renameText (f : String → String) : JsonValue → JsonValue
  | .string s => .string (f s)
  | v => v

/-- The entries of a step's kind with other targets. -/
def renameEntries (f : String → String) (entries : JsonMap) : JsonMap :=
  entries.map fun (key, value) =>
    (key, if key ∈ refFields then value.renameText f else value)

theorem get?_renameEntries (entries : JsonMap) (key : String) :
    (renameEntries f entries).get? key =
      (entries.get? key).map fun v =>
        if key ∈ refFields then v.renameText f else v := by
  induction entries with
  | nil => rfl
  | cons entry rest ih =>
      obtain ⟨key', value⟩ := entry
      by_cases h : key = key'
      · subst h
        simp [renameEntries, JsonMap.get?]
      · unfold renameEntries at ih
        simp [renameEntries, JsonMap.get?, h, ih]

theorem field?_renameEntries_ref {key : String} (hkey : key ∈ refFields)
    (entries : JsonMap) :
    (renameEntries f entries).field? string? key =
      (entries.field? string? key).map f := by
  unfold JsonMap.field?
  rw [get?_renameEntries]
  cases entries.get? key with
  | none => rfl
  | some v => cases v <;> simp [hkey, JsonValue.renameText, string?]

theorem get?_renameEntries_of_notMem {key : String} (hkey : key ∉ refFields)
    (entries : JsonMap) :
    (renameEntries f entries).get? key = entries.get? key := by
  rw [get?_renameEntries]
  simp [hkey]

theorem field?_renameEntries {α : Type} {read? : JsonValue → Option α}
    {key : String} (hkey : key ∉ refFields) (entries : JsonMap) :
    (renameEntries f entries).field? read? key = entries.field? read? key := by
  unfold JsonMap.field?
  rw [get?_renameEntries_of_notMem hkey]

/-- A kind whose targets are written under other names is read with
these names. -/
theorem ofJson?_renameEntries (entries : JsonMap) :
    StepKind.ofJson? parseUuid (.object (renameEntries f entries)) =
      (StepKind.ofJson? parseUuid (.object entries)).map
        (StepKind.rename f) := by
  have htype : "type" ∉ refFields := by decide
  simp only [StepKind.ofJson?, JsonValue.tagged?,
    get?_renameEntries_of_notMem htype, JsonValue.record?]
  cases entries.get? "type" with
  | none => rfl
  | some tag =>
      simp only [Option.map_some, Option.bind_eq_bind, Option.bind_some]
      cases JsonValue.variant? StepTag.variants false tag with
      | none => rfl
      | some variant =>
          have hrest := fun {key} (hkey : key ∉ refFields) =>
            get?_renameEntries_of_notMem (f := f) hkey entries
          cases variant with
          | question =>
              simp only [Option.bind_some]
              rw [field?_renameEntries (by decide),
                field?_renameEntries (by decide),
                field?_renameEntries (by decide), hrest (by decide),
                field?_renameEntries_ref (by decide)]
              cases entries.get? "options" <;>
                simp only [Option.map_bind, Option.bind_map, Function.comp_def,
                  Option.map_some, StepKind.rename]
          | branch =>
              simp only [Option.bind_some]
              rw [field?_renameEntries (by decide),
                field?_renameEntries_ref (by decide),
                field?_renameEntries_ref (by decide)]
              simp only [Option.map_bind, Option.bind_map, Function.comp_def,
                Option.map_some, StepKind.rename]
          | waitForApproval =>
              simp only [Option.bind_some]
              rw [field?_renameEntries (by decide), hrest (by decide),
                field?_renameEntries_ref (by decide),
                  field?_renameEntries_ref (by decide)]
              simp only [Option.map_bind, Option.bind_map, Function.comp_def,
                Option.map_some, StepKind.rename]
          | submitTicket =>
              simp only [Option.bind_some]
              rw [field?_renameEntries_ref (by decide)]
              simp only [Option.map_bind, Option.bind_map, Function.comp_def,
                Option.map_some, StepKind.rename]
          | «end» =>
              simp only [Option.bind_some]
              rw [field?_renameEntries (by decide)]
              simp only [Option.map_bind, Function.comp_def, Option.map_some,
                StepKind.rename]

/-- The targets of a kind stand in its JSON. -/
theorem edges_of_ofJson? {entries : JsonMap} {kind : StepKind}
    (h : StepKind.ofJson? parseUuid (.object entries) = some kind)
    {edge : EdgeKind × String} (hedge : edge ∈ kind.edges) :
    entries.get? edge.1.field = some (.string edge.2) := by
  simp only [StepKind.ofJson?, JsonValue.tagged?, JsonValue.record?,
    Option.bind_eq_bind, Option.bind_eq_some_iff, Option.map_eq_some_iff] at h
  obtain ⟨_, ⟨tag, -, rfl⟩, variant, -, h⟩ := h
  cases variant with
  | question =>
      simp only [Option.bind_some, Option.bind_eq_some_iff,
        JsonMap.field?_string?_eq_some] at h
      obtain ⟨fieldKey, -, inputType, -, required, -, h⟩ := h
      obtain ⟨options, next, hnext, rfl⟩ : ∃ options next,
          entries.get? "next" = some (.string next) ∧
            .question fieldKey inputType required options next = kind := by
        split at h
        · obtain ⟨next, hnext, heq⟩ := Option.bind_eq_some_iff.mp h
          exact ⟨_, next, JsonMap.field?_string?_eq_some.mp hnext,
            Option.some.inj heq⟩
        · obtain ⟨options, -, h⟩ := Option.bind_eq_some_iff.mp h
          obtain ⟨next, hnext, heq⟩ := Option.bind_eq_some_iff.mp h
          exact ⟨options, next, JsonMap.field?_string?_eq_some.mp hnext,
            Option.some.inj heq⟩
      obtain rfl := List.mem_singleton.mp hedge
      exact hnext
  | branch =>
      simp only [Option.bind_some, Option.bind_eq_some_iff,
        JsonMap.field?_string?_eq_some] at h
      obtain ⟨condition, -, onTrue, htrue, onFalse, hfalse, h⟩ := h
      obtain rfl := Option.some.inj h
      rcases List.mem_pair.mp hedge with rfl | rfl
      · exact htrue
      · exact hfalse
  | waitForApproval =>
      simp only [Option.bind_some, Option.bind_eq_some_iff,
        JsonMap.field?_string?_eq_some] at h
      obtain ⟨resolution, -, onApprove, happrove, onReject, hreject, timeout,
          -, h⟩ := h
      obtain rfl := Option.some.inj h
      rcases List.mem_pair.mp hedge with rfl | rfl
      · exact happrove
      · exact hreject
  | submitTicket =>
      simp only [Option.bind_some, Option.bind_eq_some_iff,
        JsonMap.field?_string?_eq_some] at h
      obtain ⟨next, hnext, h⟩ := h
      obtain rfl := Option.some.inj h
      obtain rfl := List.mem_singleton.mp hedge
      exact hnext
  | «end» =>
      simp only [Option.bind_some, Option.bind_eq_some_iff] at h
      obtain ⟨outcome, -, h⟩ := h
      obtain rfl := Option.some.inj h
      cases hedge

end Json

namespace Builder

variable {readFloat : ReadFloat} {parseUuid : String → Option Uuid}

section Written

variable {oldId newId : String}

/-- What `commitIdChange` makes of a reference. -/
def renameRef (oldId : JsValue) (newId : String) (ref : JsValue) : JsValue :=
  if ref.strictEq oldId then .string newId else ref

theorem renameRef_string (oldId newId id : String) :
    renameRef (.string oldId) newId (.string id) =
      .string (renameTo (.string oldId) newId id) := by
  unfold renameRef renameTo
  split <;> rfl

theorem renameRef_of_ne {oldId newId : String} {ref : JsValue}
    (h : ∀ id, ref ≠ .string id) :
    renameRef (.string oldId) newId ref = ref := by
  cases ref with
  | string id => exact absurd rfl (h id)
  | _ => rfl

/-- Only a text is read as a text. -/
theorem read?_ne_string {x : JsValue} {v : JsonValue}
    (hx : ∀ id, x ≠ .string id) (h : x.read? readFloat = some v)
    (f : String → String) : v.renameText f = v := by
  cases v with
  | string s =>
      cases x with
      | string id => exact absurd rfl (hx id)
      | number n => cases n <;> simp [read?] at h
      | _ => simp [read?] at h
  | _ => rfl

theorem read?_renameRef (x : JsValue) :
    (renameRef (.string oldId) newId x).read? readFloat =
      (x.read? readFloat).map
        (JsonValue.renameText (renameTo (.string oldId) newId)) := by
  by_cases hx : ∃ id, x = .string id
  · obtain ⟨id, rfl⟩ := hx
    rw [renameRef_string]
    rfl
  · have hx' : ∀ id, x ≠ .string id := fun id h => hx ⟨id, h⟩
    rw [renameRef_of_ne hx']
    cases hread : x.read? readFloat with
    | none => rfl
    | some v => rw [Option.map_some, read?_ne_string hx' hread]

/-- The entries of a step's kind with other references. -/
def renameKeys (oldId newId : String) (entries : List (String × JsValue)) :
    List (String × JsValue) :=
  entries.map fun (key, x) =>
    (key, if key ∈ refFields then renameRef (.string oldId) newId x else x)

theorem readEntries?_renameKeys (entries : List (String × JsValue)) :
    readEntries? readFloat (renameKeys oldId newId entries) =
      (readEntries? readFloat entries).map
        (renameEntries (renameTo (.string oldId) newId)) := by
  induction entries with
  | nil => rfl
  | cons entry rest ih =>
      obtain ⟨key, x⟩ := entry
      have hkeys : renameKeys oldId newId ((key, x) :: rest) =
          (key, if key ∈ refFields then renameRef (.string oldId) newId x
                else x) ::
            renameKeys oldId newId rest := rfl
      have hhead : read? readFloat
          (if key ∈ refFields then renameRef (.string oldId) newId x else x) =
            (read? readFloat x).map fun v => if key ∈ refFields then
              v.renameText (renameTo (.string oldId) newId) else v := by
        split
        · exact read?_renameRef x
        · exact Option.map_id'.symm
      rw [hkeys]
      by_cases hx : x = .undefined
      · subst hx
        have hsame :
            (if key ∈ refFields then renameRef (.string oldId) newId .undefined
              else .undefined) = JsValue.undefined := by
          split <;> rfl
        rw [hsame]
        simp only [readEntries?, ih]
      · have hne :
            (if key ∈ refFields then renameRef (.string oldId) newId x
              else x) ≠ .undefined := by
          split
          · unfold renameRef
            split
            · simp
            · exact hx
          · exact hx
        rw [readEntries?_cons hne, readEntries?_cons hx, hhead, ih]
        cases read? readFloat x with
        | none => rfl
        | some v => cases readEntries? readFloat rest <;> rfl

/-- The JSON of a kind with other references. -/
def renameKind (oldId newId : String) : JsValue → JsValue
  | .object ref entries => .object ref (renameKeys oldId newId entries)
  | v => v

theorem kindToJson_cases (s : BuilderStep) :
    (∃ entries, kindToJson s = literal entries) ∨ kindToJson s = .null := by
  unfold kindToJson
  split
  case h_6 => exact .inr rfl
  all_goals exact .inl ⟨_, rfl⟩

theorem kindToJson_mapRefs (s : BuilderStep) :
    kindToJson (s.mapRefs (renameRef (.string oldId) newId)) =
      renameKind oldId newId (kindToJson s) := by
  unfold kindToJson BuilderStep.mapRefs
  dsimp only
  split <;> simp [renameKind, literal, renameKeys, refFields] <;> rfl

/-- What the server reads of a step's kind. -/
def kind? (readFloat : ReadFloat) (parseUuid : String → Option Uuid)
    (s : BuilderStep) : Option StepKind :=
  ((kindToJson s).read? readFloat).bind (StepKind.ofJson? parseUuid)

theorem kind?_mapRefs (s : BuilderStep) :
    kind? readFloat parseUuid (s.mapRefs (renameRef (.string oldId) newId)) =
      (kind? readFloat parseUuid s).map
        (StepKind.rename (renameTo (.string oldId) newId)) := by
  unfold kind?
  rw [kindToJson_mapRefs]
  rcases kindToJson_cases s with ⟨entries, hkind⟩ | hkind
  · rw [hkind]
    simp only [literal, renameKind, read?, readEntries?_renameKeys]
    cases readEntries? readFloat entries with
    | none => rfl
    | some entries' =>
        simp only [Option.map_some, Option.bind_some]
        exact ofJson?_renameEntries entries'
  · rw [hkind]
    rfl

end Written

section Read

theorem mem_of_readEntries? {entries : List (String × JsValue)}
    {entries' : JsonMap} {key : String} {v : JsonValue}
    (h : readEntries? readFloat entries = some entries')
    (hget : entries'.get? key = some v) :
    ∃ x, (key, x) ∈ entries ∧ x.read? readFloat = some v := by
  induction entries generalizing entries' with
  | nil =>
      obtain rfl := Option.some.inj h
      cases hget
  | cons entry rest ih =>
      obtain ⟨key', x⟩ := entry
      by_cases hx : x = .undefined
      · subst hx
        simp only [readEntries?] at h
        obtain ⟨y, hy, hread⟩ := ih h hget
        exact ⟨y, List.mem_cons_of_mem _ hy, hread⟩
      · rw [readEntries?_cons hx] at h
        obtain ⟨w, hw, h⟩ := Option.bind_eq_some_iff.mp h
        obtain ⟨others, hothers, rfl⟩ := Option.map_eq_some_iff.mp h
        by_cases hkey : key = key'
        · subst hkey
          obtain rfl : w = v := by simpa [JsonMap.get?] using hget
          exact ⟨x, List.mem_cons_self, hw⟩
        · have hget' : JsonMap.get? others key = some v := by
            simpa [JsonMap.get?, hkey] using hget
          obtain ⟨y, hy, hread⟩ := ih hothers hget'
          exact ⟨y, List.mem_cons_of_mem _ hy, hread⟩

theorem eq_string_of_read? {x : JsValue} {s : String}
    (h : x.read? readFloat = some (.string s)) : x = .string s := by
  cases x with
  | string id =>
      obtain rfl := JsonValue.string.inj (Option.some.inj h)
      rfl
  | number n => cases n <;> simp [read?] at h
  | _ => simp [read?] at h

/-- What the server reads of a step. -/
def step? (readFloat : ReadFloat) (parseUuid : String → Option Uuid)
    (s : BuilderStep) : Option Step :=
  ((stepToJson s).read? readFloat).bind (Step.ofJson? parseUuid)

/-- The graph that the server reads of the builder's JSON. -/
def graph? (readFloat : ReadFloat) (parseUuid : String → Option Uuid)
    (b : Builder) : Option WorkflowGraph :=
  ((buildGraphObject b).read? readFloat).bind (WorkflowGraph.ofJson? parseUuid)

theorem step?_eq_some_iff {s : BuilderStep} {step : Step} :
    step? readFloat parseUuid s = some step ↔ s.id = .string step.id ∧
      s.label = .string step.label ∧
      kind? readFloat parseUuid s = some step.kind := by
  constructor
  · intro h
    obtain ⟨v, hv, hstep⟩ := Option.bind_eq_some_iff.mp h
    simp only [stepToJson, literal, read?] at hv
    obtain ⟨entries, hentries, rfl⟩ := Option.map_eq_some_iff.mp hv
    obtain ⟨hid, hlabel, w, hw, hkind⟩ := step_of_ofJson? hstep
    obtain ⟨id, hmem, hread⟩ := mem_of_readEntries? hentries hid
    obtain ⟨label, hmem', hread'⟩ := mem_of_readEntries? hentries hlabel
    obtain ⟨kind, hmem'', hread''⟩ := mem_of_readEntries? hentries hw
    obtain rfl : id = s.id := by simpa using hmem
    obtain rfl : label = s.label := by simpa using hmem'
    obtain rfl : kind = kindToJson s := by simpa using hmem''
    exact ⟨eq_string_of_read? hread, eq_string_of_read? hread',
      Option.bind_eq_some_iff.mpr ⟨w, hread'', hkind⟩⟩
  · rintro ⟨hid, hlabel, hkind⟩
    obtain ⟨v, hv, hkind⟩ := Option.bind_eq_some_iff.mp hkind
    rw [step?, read?_stepToJson hid hlabel, hv, Option.map_some,
      Option.bind_some, ofJson?_step, hkind]
    rfl

theorem edge_of_mem {s : BuilderStep} {entries : List (String × JsValue)}
    {key : String} {x : JsValue} (h : kindToJson s = literal entries)
    (hkey : key ∈ refFields) (hmem : (key, x) ∈ entries) :
    ∃ edge ∈ outgoingEdges s, edge.«to» = x := by
  unfold kindToJson at h
  split at h
  case h_6 => cases h
  all_goals
    rename_i hkind
    obtain ⟨-, rfl⟩ := JsValue.object.inj h
    unfold outgoingEdges
    rw [hkind]
    simp only [refFields, List.mem_cons, List.not_mem_nil, or_false] at hkey
    rcases hkey with rfl | rfl | rfl | rfl | rfl <;> simp_all

/-- The arrows that the server reads are edges that the builder shows. -/
theorem edge_of_kind? {s : BuilderStep} {kind : StepKind}
    (h : kind? readFloat parseUuid s = some kind) {edge : EdgeKind × String}
    (hedge : edge ∈ kind.edges) :
    ∃ shown ∈ outgoingEdges s, shown.«to» = .string edge.2 := by
  obtain ⟨v, hv, hkind⟩ := Option.bind_eq_some_iff.mp h
  rcases kindToJson_cases s with ⟨entries, hliteral⟩ | hnull
  · rw [hliteral, literal, read?] at hv
    obtain ⟨entries', hentries, rfl⟩ := Option.map_eq_some_iff.mp hv
    obtain ⟨x, hmem, hread⟩ :=
      mem_of_readEntries? hentries (edges_of_ofJson? hkind hedge)
    obtain rfl := eq_string_of_read? hread
    have hkey : edge.1.field ∈ refFields := by cases edge.1 <;> decide
    exact edge_of_mem hliteral hkey hmem
  · rw [hnull] at hv
    obtain rfl := Option.some.inj hv
    cases hkind

/-- The state is read as the graph, with the entry taken as it is. -/
structure Reads (readFloat : ReadFloat) (parseUuid : String → Option Uuid)
    (b : Builder) (graph : WorkflowGraph) : Prop where
  entry : b.entryStepId = .string graph.entryStepId
  steps : List.Forall₂ (fun s step => step? readFloat parseUuid s = some
    step) b.steps graph.steps

theorem mapM_step? (steps : List BuilderStep) :
    steps.mapM (step? readFloat parseUuid) =
      (readItems? readFloat (steps.map stepToJson)).bind
        (List.mapM (Step.ofJson? parseUuid)) := by
  rw [readItems?_eq_mapM, List.mapM_map]
  exact (mapM_bind_mapM _ _ _).symm

theorem graph?_of_entry {b : Builder} {entryStepId : String}
    (h : b.entryStepId.or (.string "") = .string entryStepId) :
    b.graph? readFloat parseUuid =
      (b.steps.mapM (step? readFloat parseUuid)).map
        (WorkflowGraph.mk entryStepId) := by
  rw [graph?, read?_buildGraphObject h, mapM_step?]
  cases readItems? readFloat (b.steps.map stepToJson) with
  | none => rfl
  | some items => exact ofJson?_graph entryStepId items

theorem Reads.graph?_eq {b : Builder} {graph : WorkflowGraph}
    (h : Reads readFloat parseUuid b graph) :
    b.graph? readFloat parseUuid = some graph := by
  have hentry : b.entryStepId.or (.string "") = .string graph.entryStepId := by
    rw [h.entry]
    by_cases hblank : graph.entryStepId = ""
    · rw [hblank]
      rfl
    · exact or_string_of_ne hblank _
  rw [graph?_of_entry hentry, mapM_eq_some.mpr h.steps]
  rfl

theorem Reads.of_graph? {b : Builder} {graph : WorkflowGraph}
    (h : b.graph? readFloat parseUuid = some graph)
    (hentry : b.HasStep b.entryStepId) :
    Reads readFloat parseUuid b graph := by
  obtain ⟨v, hv, hgraph⟩ := Option.bind_eq_some_iff.mp h
  simp only [buildGraphObject, literal, read?] at hv
  obtain ⟨entries, hentries, rfl⟩ := Option.map_eq_some_iff.mp hv
  obtain ⟨hid, items, hitems, hsteps⟩ := graph_of_ofJson? hgraph
  obtain ⟨id, hmem, hread⟩ := mem_of_readEntries? hentries hid
  obtain ⟨array, hmem', hread'⟩ := mem_of_readEntries? hentries hitems
  obtain rfl : id = b.entryStepId.or (.string "") := by simpa using hmem
  obtain rfl : array = .array [] (b.steps.map stepToJson) := by
    simpa using hmem'
  have hor := eq_string_of_read? hread
  have hsteps' : List.Forall₂
      (fun s step => step? readFloat parseUuid s = some step)
      b.steps graph.steps := by
    rw [read?_array] at hread'
    obtain ⟨items', hitems', heq⟩ := Option.map_eq_some_iff.mp hread'
    obtain rfl := JsonValue.array.inj heq
    rw [← mapM_eq_some, mapM_step?, hitems', Option.bind_some, hsteps]
  refine ⟨?_, hsteps'⟩
  -- the entry is the same as the id of a step, so it is a text
  obtain ⟨s, hs, heq⟩ := hentry
  obtain ⟨step, -, hstep⟩ := exists_of_forall₂ hsteps'.flip hs
  rw [(step?_eq_some_iff.mp hstep).1] at heq
  cases hvalue : b.entryStepId with
  | string id =>
      rw [hvalue] at hor
      by_cases hblank : id = ""
      · subst hblank
        exact hor
      · rwa [or_string_of_ne hblank] at hor
  | _ => simp [hvalue, JsValue.strictEq] at heq

theorem Reads.ids {b : Builder} {graph : WorkflowGraph}
    (h : Reads readFloat parseUuid b graph) :
    b.steps.map BuilderStep.id = (stepIds graph.steps).map .string := by
  rw [stepIds, List.map_map]
  exact forall₂_iff_map_eq.mp
    (h.steps.imp fun _ _ hstep => (step?_eq_some_iff.mp hstep).1)

theorem Reads.hasStep_iff {b : Builder} {graph : WorkflowGraph}
    (h : Reads readFloat parseUuid b graph) {id : String} :
    b.HasStep (.string id) ↔ id ∈ stepIds graph.steps := by
  have hmem : JsValue.string id ∈ b.steps.map BuilderStep.id ↔
      id ∈ stepIds graph.steps := by
    rw [h.ids]
    exact List.mem_map_of_injective fun _ _ heq => JsValue.string.inj heq
  rw [← hmem]
  constructor
  · rintro ⟨s, hs, heq⟩
    have hid : s.id = .string id := by
      cases hvalue : s.id <;> simp_all [JsValue.strictEq]
    exact hid ▸ List.mem_map_of_mem hs
  · exact hasStep_of_mem

end Read

section Actions

/-- The checks of `commitIdChange` pass. -/
structure Accepted (b : Builder) (index : ℕ) (oldId : JsValue)
    (newId : String) : Prop where
  nonblank : newId ≠ ""
  changed : (JsValue.string newId).strictEq oldId = false
  unused : ((b.steps.eraseIdx index).any
    (·.id.strictEq (.string newId))) = false

/-- Renames that are accepted, moves, and steps that are folded, with the
renaming of ids that they add up to. -/
inductive Cosmetic (b : Builder) : (String → String) → Builder → Prop
  | refl : Cosmetic b id b
  | rename {f : String → String} {b₁ : Builder} {index : ℕ} {s : BuilderStep}
      {newId : String} (hrun : Cosmetic b f b₁) (hs : b₁.steps[index]? = some s)
      (haccepted : b₁.Accepted index s.id newId) :
      Cosmetic b (renameTo s.id newId ∘ f) (b₁.commitIdChange index s.id newId)
  | click {f : String → String} {b₁ : Builder} {click : Click}
      (hrun : Cosmetic b f b₁) (card : ℕ)
      (hclick : click = .moveUp ∨ click = .moveDown ∨ click = .toggleCollapse) :
      Cosmetic b f (b₁.act (.click card click))

variable {b b' : Builder} {graph : WorkflowGraph}

/-- The step under its new id, with the references of all fields. -/
def renameStep (oldId newId : String) (s : BuilderStep) : BuilderStep :=
  { s.mapRefs (renameRef (.string oldId) newId) with
    id := renameRef (.string oldId) newId s.id }

theorem kind?_renameStep (s : BuilderStep) (oldId newId : String) :
    kind? readFloat parseUuid (renameStep oldId newId s) =
      kind? readFloat parseUuid
        (s.mapRefs (renameRef (.string oldId) newId)) := by
  unfold kind? kindToJson renameStep
  rfl

theorem step?_renameStep {s : BuilderStep} {step : Step} {oldId newId : String}
    (h : step? readFloat parseUuid s = some step) :
    step? readFloat parseUuid (renameStep oldId newId s) =
      some (step.rename (renameTo (.string oldId) newId)) := by
  obtain ⟨hid, hlabel, hkind⟩ := step?_eq_some_iff.mp h
  rw [step?_eq_some_iff]
  refine ⟨?_, hlabel, ?_⟩
  · show renameRef _ _ s.id = _
    rw [hid, renameRef_string]
    rfl
  · rw [kind?_renameStep, kind?_mapRefs, hkind]
    rfl

/-- Only one step has the id, so it is the only one that gets the new one. -/
theorem steps_commitIdChange {index : ℕ} {s : BuilderStep}
    {oldId newId : String} (hdistinct : (b.steps.map BuilderStep.id).Nodup)
    (hs : b.steps[index]? = some s) (hid : s.id = .string oldId)
    (haccepted : b.Accepted index (.string oldId) newId) :
    (b.commitIdChange index (.string oldId) newId).steps =
        b.steps.map (renameStep oldId newId) ∧
      (b.commitIdChange index (.string oldId) newId).entryStepId =
        renameRef (.string oldId) newId b.entryStepId := by
  have hcommit : b.commitIdChange index (.string oldId) newId =
      { b with
        steps :=
          (b.steps.map (·.mapRefs (renameRef (.string oldId) newId))).modify
            index fun s => { s with id := .string newId }
        entryStepId := renameRef (.string oldId) newId b.entryStepId } := by
    unfold commitIdChange
    rw [if_neg haccepted.nonblank, if_neg (by simp [haccepted.changed]),
      if_neg (by simp [haccepted.unused])]
    rfl
  rw [hcommit]
  refine ⟨List.ext_getElem? fun i => ?_, rfl⟩
  rw [List.getElem?_modify, List.getElem?_map, List.getElem?_map]
  cases ht : b.steps[i]? with
  | none => rfl
  | some t =>
      by_cases hi : index = i
      · subst hi
        obtain rfl := Option.some.inj (hs.symm.trans ht)
        have hnew : renameRef (.string oldId) newId s.id = .string newId := by
          simp [hid, renameRef, JsValue.strictEq]
        simp [renameStep, hnew]
      · have hother : ∀ id, t.id = .string id → id ≠ oldId := by
          rintro id htid rfl
          have hget : (b.steps.map BuilderStep.id)[index]? =
              (b.steps.map BuilderStep.id)[i]? := by
            rw [List.getElem?_map, List.getElem?_map, hs, ht, Option.map_some,
              Option.map_some, hid, htid]
          have hlt : index < (b.steps.map BuilderStep.id).length := by
            rw [List.length_map]
            exact (List.getElem?_eq_some_iff.mp hs).1
          exact hi ((List.getElem?_inj hlt hdistinct).mp hget)
        have hsame : renameRef (.string oldId) newId t.id = t.id := by
          cases htid : t.id with
          | string id => simp [renameRef, JsValue.strictEq, hother id htid]
          | _ => rfl
        simp [hi, renameStep, hsame, BuilderStep.mapRefs]

/-- A name that no step has can be given to any of them. -/
theorem renameTo_injective {oldId newId : String} {ids : List String}
    (hnew : newId ∉ ids) :
    ∀ a ∈ ids, ∀ c ∈ ids,
      renameTo (.string oldId) newId a = renameTo (.string oldId) newId c →
      a = c := by
  intro a ha c hc heq
  by_cases hao : a = oldId <;> by_cases hco : c = oldId
  · rw [hao, hco]
  · simp [renameTo, JsValue.strictEq, hao, hco] at heq
    exact absurd (heq ▸ hc) hnew
  · simp [renameTo, JsValue.strictEq, hao, hco] at heq
    exact absurd (heq ▸ ha) hnew
  · simpa [renameTo, JsValue.strictEq, hao, hco] using heq

theorem Accepted.notMem {index : ℕ} {s : BuilderStep} {newId : String}
    (haccepted : b.Accepted index s.id newId) (hs : b.steps[index]? = some s)
    (hread : Reads readFloat parseUuid b graph) :
    newId ∉ stepIds graph.steps := by
  rw [← hread.hasStep_iff]
  rintro ⟨t, ht, heq⟩
  obtain ⟨i, hi⟩ := List.mem_iff_getElem?.mp ht
  by_cases hsame : i = index
  · subst hsame
    obtain rfl := Option.some.inj (hs.symm.trans hi)
    have hchanged := haccepted.changed
    cases hid : s.id <;> simp_all [JsValue.strictEq]
  · have hmem : t ∈ b.steps.eraseIdx index := by
      rw [List.mem_eraseIdx_iff_getElem?]
      exact ⟨i, hsame, hi⟩
    have hany : (b.steps.eraseIdx index).any
        (·.id.strictEq (.string newId)) = true :=
      List.any_eq_true.mpr ⟨t, hmem, heq⟩
    rw [haccepted.unused] at hany
    cases hany

/-- An accepted rename: the graph that is written has the new name. -/
theorem reads_commitIdChange {index : ℕ} {s : BuilderStep} {newId : String}
    (hread : Reads readFloat parseUuid b graph)
    (hdistinct : (stepIds graph.steps).Nodup) (hresolves : graph.Resolves)
    (hs : b.steps[index]? = some s) (haccepted : b.Accepted index s.id newId) :
    ∃ graph',
      Reads readFloat parseUuid (b.commitIdChange index s.id newId) graph' ∧
      Renamed (renameTo s.id newId) graph graph' := by
  obtain ⟨step, hmem, hstep⟩ :=
    exists_of_forall₂ hread.steps.flip (List.mem_of_getElem? hs)
  have hid : s.id = .string step.id := (step?_eq_some_iff.mp hstep).1
  have hnew := haccepted.notMem hs hread
  rw [hid] at haccepted ⊢
  have hids : (b.steps.map BuilderStep.id).Nodup := by
    rw [hread.ids]
    exact hdistinct.map fun _ _ h => JsValue.string.inj h
  obtain ⟨hsteps, hentry⟩ := steps_commitIdChange hids hs hid haccepted
  refine ⟨⟨renameTo (.string step.id) newId graph.entryStepId,
    graph.steps.map (Step.rename (renameTo (.string step.id) newId))⟩,
      ⟨?_, ?_⟩, ?_⟩
  · rw [hentry, hread.entry, renameRef_string]
  · rw [hsteps, List.forall₂_map_left_iff, List.forall₂_map_right_iff]
    exact hread.steps.imp fun _ _ h => step?_renameStep h
  · exact ⟨hdistinct, hresolves, renameTo_injective hnew, rfl, .refl _⟩

/-- Steps that are put into another order. -/
theorem reads_of_perm (hread : Reads readFloat parseUuid b graph)
    (hdistinct : (stepIds graph.steps).Nodup) (hresolves : graph.Resolves)
    (hperm : b'.steps.Perm b.steps) (hentry : b'.entryStepId = b.entryStepId) :
    ∃ graph', Reads readFloat parseUuid b' graph' ∧
      Renamed id graph graph' := by
  obtain ⟨steps, hsteps, hperm'⟩ := List.perm_comp_forall₂ hperm hread.steps
  refine ⟨⟨graph.entryStepId, steps⟩, ⟨hentry.trans hread.entry, hsteps⟩, ?_⟩
  have hrefl := Renamed.refl hdistinct hresolves
  exact ⟨hdistinct, hresolves, hrefl.injective, rfl, hperm'.trans hrefl.steps⟩

theorem reads_click {card : ℕ} {click : Click}
    (hread : Reads readFloat parseUuid b graph)
    (hdistinct : (stepIds graph.steps).Nodup) (hresolves : graph.Resolves)
    (hclick : click = .moveUp ∨ click = .moveDown ∨ click = .toggleCollapse) :
    ∃ graph', Reads readFloat parseUuid (b.act (.click card click)) graph' ∧
      Renamed id graph graph' := by
  have hstay : ∃ graph', Reads readFloat parseUuid b graph' ∧
      Renamed id graph graph' :=
    ⟨graph, hread, .refl hdistinct hresolves⟩
  unfold act
  dsimp only
  split
  · exact hstay
  · split
    · exact hstay
    · unfold onListClick
      split
      · exact hstay
      · split
        · exact hstay
        · rename_i index _ step hstep
          rcases hclick with rfl | rfl | rfl
          · dsimp only
            split
            · have hlt := (List.getElem?_eq_some_iff.mp hstep).1
              exact reads_of_perm hread hdistinct hresolves
                (perm_move hstep (by omega)) rfl
            · exact hstay
          · dsimp only
            split
            · exact reads_of_perm hread hdistinct hresolves
                (perm_move hstep (by omega)) rfl
            · exact hstay
          · refine ⟨graph, ⟨hread.entry, ?_⟩, .refl hdistinct hresolves⟩
            rw [forall₂_iff_map_eq, map_modify,
              forall₂_iff_map_eq.mp hread.steps]
            intro s
            rfl

/-- A run of such edits renames the graph that is written. -/
theorem Cosmetic.reads {f : String → String} (hrun : Cosmetic b f b')
    (hread : Reads readFloat parseUuid b graph)
    (hdistinct : (stepIds graph.steps).Nodup) (hresolves : graph.Resolves) :
    ∃ graph', Reads readFloat parseUuid b' graph' ∧ Renamed f graph graph' := by
  induction hrun with
  | refl => exact ⟨graph, hread, .refl hdistinct hresolves⟩
  | rename _ hs haccepted ih =>
      obtain ⟨graph₁, hread₁, hrenamed⟩ := ih
      obtain ⟨graph', hread', hrenamed'⟩ :=
        reads_commitIdChange hread₁ hrenamed.distinct' hrenamed.resolves'
          hs haccepted
      exact ⟨graph', hread', hrenamed.trans hrenamed'⟩
  | click _ card hclick ih =>
      obtain ⟨graph₁, hread₁, hrenamed⟩ := ih
      obtain ⟨graph', hread', hrenamed'⟩ :=
        reads_click hread₁ hrenamed.distinct' hrenamed.resolves' hclick
      exact ⟨graph', hread', hrenamed.trans hrenamed'⟩

/-- The ids and references of a state are those of the graph it is read as. -/
theorem Reads.graph_wellFormed (hread : Reads readFloat parseUuid b graph)
    (hdistinct : (b.steps.map BuilderStep.id).Nodup)
    (hentry : b.HasStep b.entryStepId)
    (hedges : ∀ s ∈ b.steps, ∀ edge ∈ outgoingEdges s, b.HasStep edge.«to») :
    (stepIds graph.steps).Nodup ∧ graph.Resolves := by
  refine ⟨?_, ?_, ?_⟩
  · rw [hread.ids] at hdistinct
    exact hdistinct.of_map _
  · rw [hread.entry] at hentry
    exact WorkflowGraph.step_isSome_iff.mpr (hread.hasStep_iff.mp hentry)
  · intro step hstep edge hedge
    obtain ⟨s, hs, hread'⟩ := exists_of_forall₂ hread.steps hstep
    obtain ⟨shown, hshown, hto⟩ :=
      edge_of_kind? (step?_eq_some_iff.mp hread').2.2 hedge
    have htarget := hedges s hs shown hshown
    rw [hto] at htarget
    exact WorkflowGraph.step_isSome_iff.mpr (hread.hasStep_iff.mp htarget)

/-- After renames, moves and folding, the graph that is written behaves as the
one before under the names that the renames add up to. -/
theorem Cosmetic.behaves_alike {f : String → String}
    (hgraph : b.graph? readFloat parseUuid = some graph)
    (hdistinct : (b.steps.map BuilderStep.id).Nodup)
    (hentry : b.HasStep b.entryStepId)
    (hedges : ∀ s ∈ b.steps, ∀ edge ∈ outgoingEdges s, b.HasStep edge.«to»)
    (hrun : Cosmetic b f b') :
    ∃ graph', b'.graph? readFloat parseUuid = some graph' ∧
      (∀ id ∈ stepIds graph.steps,
        graph'.step (f id) = (graph.step id).map (Step.rename f)) ∧
      (∀ id ∈ stepIds graph.steps, ∀ other ∈ stepIds graph.steps,
        f id = f other → id = other) ∧
      Engine.start graph' = Engine.renameReturned f (Engine.start graph) ∧
      ∀ id ∈ stepIds graph.steps, ∀ (answers : Answers) (call : Engine.Call),
        call.perform graph' (f id) answers =
          ((call.perform graph id answers).1,
            Engine.renameReturned f (call.perform graph id answers).2) := by
  have hread := Reads.of_graph? hgraph hentry
  obtain ⟨hdistinct', hresolves⟩ :=
    hread.graph_wellFormed hdistinct hentry hedges
  obtain ⟨graph', hread', hrenamed⟩ := hrun.reads hread hdistinct' hresolves
  refine ⟨graph', hread'.graph?_eq, fun id hid => ?_, hrenamed.injective,
    Engine.start_renamed hrenamed, fun id hid answers call =>
      Engine.perform_renamed hrenamed hid answers call⟩
  obtain ⟨s, -, hstep, hstep'⟩ := hrenamed.step hid
  rw [hstep, hstep']
  rfl

/-- The starter example with its end renamed and moved up. -/
def movedExample : Builder :=
  (starterExample.commitIdChange 1 (.string "end_ok") "done").act
    (.click 1 .moveUp)

theorem cosmetic_movedExample :
    Cosmetic starterExample
      (renameTo (.string "end_ok") "done") movedExample := by
  have hs : starterExample.steps[1]? = some starterExample.steps[1] := rfl
  have haccepted : starterExample.Accepted 1
      starterExample.steps[1].id "done" :=
    ⟨by decide, by decide, by decide⟩
  exact .click (.rename .refl hs haccepted) 1 (.inl rfl)

/-- The graph of the starter example. -/
def starterGraph : WorkflowGraph where
  entryStepId := "ask_summary"
  steps := [⟨"ask_summary", "What do you need?",
      .question "summary" .textArea true [] "end_ok"⟩,
    ⟨"end_ok", "Done", .end .completed⟩]

theorem Cosmetic.behaves_alike_movedExample :
    ∃ graph', movedExample.graph? roundingReader (fun _ => none) = some graph' ∧
      (∀ id ∈ stepIds starterGraph.steps,
        graph'.step (renameTo (.string "end_ok") "done" id) =
          (starterGraph.step id).map
            (Step.rename (renameTo (.string "end_ok") "done"))) ∧
      (∀ id ∈ stepIds starterGraph.steps, ∀ other ∈ stepIds starterGraph.steps,
        renameTo (.string "end_ok") "done" id = renameTo
          (.string "end_ok") "done" other → id = other) ∧
      Engine.start graph' = Engine.renameReturned
        (renameTo (.string "end_ok") "done") (Engine.start starterGraph) ∧
      ∀ id ∈ stepIds starterGraph.steps,
        ∀ (answers : Answers) (call : Engine.Call),
        call.perform graph' (renameTo (.string "end_ok") "done" id) answers =
          ((call.perform starterGraph id answers).1,
            Engine.renameReturned (renameTo (.string "end_ok") "done")
              (call.perform starterGraph id answers).2) := by
  have hids : starterExample.steps.map BuilderStep.id =
      [.string "ask_summary", .string "end_ok"] := rfl
  apply Cosmetic.behaves_alike (b := starterExample)
  · rfl
  · simp [hids]
  · exact @hasStep_of_mem _ "ask_summary" (by simp [hids])
  · intro s hs edge hedge
    have hedges : (starterExample.steps.flatMap outgoingEdges).map
        BuilderEdge.«to» = [.string "end_ok"] := rfl
    have hmem : edge.«to» ∈ (starterExample.steps.flatMap outgoingEdges).map
        BuilderEdge.«to» :=
      List.mem_map_of_mem (List.mem_flatMap.mpr ⟨s, hs, hedge⟩)
    rw [hedges, List.mem_singleton] at hmem
    rw [hmem]
    exact hasStep_of_mem (by simp [hids])
  · exact cosmetic_movedExample

end Actions

end Builder

end Servcat
