/-
What the builder checks before a graph is submitted, and which graphs pass.
-/
import Servcat.Web.Editing
import Mathlib.Data.List.Nodup

namespace Servcat

namespace Builder

structure BuilderEdge where
  field : String
  «to» : JsValue
  label : Option String
  color : Option String
deriving Repr

def outgoingEdges (step : BuilderStep) : List BuilderEdge :=
  match step.kind with
  | .string "question" => [⟨"next", step.next, none, none⟩]
  | .string "branch" =>
      [⟨"on_true", step.onTrue, some "true", some "green"⟩,
        ⟨"on_false", step.onFalse, some "false", some "red"⟩]
  | .string "wait_for_approval" =>
      [⟨"on_approve", step.onApprove, some "approve", some "green"⟩,
        ⟨"on_reject", step.onReject, some "reject", some "red"⟩]
  | .string "submit_ticket" => [⟨"next", step.next, none, none⟩]
  | _ => []

/-- The properties that every object has, also one that is written as `{}`. -/
def inheritedNames : List String :=
  ["constructor", "toString", "toLocaleString", "valueOf", "hasOwnProperty",
    "isPrototypeOf", "propertyIsEnumerable", "__proto__", "__defineGetter__",
    "__defineSetter__", "__lookupGetter__", "__lookupSetter__"]

def entryErrors (b : Builder) : List String :=
  if !b.entryStepId.truthy || !b.steps.any (·.id.strictEq b.entryStepId) then
    ["Mark one step as the entry step (click the star in its header)."]
  else []

def endErrors (b : Builder) : List String :=
  if !b.steps.any (·.kind.strictEq (.string "end")) then
    ["Add at least one End step, or a request could never actually finish."]
  else []

/-- The errors about an id: `seen[s.id]` is looked up by the text of the id. -/
def idErrors (seen : List String) (s : BuilderStep)
    (name : String) : List String :=
  if !s.id.truthy then ["Every step needs a non-empty id."]
  else if name ∈ inheritedNames ∨ name ∈ seen then
    [s!"Step id \"{name}\" is used more than once."]
  else []

def edgeErrors (ids : List JsValue) (name : String) (edge : BuilderEdge) :
    Option (List String) :=
  if !edge.«to».truthy then some [s!"Step \"{name}\" is missing a connection."]
  else if ids.any (·.strictEq edge.«to») then some []
  else edge.«to».text?.map fun target =>
    [s!"Step \"{name}\" points to \"{target}\", which doesn't exist."]

def fieldErrors (s : BuilderStep) (name : String) : List String :=
  (if s.kind.strictEq (.string "question") && !s.fieldKey.truthy then
    [s!"Question step \"{name}\" needs a field key."]
  else []) ++
  (if s.kind.strictEq (.string "branch") && (simpleOp? s.conditionOp).isSome &&
      !s.conditionFieldKey.truthy then
    [s!"Branch step \"{name}\" needs a field key to check."]
  else []) ++
  if s.kind.strictEq (.string "wait_for_approval") &&
      s.approverType.strictEq (.string "static") &&
        !s.approverUserId.truthy then
    [s!"Approval step \"{name}\" needs a specific person selected."]
  else []

/-- The loop over the steps, after the ids whose texts were seen; an exception
where an id or the target of an arrow cannot be made a text. -/
def stepErrors (ids : List JsValue) (seen : List String) :
    List BuilderStep → Option (List String)
  | [] => some []
  | s :: rest => do
      let name ← s.id.text?
      let edges ← (outgoingEdges s).mapM (edgeErrors ids name)
      let others ← stepErrors ids (name :: seen) rest
      some (idErrors seen s name ++ edges.flatten ++
        fieldErrors s name ++ others)

def validate (b : Builder) : Option (List String) :=
  match b.steps with
  | [] => some ["Add at least one step."]
  | steps => do
      let errors ← stepErrors (steps.map BuilderStep.id) [] steps
      some (b.entryErrors ++ b.endErrors ++ errors).eraseDups

/-- Some step has this id. -/
def HasStep (b : Builder) (id : JsValue) : Prop :=
  ∃ s ∈ b.steps, s.id.strictEq id = true

/-- The fields that a step of its kind needs are filled in. -/
structure Filled (s : BuilderStep) : Prop where
  question : s.kind.strictEq (.string "question") = true →
    s.fieldKey.truthy = true
  branch : s.kind.strictEq (.string "branch") = true →
    (simpleOp? s.conditionOp).isSome = true → s.conditionFieldKey.truthy = true
  approval : s.kind.strictEq (.string "wait_for_approval") = true →
    s.approverType.strictEq (.string "static") = true →
      s.approverUserId.truthy = true

/-- What a graph should be like to be submitted. -/
structure Valid (b : Builder) : Prop where
  nonempty : b.steps ≠ []
  entry : b.HasStep b.entryStepId
  finish : ∃ s ∈ b.steps, s.kind.strictEq (.string "end") = true
  named : ∀ s ∈ b.steps, s.id.truthy = true
  distinct : (b.steps.map BuilderStep.id).Nodup
  connected : ∀ s ∈ b.steps, ∀ edge ∈ outgoingEdges s, b.HasStep edge.«to»
  filled : ∀ s ∈ b.steps, Filled s

/-- The ids have texts, no two the same one, and none is the name of a property
that every object has. -/
def Unshadowed (b : Builder) : Prop :=
  ∃ names, (b.steps.mapM fun s => s.id.text?) = some names ∧ names.Nodup ∧
    ∀ name ∈ names, name ∉ inheritedNames

theorem truthy_of_strictEq {x y : JsValue} (h : x.strictEq y = true) :
    x.truthy = y.truthy := by
  cases x <;> cases y <;> simp_all [JsValue.strictEq, JsValue.truthy]

theorem idErrors_eq_nil_iff {seen : List String} {s : BuilderStep}
    {name : String} :
    idErrors seen s name = [] ↔
      s.id.truthy = true ∧ name ∉ inheritedNames ∧ name ∉ seen := by
  unfold idErrors
  cases s.id.truthy <;> simp [not_or]

theorem edgeErrors_eq_nil_iff {ids : List JsValue} {name : String}
    {edge : BuilderEdge} :
    edgeErrors ids name edge = some [] ↔
      edge.«to».truthy = true ∧ ∃ id ∈ ids, id.strictEq edge.«to» = true := by
  unfold edgeErrors
  rw [← List.any_eq_true]
  cases edge.«to».truthy with
  | false => simp
  | true =>
      cases ids.any (·.strictEq edge.«to») with
      | true => simp
      | false => simp

theorem fieldErrors_eq_nil_iff {s : BuilderStep} {name : String} :
    fieldErrors s name = [] ↔ Filled s := by
  unfold fieldErrors
  constructor
  · intro h
    simp only [List.append_eq_nil_iff, ite_eq_right_iff, reduceCtorEq,
      imp_false, Bool.and_eq_true, Bool.not_eq_true', not_and,
      Bool.not_eq_false] at h
    exact ⟨h.1.1, fun hkind hop => h.1.2 ⟨hkind, hop⟩,
      fun hkind htype => h.2 ⟨hkind, htype⟩⟩
  · intro h
    simp only [List.append_eq_nil_iff, ite_eq_right_iff, reduceCtorEq,
      imp_false, Bool.and_eq_true, Bool.not_eq_true', not_and,
      Bool.not_eq_false]
    exact ⟨⟨h.question, fun hkind => h.branch hkind.1 hkind.2⟩,
      fun hkind => h.approval hkind.1 hkind.2⟩

/-- No edge of the step is complained about. -/
theorem mapM_flatten_eq_nil {α β : Type} {f : α → Option (List β)}
    {l : List α} :
    (∃ found, l.mapM f = some found ∧ found.flatten = []) ↔
      ∀ x ∈ l, f x = some [] := by
  induction l with
  | nil => simp
  | cons x l ih =>
      rw [List.forall_mem_cons, ← ih]
      simp only [List.mapM_cons, Option.bind_eq_bind, Option.bind_eq_some_iff,
        Option.pure_def, Option.some.injEq]
      constructor
      · rintro ⟨_, ⟨first, hfirst, others, hothers, rfl⟩, hnil⟩
        obtain ⟨hhead, htail⟩ := List.append_eq_nil_iff.mp hnil
        rw [hhead] at hfirst
        exact ⟨hfirst, others, hothers, htail⟩
      · rintro ⟨hfirst, others, hothers, hnil⟩
        exact ⟨[] :: others, ⟨[], hfirst, others, hothers, rfl⟩, hnil⟩

/-- A step that passes alone. -/
structure Passes (ids : List JsValue) (s : BuilderStep) : Prop where
  named : s.id.truthy = true
  connected : ∀ edge ∈ outgoingEdges s, edge.«to».truthy = true ∧
    ∃ id ∈ ids, id.strictEq edge.«to» = true
  filled : Filled s

/-- One round finds nothing where the step passes and its name is new. -/
theorem stepErrors_cons {ids : List JsValue} {seen : List String}
    {s : BuilderStep} {rest : List BuilderStep} :
    stepErrors ids seen (s :: rest) = some [] ↔
      Passes ids s ∧ ∃ name, s.id.text? = some name ∧
        (name ∉ inheritedNames ∧ name ∉ seen) ∧
          stepErrors ids (name :: seen) rest = some [] := by
  simp only [stepErrors, Option.bind_eq_bind, Option.bind_eq_some_iff,
    Option.some.injEq, List.append_eq_nil_iff, idErrors_eq_nil_iff,
    fieldErrors_eq_nil_iff]
  constructor
  · rintro ⟨name, hname, edges, hedges, others, hothers,
      ⟨⟨hid, hflat⟩, hfilled⟩, rfl⟩
    have hconnected := mapM_flatten_eq_nil.mp ⟨edges, hedges, hflat⟩
    exact ⟨⟨hid.1, fun edge hedge => edgeErrors_eq_nil_iff.mp
      (hconnected edge hedge), hfilled⟩, name, hname, hid.2, hothers⟩
  · rintro ⟨hpasses, name, hname, hnew, hothers⟩
    obtain ⟨edges, hedges, hflat⟩ := mapM_flatten_eq_nil.mpr fun edge hedge =>
      (@edgeErrors_eq_nil_iff ids name edge).mpr (hpasses.connected edge hedge)
    exact ⟨name, hname, edges, hedges, [], hothers,
      ⟨⟨⟨hpasses.named, hnew⟩, hflat⟩, hpasses.filled⟩, rfl⟩

theorem stepErrors_eq_nil_iff {ids : List JsValue} {seen : List String}
    {steps : List BuilderStep} :
    stepErrors ids seen steps = some [] ↔
      (∀ s ∈ steps, Passes ids s) ∧
        ∃ names, (steps.mapM fun s => s.id.text?) = some names ∧ names.Nodup ∧
          ∀ name ∈ names, name ∉ inheritedNames ∧ name ∉ seen := by
  induction steps generalizing seen with
  | nil => simp [stepErrors]
  | cons s rest ih =>
      rw [stepErrors_cons, List.forall_mem_cons]
      constructor
      · rintro ⟨hpasses, name, hname, hnew, hrest⟩
        obtain ⟨hothers, names, hnames, hdistinct, hunseen⟩ := ih.mp hrest
        refine ⟨⟨hpasses, hothers⟩, name :: names, ?_, ?_, ?_⟩
        · simp [hname, hnames]
        · refine List.nodup_cons.mpr ⟨fun hmem => ?_, hdistinct⟩
          exact (hunseen name hmem).2 List.mem_cons_self
        · rw [List.forall_mem_cons]
          exact ⟨hnew, fun other hother =>
            (hunseen other hother).imp_right
              fun h hmem => h (List.mem_cons_of_mem _ hmem)⟩
      · rintro ⟨⟨hpasses, hothers⟩, names, hnames, hdistinct, hunseen⟩
        simp only [List.mapM_cons, Option.bind_eq_bind, Option.bind_eq_some_iff,
          Option.pure_def, Option.some.injEq] at hnames
        obtain ⟨name, hname, names, hnames, rfl⟩ := hnames
        obtain ⟨hnew, hdistinct⟩ := List.nodup_cons.mp hdistinct
        rw [List.forall_mem_cons] at hunseen
        refine ⟨hpasses, name, hname, hunseen.1,
          ih.mpr ⟨hothers, names, hnames, hdistinct,
          fun other hother => (hunseen.2 other hother).imp_right
            fun h hmem => ?_⟩⟩
        rcases List.mem_cons.mp hmem with rfl | hmem
        · exact hnew hother
        · exact h hmem

theorem entryErrors_eq_nil_iff {b : Builder}
    (hnamed : ∀ s ∈ b.steps, s.id.truthy = true) :
    b.entryErrors = [] ↔ b.HasStep b.entryStepId := by
  have hiff : b.entryErrors = [] ↔ b.entryStepId.truthy = true ∧
      b.steps.any (·.id.strictEq b.entryStepId) = true := by
    unfold entryErrors
    cases b.entryStepId.truthy <;>
      cases b.steps.any (·.id.strictEq b.entryStepId) <;> simp
  rw [hiff, List.any_eq_true]
  constructor
  · exact And.right
  · intro hentry
    obtain ⟨s, hs, heq⟩ := hentry
    exact ⟨(truthy_of_strictEq heq).symm.trans (hnamed s hs), s, hs, heq⟩

theorem endErrors_eq_nil_iff {b : Builder} :
    b.endErrors = [] ↔ ∃ s ∈ b.steps, s.kind.strictEq
      (.string "end") = true := by
  rw [endErrors, ← List.any_eq_true]
  cases b.steps.any (·.kind.strictEq (.string "end")) <;> simp

theorem eraseDups_eq_nil_iff {errors : List String} :
    errors.eraseDups = [] ↔ errors = [] := by
  cases errors with
  | nil => simp
  | cons error errors => simp [List.eraseDups_cons]

/-- Ids whose texts differ are not the same. -/
theorem Unshadowed.distinct {b : Builder} (h : b.Unshadowed) :
    (b.steps.map BuilderStep.id).Nodup := by
  obtain ⟨names, hnames, hdistinct, -⟩ := h
  have htexts : (b.steps.map BuilderStep.id).map JsValue.text? =
      names.map some := by
    rw [List.map_map]
    exact forall₂_iff_map_eq.mp (mapM_eq_some.mp hnames)
  have hnodup : (names.map some).Nodup :=
    hdistinct.map fun _ _ h => Option.some.inj h
  rw [← htexts] at hnodup
  exact hnodup.of_map _

theorem validate_of_ne_nil {b : Builder} (hne : b.steps ≠ []) :
    b.validate = some [] ↔ b.entryErrors = [] ∧ b.endErrors = [] ∧
      stepErrors (b.steps.map BuilderStep.id) [] b.steps = some [] := by
  have hvalidate : b.validate =
      (stepErrors (b.steps.map BuilderStep.id) [] b.steps).bind fun errors =>
        some (b.entryErrors ++ b.endErrors ++ errors).eraseDups := by
    unfold validate
    cases hsteps : b.steps with
    | nil => exact absurd hsteps hne
    | cons s rest => rfl
  rw [hvalidate, Option.bind_eq_some_iff]
  simp only [Option.some.injEq, eraseDups_eq_nil_iff, List.append_eq_nil_iff]
  constructor
  · rintro ⟨errors, herrors, ⟨hentry, hend⟩, rfl⟩
    exact ⟨hentry, hend, herrors⟩
  · rintro ⟨hentry, hend, herrors⟩
    exact ⟨[], herrors, ⟨hentry, hend⟩, rfl⟩

/-- Nothing is found wrong exactly with the valid graphs whose ids are not taken
for properties that every object has. -/
theorem validate_eq_nil_iff {b : Builder} :
    b.validate = some [] ↔ b.Valid ∧ b.Unshadowed := by
  by_cases hne : b.steps = []
  · refine iff_of_false ?_ fun h => h.1.nonempty hne
    simp [validate, hne]
  rw [validate_of_ne_nil hne, stepErrors_eq_nil_iff, endErrors_eq_nil_iff]
  constructor
  · rintro ⟨hentry, hend, hpasses, names, hnames, hdistinct, hunseen⟩
    have hunshadowed : b.Unshadowed :=
      ⟨names, hnames, hdistinct, fun name hname => (hunseen name hname).1⟩
    have hnamed : ∀ s ∈ b.steps, s.id.truthy = true :=
      fun s hs => (hpasses s hs).named
    refine ⟨⟨hne, (entryErrors_eq_nil_iff hnamed).mp hentry, hend, hnamed,
      hunshadowed.distinct, fun s hs edge hedge => ?_,
        fun s hs => (hpasses s hs).filled⟩,
      hunshadowed⟩
    obtain ⟨-, id, hid, heq⟩ := (hpasses s hs).connected edge hedge
    obtain ⟨t, ht, rfl⟩ := List.mem_map.mp hid
    exact ⟨t, ht, heq⟩
  · rintro ⟨hvalid, names, hnames, hdistinct, hinherited⟩
    refine ⟨(entryErrors_eq_nil_iff hvalid.named).mpr hvalid.entry,
      hvalid.finish,
      fun s hs => ⟨hvalid.named s hs, fun edge hedge => ?_, hvalid.filled s hs⟩,
      names, hnames, hdistinct,
      fun name hname => ⟨hinherited name hname, List.not_mem_nil⟩⟩
    obtain ⟨t, ht, heq⟩ := hvalid.connected s hs edge hedge
    exact ⟨(truthy_of_strictEq heq).symm.trans (hvalid.named t ht), t.id,
      List.mem_map_of_mem ht, heq⟩

/-- Validation is exact at a state if and only if a valid graph there has no id
that is taken for a property of every object. -/
theorem validate_exact_iff (b : Builder) :
    (b.validate = some [] ↔ b.Valid) ↔ (b.Valid → b.Unshadowed) := by
  rw [validate_eq_nil_iff]
  constructor
  · intro hexact hvalid
    exact (hexact.mpr hvalid).2
  · intro hunshadowed
    exact ⟨And.left, fun hvalid => ⟨hvalid, hunshadowed hvalid⟩⟩

/-- Where all ids are texts, only the inherited names are in the way. -/
theorem Valid.unshadowed_iff {b : Builder} (h : b.Valid)
    (htext : ∀ s ∈ b.steps, ∃ id, s.id = .string id) :
    b.Unshadowed ↔ ∀ s ∈ b.steps, ∀ name ∈ inheritedNames,
      s.id ≠ .string name := by
  let nameOf (s : BuilderStep) : String := s.id.text?.getD ""
  have hid : ∀ s ∈ b.steps, s.id = .string (nameOf s) := by
    intro s hs
    obtain ⟨id, hid⟩ := htext s hs
    simp [nameOf, hid, JsValue.text?]
  have hnames : (b.steps.mapM fun s => s.id.text?) =
      some (b.steps.map nameOf) := by
    rw [mapM_eq_some, List.forall₂_map_right_iff, List.forall₂_same]
    intro s hs
    rw [hid s hs, JsValue.text?]
  have hdistinct : (b.steps.map nameOf).Nodup := by
    apply List.Nodup.of_map JsValue.string
    rw [List.map_map]
    exact (List.map_congr_left hid).symm ▸ h.distinct
  constructor
  · rintro ⟨names, hnames', -, hinherited⟩ s hs name hname heq
    obtain rfl := Option.some.inj (hnames.symm.trans hnames')
    have hsame : nameOf s = name :=
      JsValue.string.inj ((hid s hs).symm.trans heq)
    exact hinherited _ (List.mem_map_of_mem hs) (hsame ▸ hname)
  · intro hfree
    refine ⟨b.steps.map nameOf, hnames, hdistinct,
      fun name hname hinherited => ?_⟩
    obtain ⟨s, hs, rfl⟩ := List.mem_map.mp hname
    exact hfree s hs _ hinherited (hid s hs)

/-- The starter example once its end has been given the id `constructor`. -/
def renamedExample : Builder :=
  starterExample.commitIdChange 1 (.string "end_ok") "constructor"

theorem ids_renamedExample : renamedExample.steps.map BuilderStep.id =
    [.string "ask_summary", .string "constructor"] :=
  rfl

theorem hasStep_of_mem {b : Builder} {id : String}
    (h : JsValue.string id ∈ b.steps.map BuilderStep.id) :
    b.HasStep (.string id) := by
  obtain ⟨s, hs, hid⟩ := List.mem_map.mp h
  exact ⟨s, hs, by simp [hid, JsValue.strictEq]⟩

theorem valid_renamedExample : renamedExample.Valid where
  nonempty := by decide
  entry := @hasStep_of_mem _ "ask_summary" (by simp [ids_renamedExample])
  finish := by
    rw [← List.any_eq_true]
    decide
  named := by decide
  distinct := by simp [ids_renamedExample]
  connected := by
    have hedges : (renamedExample.steps.flatMap outgoingEdges).map
        BuilderEdge.«to» = [.string "constructor"] := rfl
    intro s hs edge hedge
    have hmem : edge.«to» ∈ (renamedExample.steps.flatMap outgoingEdges).map
        BuilderEdge.«to» :=
      List.mem_map_of_mem (List.mem_flatMap.mpr ⟨s, hs, hedge⟩)
    rw [hedges, List.mem_singleton] at hmem
    rw [hmem]
    exact hasStep_of_mem (by simp [ids_renamedExample])
  filled := by
    have hfields : renamedExample.steps.flatMap (fieldErrors · "") = [] := rfl
    intro s hs
    exact fieldErrors_eq_nil_iff.mp (List.flatMap_eq_nil_iff.mp hfields s hs)

theorem validate_renamedExample :
    ¬(renamedExample.validate = some [] ↔ renamedExample.Valid) := by
  intro hexact
  have hvalidate := hexact.mpr valid_renamedExample
  have herror : renamedExample.validate =
      some ["Step id \"constructor\" is used more than once."] := by
    decide
  rw [herror] at hvalidate
  cases hvalidate

end Builder

end Servcat
