/-
The JSON that the server takes for a workflow graph.  A record may be written as
an object or as the list of its fields, and an enumeration whose tag is a field
may be written as a list that begins with the tag.
-/
import Servcat.Model.Numbers
import Mathlib.Data.List.Zip

namespace Servcat

namespace JsonValue

def string? : JsonValue → Option String
  | string s => some s
  | _ => none

def bool? : JsonValue → Option Bool
  | bool b => some b
  | _ => none

def array? : JsonValue → Option (List JsonValue)
  | array items => some items
  | _ => none

def list? {α : Type} (item? : JsonValue → Option α)
    (v : JsonValue) : Option (List α) :=
  v.array?.bind (List.mapM item?)

def int64? : JsonValue → Option Int64
  | number (.posInt n) =>
      if n.toNat < 2 ^ 63 then some (.ofNat n.toNat) else none
  | number (.negInt n) => some n
  | _ => none

/-- The entries of a record with the given fields. -/
def record? (fields : List String) : JsonValue → Option JsonMap
  | object entries => some entries
  | array items =>
      if items.length = fields.length then some (fields.zip items) else none
  | _ => none

/-- The tag and the rest of a value that is tagged by a field. -/
def tagged? (tag : String) : JsonValue → Option (JsonValue × JsonValue)
  | object entries =>
      (JsonMap.get? entries tag).map fun value => (value, object entries)
  | array (first :: rest) => some (first, array rest)
  | _ => none

/-- The variant that a tag names; the tag of a value that has been buffered,
since an enclosing value has to be searched for its own tag, may be the number
of the variant instead. -/
def variant? {α : Type} (variants : List (String × α)) (buffered : Bool) :
    JsonValue → Option α
  | string name => variants.lookup name
  | number (.posInt n) =>
      if buffered then (variants[n.toNat]?).map Prod.snd else none
  | _ => none

/-- A variant without fields in a buffered value: its name, or an object that
maps the name to nothing. -/
def unitVariant? {α : Type} (variants : List (String × α)) :
    JsonValue → Option α
  | string name => variants.lookup name
  | object [(name, null)] => variants.lookup name
  | object [(name, object [])] => variants.lookup name
  | _ => none

end JsonValue

open JsonValue

/-- A required field. -/
def JsonMap.field? {α : Type} (entries : JsonMap) (read? : JsonValue → Option α)
    (key : String) : Option α :=
  (entries.get? key).bind read?

def Role.variants : List (String × Role) :=
  [("requester", .requester), ("approver", .approver), ("agent", .agent),
    ("admin", .admin)]

def EndOutcome.variants : List (String × EndOutcome) :=
  [("completed", .completed), ("rejected", .rejected),
    ("cancelled", .cancelled)]

def InputType.variants : List (String × InputType) :=
  [("text", .text), ("text_area", .textArea), ("number", .number),
    ("boolean", .boolean), ("select", .select), ("multi_select", .multiSelect),
    ("date", .date)]

def QuestionOption.ofJson? (v : JsonValue) : Option QuestionOption := do
  let entries ← record? ["value", "label"] v
  some ⟨← entries.field? string? "value", ← entries.field? string? "label"⟩

inductive ApproverTag where
  | static
  | managerOfRequester
  | roleInDepartment
deriving DecidableEq, Repr

def ApproverTag.variants : List (String × ApproverTag) :=
  [("static", .static), ("manager_of_requester", .managerOfRequester),
    ("role_in_department", .roleInDepartment)]

def ApproverResolution.ofJson? (parseUuid : String → Option Uuid)
    (v : JsonValue) : Option ApproverResolution := do
  let (tag, content) ← tagged? "type" v
  match ← variant? ApproverTag.variants true tag with
  | .static => do
      let entries ← record? ["user_id"] content
      some (.static (← entries.field? (fun id => id.string?.bind parseUuid)
        "user_id"))
  | .managerOfRequester => do
      let _ ← record? [] content
      some .managerOfRequester
  | .roleInDepartment => do
      let entries ← record? ["role"] content
      some (.roleInDepartment
        (← entries.field? (unitVariant? Role.variants) "role"))

inductive ConditionTag where
  | equals
  | notEquals
  | exists
  | in
  | and
  | or
  | not
deriving DecidableEq, Repr

def ConditionTag.variants : List (String × ConditionTag) :=
  [("equals", .equals), ("not_equals", .notEquals), ("exists", .exists),
    ("in", .in), ("and", .and), ("or", .or), ("not", .not)]

/-- The field of a record. -/
def JsonValue.fieldOf? (fields : List String) (key : String) (v : JsonValue) :
    Option JsonValue :=
  (record? fields v).bind (·.get? key)

theorem JsonMap.sizeOf_get? {entries : JsonMap} {key : String} {v : JsonValue}
    (h : entries.get? key = some v) : sizeOf v < sizeOf entries := by
  induction entries with
  | nil => cases h
  | cons entry rest ih =>
      obtain ⟨key', value⟩ := entry
      unfold JsonMap.get? at h
      split at h
      · obtain rfl := Option.some.inj h
        simp
        omega
      · have := ih h
        simp
        omega

theorem JsonValue.sizeOf_zip_get? {fields : List String}
    {items : List JsonValue} {key : String} {v : JsonValue}
    (h : JsonMap.get? (fields.zip items) key = some v) :
    sizeOf v < sizeOf items := by
  induction fields generalizing items with
  | nil => cases h
  | cons field fields ih =>
      cases items with
      | nil => cases h
      | cons item items =>
          simp only [List.zip_cons_cons, JsonMap.get?] at h
          split at h
          · obtain rfl := Option.some.inj h
            simp
            omega
          · have := ih h
            simp
            omega

theorem JsonValue.sizeOf_fieldOf? {fields : List String} {key : String}
    {v field : JsonValue} (h : v.fieldOf? fields key = some field) :
    sizeOf field < sizeOf v := by
  obtain ⟨entries, hentries, hfield⟩ := Option.bind_eq_some_iff.mp h
  unfold record? at hentries
  split at hentries
  · obtain rfl := Option.some.inj hentries
    have := JsonMap.sizeOf_get? hfield
    simp
    omega
  · split at hentries
    · obtain rfl := Option.some.inj hentries
      have := sizeOf_zip_get? hfield
      simp
      omega
    · cases hentries
  · cases hentries

theorem JsonValue.sizeOf_tagged? {tag : String} {v first content : JsonValue}
    (h : v.tagged? tag = some (first, content)) :
    sizeOf content ≤ sizeOf v := by
  unfold tagged? at h
  split at h
  · obtain ⟨value, -, hvalue⟩ := Option.map_eq_some_iff.mp h
    obtain ⟨-, rfl⟩ := Prod.mk.inj hvalue
    exact le_refl _
  · obtain ⟨-, rfl⟩ := Prod.mk.inj (Option.some.inj h)
    simp
  · cases h

mutual

def Condition.ofJson? (v : JsonValue) : Option Condition :=
  match _htagged : tagged? "op" v with
  | none => none
  | some (tag, content) =>
      match variant? ConditionTag.variants true tag with
      | none => none
      | some .equals => do
          let entries ← record? ["field_key", "value"] content
          some (.equals (← entries.field? string? "field_key")
            (← entries.get? "value"))
      | some .notEquals => do
          let entries ← record? ["field_key", "value"] content
          some (.notEquals (← entries.field? string? "field_key")
            (← entries.get? "value"))
      | some .exists => do
          let entries ← record? ["field_key"] content
          some (.exists (← entries.field? string? "field_key"))
      | some .in => do
          let entries ← record? ["field_key", "values"] content
          some (.in (← entries.field? string? "field_key")
            (← entries.field? array? "values"))
      | some .and =>
          match _hfield : content.fieldOf? ["conditions"] "conditions" with
          | some (.array items) => (Condition.listOfJson? items).map .and
          | _ => none
      | some .or =>
          match _hfield : content.fieldOf? ["conditions"] "conditions" with
          | some (.array items) => (Condition.listOfJson? items).map .or
          | _ => none
      | some .not =>
          match _hfield : content.fieldOf? ["condition"] "condition" with
          | some condition => (Condition.ofJson? condition).map .not
          | none => none
termination_by sizeOf v
decreasing_by
  all_goals
    have := sizeOf_tagged? _htagged
    have := sizeOf_fieldOf? _hfield
    simp at *
    omega

def Condition.listOfJson? : List JsonValue → Option (List Condition)
  | [] => some []
  | item :: rest =>
      (Condition.ofJson? item).bind fun condition =>
        (Condition.listOfJson? rest).map (condition :: ·)
termination_by items => sizeOf items

end

/-- How a condition is written: as a tag and the fields of its variant. -/
def Condition.Written (tag content : JsonValue) : Condition → Prop
  | .equals fieldKey value =>
      variant? ConditionTag.variants true tag = some .equals ∧
        content.fieldOf? ["field_key", "value"] "field_key" =
          some (.string fieldKey) ∧
        content.fieldOf? ["field_key", "value"] "value" = some value
  | .notEquals fieldKey value =>
      variant? ConditionTag.variants true tag = some .notEquals ∧
        content.fieldOf? ["field_key", "value"] "field_key" =
          some (.string fieldKey) ∧
        content.fieldOf? ["field_key", "value"] "value" = some value
  | .exists fieldKey =>
      variant? ConditionTag.variants true tag = some .exists ∧
        content.fieldOf? ["field_key"] "field_key" = some (.string fieldKey)
  | .in fieldKey values =>
      variant? ConditionTag.variants true tag = some .in ∧
        content.fieldOf? ["field_key", "values"] "field_key" =
          some (.string fieldKey) ∧
        content.fieldOf? ["field_key", "values"] "values" = some (.array values)
  | .and conditions =>
      variant? ConditionTag.variants true tag = some .and ∧
        ∃ items,
          content.fieldOf? ["conditions"] "conditions" = some (.array items) ∧
          Condition.listOfJson? items = some conditions
  | .or conditions =>
      variant? ConditionTag.variants true tag = some .or ∧
        ∃ items,
          content.fieldOf? ["conditions"] "conditions" = some (.array items) ∧
          Condition.listOfJson? items = some conditions
  | .not condition =>
      variant? ConditionTag.variants true tag = some .not ∧
        ∃ value, content.fieldOf? ["condition"] "condition" = some value ∧
          Condition.ofJson? value = some condition

theorem JsonMap.field?_string?_eq_some {entries : JsonMap} {key s : String} :
    entries.field? string? key = some s ↔
      entries.get? key = some (.string s) := by
  rw [field?, Option.bind_eq_some_iff]
  constructor
  · rintro ⟨value, hvalue, hs⟩
    cases value <;> simp_all [string?]
  · exact fun h => ⟨_, h, rfl⟩

theorem JsonMap.field?_array?_eq_some {entries : JsonMap} {key : String}
    {items : List JsonValue} :
    entries.field? array? key = some items ↔
      entries.get? key = some (.array items) := by
  rw [field?, Option.bind_eq_some_iff]
  constructor
  · rintro ⟨value, hvalue, hitems⟩
    cases value <;> simp_all [array?]
  · exact fun h => ⟨_, h, rfl⟩

theorem JsonValue.fieldOf?_eq_some {fields : List String} {key : String}
    {v field : JsonValue} :
    v.fieldOf? fields key = some field ↔
      ∃ entries, v.record? fields = some entries ∧
        entries.get? key = some field :=
  Option.bind_eq_some_iff

/-- The fields of one record. -/
theorem JsonValue.fieldOf?_and {fields : List String} {key key' : String}
    {v field field' : JsonValue} :
    (v.fieldOf? fields key = some field ∧
      v.fieldOf? fields key' = some field') ↔
      ∃ entries, v.record? fields = some entries ∧
        entries.get? key = some field ∧ entries.get? key' = some field' := by
  cases h : v.record? fields <;> simp [fieldOf?, h]

theorem Condition.written_of_ofJson? {v : JsonValue} {c : Condition}
    (h : Condition.ofJson? v = some c) :
    ∃ tag content, v.tagged? "op" = some (tag, content) ∧
      c.Written tag content := by
  rw [Condition.ofJson?] at h
  split at h
  · cases h
  · rename_i tag content htagged
    refine ⟨tag, content, htagged, ?_⟩
    cases hvariant : variant? ConditionTag.variants true tag with
    | none => simp [hvariant] at h
    | some variant =>
        cases variant <;> simp only [hvariant, Option.bind_eq_bind,
          Option.bind_eq_some_iff, JsonMap.field?_string?_eq_some,
          JsonMap.field?_array?_eq_some, Option.some.injEq] at h
        case equals | notEquals | «in» =>
          obtain ⟨entries, hentries, fieldKey, hkey, value, hvalue, rfl⟩ := h
          exact ⟨hvariant, fieldOf?_and.mpr ⟨entries, hentries, hkey, hvalue⟩⟩
        case «exists» =>
          obtain ⟨entries, hentries, fieldKey, hkey, rfl⟩ := h
          exact ⟨hvariant, fieldOf?_eq_some.mpr ⟨entries, hentries, hkey⟩⟩
        case and | or =>
          split at h
          · rename_i items hitems
            obtain ⟨conditions, hconditions, rfl⟩ := Option.map_eq_some_iff.mp h
            exact ⟨hvariant, items, hitems, hconditions⟩
          · cases h
        case not =>
          split at h
          · rename_i value hvalue
            obtain ⟨condition, hcondition, rfl⟩ := Option.map_eq_some_iff.mp h
            exact ⟨hvariant, value, hvalue, hcondition⟩
          · cases h

theorem Condition.ofJson?_of_written {v tag content : JsonValue} {c : Condition}
    (htagged : v.tagged? "op" = some (tag, content))
    (hwritten : c.Written tag content) :
    Condition.ofJson? v = some c := by
  rw [Condition.ofJson?]
  split
  · rename_i hnone
    rw [htagged] at hnone
    cases hnone
  · rename_i tag' content' htagged'
    obtain ⟨rfl, rfl⟩ :=
      Prod.mk.inj (Option.some.inj (htagged'.symm.trans htagged))
    cases c with
    | equals _ _ | notEquals _ _ | «in» _ _ =>
        obtain ⟨hvariant, hfields⟩ := hwritten
        obtain ⟨entries, hentries, hkey, hvalue⟩ := fieldOf?_and.mp hfields
        simp [hvariant, hentries, JsonMap.field?, hkey, hvalue, string?, array?]
    | «exists» _ =>
        obtain ⟨hvariant, hfield⟩ := hwritten
        obtain ⟨entries, hentries, hkey⟩ := fieldOf?_eq_some.mp hfield
        simp [hvariant, hentries, JsonMap.field?, hkey, string?]
    | and _ | or _ =>
        obtain ⟨hvariant, items, hitems, hconditions⟩ := hwritten
        simp only [hvariant]
        split <;> simp_all
    | not _ =>
        obtain ⟨hvariant, value, hvalue, hcondition⟩ := hwritten
        simp only [hvariant]
        split <;> simp_all

theorem Condition.ofJson?_eq_some {v : JsonValue} {c : Condition} :
    Condition.ofJson? v = some c ↔
      ∃ tag content, v.tagged? "op" = some (tag, content) ∧
        c.Written tag content := by
  constructor
  · exact Condition.written_of_ofJson?
  · rintro ⟨tag, content, htagged, hwritten⟩
    exact Condition.ofJson?_of_written htagged hwritten

theorem Condition.listOfJson?_eq_nil {items : List JsonValue} :
    listOfJson? items = some [] ↔ items = [] := by
  cases items <;> simp [listOfJson?, Option.bind_eq_some_iff]

theorem Condition.listOfJson?_eq_cons {items : List JsonValue} {c : Condition}
    {cs : List Condition} :
    listOfJson? items = some (c :: cs) ↔
      ∃ item rest, items = item :: rest ∧ ofJson? item = some c ∧
        listOfJson? rest = some cs := by
  cases items <;> simp [listOfJson?, Option.bind_eq_some_iff]

section Numbers

variable {f : JsonNumber → Option JsonNumber}

theorem JsonValue.record?_mapNumbers (fields : List String) (v : JsonValue) :
    (v.mapNumbers f).record? fields = (v.record? fields).map
      (mapEntries f) := by
  cases v with
  | null | bool _ | string _ => rfl
  | number n => cases h : f n <;> simp [mapNumbers, record?, h]
  | object entries => rfl
  | array items =>
      simp only [mapNumbers, record?, mapItems_eq_map, List.length_map]
      split
      · rw [Option.map_some, List.zip_map_right, mapEntries_eq_map]
      · rfl

theorem JsonValue.fieldOf?_mapNumbers (fields : List String) (key : String)
    (v : JsonValue) :
    (v.mapNumbers f).fieldOf? fields key = (v.fieldOf? fields key).map
      (mapNumbers f) := by
  simp only [fieldOf?, record?_mapNumbers, Option.bind_map, Option.map_bind]
  congr 1
  funext entries
  exact get?_mapEntries entries key

theorem JsonValue.tagged?_mapNumbers (tag : String) (v : JsonValue) :
    (v.mapNumbers f).tagged? tag =
      (v.tagged? tag).map (Prod.map (mapNumbers f) (mapNumbers f)) := by
  cases v with
  | null | bool _ | string _ => rfl
  | number n => cases h : f n <;> simp [mapNumbers, tagged?, h]
  | array items => cases items <;> rfl
  | object entries =>
      simp only [mapNumbers, tagged?, get?_mapEntries, Option.map_map]
      rfl

theorem JsonValue.variant?_mapNumbers {α : Type} {variants : List (String × α)}
    {buffered : Bool} {tag : JsonValue} {variant : α}
    (hf : ∀ n : UInt64, n.toNat < variants.length →
      f (.posInt n) = some (.posInt n))
    (h : tag.variant? variants buffered = some variant) :
    (tag.mapNumbers f).variant? variants buffered = some variant := by
  unfold variant? at h
  split at h
  · exact h
  · rename_i n
    split at h
    · obtain ⟨entry, hentry, -⟩ := Option.map_eq_some_iff.mp h
      have hlt := (List.getElem?_eq_some_iff.mp hentry).1
      rw [mapNumbers_number_eq_self.mpr (hf n hlt)]
      simpa [variant?, *] using h
    · cases h
  · cases h

namespace Condition

theorem ofJson?_mapNumbers_of {v : JsonValue} {c d : Condition}
    (hd : ∀ {tag content : JsonValue}, c.Written tag content →
      d.Written (tag.mapNumbers f) (content.mapNumbers f))
    (h : ofJson? v = some c) : ofJson? (v.mapNumbers f) = some d := by
  rw [ofJson?_eq_some] at h ⊢
  obtain ⟨tag, content, htagged, hwritten⟩ := h
  refine ⟨tag.mapNumbers f, content.mapNumbers f, ?_, hd hwritten⟩
  rw [tagged?_mapNumbers, htagged]
  rfl

theorem fieldOf?_mapNumbers_eq_some {fields : List String} {key : String}
    {content value : JsonValue} (h : content.fieldOf? fields key = some value) :
    (content.mapNumbers f).fieldOf? fields key = some (value.mapNumbers f) := by
  rw [fieldOf?_mapNumbers, h, Option.map_some]

/-- The numbers that stand for the operators of conditions stay. -/
def FixesTags (f : JsonNumber → Option JsonNumber) : Prop :=
  ∀ n : UInt64, n.toNat < ConditionTag.variants.length →
    f (.posInt n) = some (.posInt n)

mutual

/-- Only in tags do the numbers play a part in how a condition is read. -/
theorem Written.mapNumbers (hf : FixesTags f) {tag content : JsonValue} :
    ∀ {c : Condition}, c.Written tag content →
      (c.mapNumbers f).Written (tag.mapNumbers f) (content.mapNumbers f)
  | .equals _ _, ⟨hvariant, hkey, hvalue⟩
  | .notEquals _ _, ⟨hvariant, hkey, hvalue⟩
  | .in _ _, ⟨hvariant, hkey, hvalue⟩ =>
      ⟨variant?_mapNumbers hf hvariant, fieldOf?_mapNumbers_eq_some hkey,
        fieldOf?_mapNumbers_eq_some hvalue⟩
  | .exists _, ⟨hvariant, hkey⟩ =>
      ⟨variant?_mapNumbers hf hvariant, fieldOf?_mapNumbers_eq_some hkey⟩
  | .and _, ⟨hvariant, items, hitems, hconditions⟩
  | .or _, ⟨hvariant, items, hitems, hconditions⟩ =>
      ⟨variant?_mapNumbers hf hvariant, mapItems f items,
        fieldOf?_mapNumbers_eq_some hitems, listOfJson?_mapItems hf hconditions⟩
  | .not _, ⟨hvariant, value, hvalue, hcondition⟩ =>
      ⟨variant?_mapNumbers hf hvariant, value.mapNumbers f,
        fieldOf?_mapNumbers_eq_some hvalue,
        ofJson?_mapNumbers_of (Written.mapNumbers hf) hcondition⟩

theorem listOfJson?_mapItems (hf : FixesTags f) :
    ∀ {cs : List Condition} {items : List JsonValue},
      listOfJson? items = some cs →
      listOfJson? (mapItems f items) = some (mapList f cs)
  | [], items, h => by
      obtain rfl := listOfJson?_eq_nil.mp h
      rw [mapItems, listOfJson?, mapList]
  | c :: cs, items, h => by
      obtain ⟨item, rest, rfl, hcondition, hrest⟩ := listOfJson?_eq_cons.mp h
      rw [mapItems, mapList, listOfJson?_eq_cons]
      exact ⟨_, _, rfl, ofJson?_mapNumbers_of (Written.mapNumbers hf)
        hcondition, listOfJson?_mapItems hf hrest⟩

end

theorem ofJson?_mapNumbers (hf : FixesTags f) {v : JsonValue} {c : Condition}
    (h : ofJson? v = some c) :
    ofJson? (v.mapNumbers f) = some (c.mapNumbers f) :=
  ofJson?_mapNumbers_of (Written.mapNumbers hf) h

end Condition

end Numbers

inductive StepTag where
  | question
  | branch
  | waitForApproval
  | submitTicket
  | end
deriving DecidableEq, Repr

def StepTag.variants : List (String × StepTag) :=
  [("question", .question), ("branch", .branch),
    ("wait_for_approval", .waitForApproval), ("submit_ticket", .submitTicket),
    ("end", .end)]

/-- The value of a field that may be absent or null. -/
def JsonValue.optional? {α : Type} (read? : JsonValue → Option α) :
    Option JsonValue → Option (Option α)
  | none => some none
  | some .null => some none
  | some value => (read? value).map some

def StepKind.ofJson? (parseUuid : String → Option Uuid) (v : JsonValue) :
    Option StepKind := do
  let (tag, content) ← tagged? "type" v
  match ← variant? StepTag.variants false tag with
  | .question => do
      let entries ←
        record? ["field_key", "input_type", "required", "options",
          "next"] content
      some (.question (← entries.field? string? "field_key")
        (← entries.field? (unitVariant? InputType.variants) "input_type")
        (← entries.field? bool? "required")
        (← match entries.get? "options" with
          | none => some []
          | some options => options.list? QuestionOption.ofJson?)
        (← entries.field? string? "next"))
  | .branch => do
      let entries ← record? ["condition", "on_true", "on_false"] content
      some (.branch (← entries.field? Condition.ofJson? "condition")
        (← entries.field? string? "on_true")
        (← entries.field? string? "on_false"))
  | .waitForApproval => do
      let entries ←
        record? ["approver_resolution", "on_approve", "on_reject",
          "timeout_seconds"] content
      some (.waitForApproval
        (← entries.field? (ApproverResolution.ofJson? parseUuid)
          "approver_resolution")
        (← entries.field? string? "on_approve")
        (← entries.field? string? "on_reject")
        (← optional? int64? (entries.get? "timeout_seconds")))
  | .submitTicket => do
      let entries ← record? ["next"] content
      some (.submitTicket (← entries.field? string? "next"))
  | .end => do
      let entries ← record? ["outcome"] content
      some
        (.end (← entries.field? (unitVariant? EndOutcome.variants) "outcome"))

def Step.ofJson? (parseUuid : String → Option Uuid)
    (v : JsonValue) : Option Step := do
  let entries ← record? ["id", "label", "kind"] v
  some ⟨← entries.field? string? "id", ← entries.field? string? "label",
    ← entries.field? (StepKind.ofJson? parseUuid) "kind"⟩

def WorkflowGraph.ofJson? (parseUuid : String → Option Uuid) (v : JsonValue) :
    Option WorkflowGraph := do
  let entries ← record? ["entry_step_id", "steps"] v
  some ⟨← entries.field? string? "entry_step_id",
    ← entries.field? (list? (Step.ofJson? parseUuid)) "steps"⟩

end Servcat
