/-
The JSON that a workflow definition is stored as, and that it is read back from.
-/
import Servcat.Model.Deserialize
import Servcat.Model.UuidText

namespace Servcat

open JsonValue

namespace JsonValue

/-- A record, field by field; a map keeps its entries in the order of
their keys. -/
def record (fields : JsonMap) : JsonValue :=
  object (fields.foldl (fun entries field => JsonMap.insert entries field.1
    field.2) [])

def nullable {α : Type} (write : α → JsonValue) : Option α → JsonValue
  | some a => write a
  | none => null

end JsonValue

/-- `Number::from` for an `i64`. -/
def JsonNumber.ofInt64 (n : Int64) : JsonNumber :=
  if n < 0 then negInt n else posInt (.ofNat n.toInt.toNat)

def Role.toJson (role : Role) : JsonValue :=
  string (match role with
    | requester => "requester"
    | approver => "approver"
    | agent => "agent"
    | admin => "admin")

def EndOutcome.toJson (outcome : EndOutcome) : JsonValue :=
  string (match outcome with
    | completed => "completed"
    | rejected => "rejected"
    | cancelled => "cancelled")

def InputType.toJson (inputType : InputType) : JsonValue :=
  string (match inputType with
    | text => "text"
    | textArea => "text_area"
    | number => "number"
    | boolean => "boolean"
    | select => "select"
    | multiSelect => "multi_select"
    | date => "date")

def QuestionOption.toJson (option : QuestionOption) : JsonValue :=
  record [("value", string option.value), ("label", string option.label)]

def ApproverResolution.toJson : ApproverResolution → JsonValue
  | static userId =>
      record [("type", string "static"), ("user_id", string userId.toString)]
  | managerOfRequester => record [("type", string "manager_of_requester")]
  | roleInDepartment role =>
      record [("type", string "role_in_department"), ("role", role.toJson)]

mutual

def Condition.toJson : Condition → JsonValue
  | equals fieldKey value =>
      record [("op", string "equals"), ("field_key", string fieldKey),
        ("value", value)]
  | notEquals fieldKey value =>
      record [("op", string "not_equals"), ("field_key", string fieldKey),
        ("value", value)]
  | .exists fieldKey =>
      record [("op", string "exists"), ("field_key", string fieldKey)]
  | .in fieldKey values =>
      record [("op", string "in"), ("field_key", string fieldKey),
        ("values", array values)]
  | and conditions =>
      record [("op", string "and"),
        ("conditions", array (Condition.listToJson conditions))]
  | or conditions =>
      record [("op", string "or"),
        ("conditions", array (Condition.listToJson conditions))]
  | not condition =>
      record [("op", string "not"), ("condition", condition.toJson)]

def Condition.listToJson : List Condition → List JsonValue
  | [] => []
  | condition :: rest => condition.toJson :: listToJson rest

end

def StepKind.toJson : StepKind → JsonValue
  | question fieldKey inputType required options next =>
      record [("type", string "question"), ("field_key", string fieldKey),
        ("input_type", inputType.toJson), ("required", bool required),
        ("options", array (options.map QuestionOption.toJson)),
          ("next", string next)]
  | branch condition onTrue onFalse =>
      record [("type", string "branch"), ("condition", condition.toJson),
        ("on_true", string onTrue), ("on_false", string onFalse)]
  | waitForApproval approverResolution onApprove onReject timeoutSeconds =>
      record [("type", string "wait_for_approval"),
        ("approver_resolution", approverResolution.toJson),
          ("on_approve", string onApprove),
        ("on_reject", string onReject),
        ("timeout_seconds", nullable (fun n => number (.ofInt64 n))
          timeoutSeconds)]
  | submitTicket next =>
      record [("type", string "submit_ticket"), ("next", string next)]
  | .end outcome => record [("type", string "end"), ("outcome", outcome.toJson)]

def Step.toJson (s : Step) : JsonValue :=
  record [("id", string s.id), ("label", string s.label),
    ("kind", s.kind.toJson)]

def WorkflowGraph.toJson (graph : WorkflowGraph) : JsonValue :=
  record [("entry_step_id", string graph.entryStepId),
    ("steps", array (graph.steps.map Step.toJson))]

namespace JsonValue

theorem get?_foldl_insert {fields : JsonMap}
    (hdistinct : (fields.map Prod.fst).Nodup) (entries : JsonMap)
    (key : String) :
    (fields.foldl (fun entries field => JsonMap.insert entries field.1 field.2)
      entries).get? key = (fields.get? key).or (entries.get? key) := by
  induction fields generalizing entries with
  | nil => rfl
  | cons field rest ih =>
      obtain ⟨hnew, hdistinct⟩ := List.nodup_cons.mp hdistinct
      rw [List.foldl_cons, ih hdistinct, JsonMap.get?_insert, JsonMap.get?]
      split
      · rename_i heq
        subst heq
        have hnone : JsonMap.get? rest field.1 = none := by
          rw [← Option.not_isSome_iff_eq_none]
          exact fun h => hnew (JsonMap.containsKey_iff.mp h)
        rw [hnone]
        rfl
      · rfl

/-- A record is read back if any object with the fields it was
written with is. -/
theorem read_record {α : Type} {read? : JsonValue → Option α}
    {fields : JsonMap} {a : α} (hdistinct : (fields.map Prod.fst).Nodup)
    (hread : ∀ entries : JsonMap, (∀ key, entries.get? key = fields.get? key) →
      read? (object entries) = some a) : read? (record fields) = some a := by
  refine hread _ fun key => ?_
  rw [get?_foldl_insert hdistinct]
  exact Option.or_none

end JsonValue

/-- Reading a list back element by element. -/
theorem mapM_map_eq_some {α β : Type} {write : α → β} {read? : β → Option α}
    {items : List α} (h : ∀ a ∈ items, read? (write a) = some a) :
    (items.map write).mapM read? = some items := by
  induction items with
  | nil => rfl
  | cons a rest ih =>
      simp [List.mapM_cons, h a List.mem_cons_self,
        ih fun b hb => h b (List.mem_cons_of_mem _ hb)]

theorem JsonValue.list?_map {α : Type} {write : α → JsonValue}
    {read? : JsonValue → Option α} {items : List α}
    (h : ∀ a ∈ items, read? (write a) = some a) :
    list? read? (array (items.map write)) = some items :=
  mapM_map_eq_some h

theorem JsonNumber.int64?_ofInt64 (n : Int64) :
    int64? (number (.ofInt64 n)) = some n := by
  unfold ofInt64
  split
  · rfl
  · rename_i h
    have hnonneg : 0 ≤ n.toInt := by simpa [Int64.lt_iff_toInt_lt] using h
    have hlt : n.toInt < 2 ^ 63 := n.toInt_lt
    have hnat : (UInt64.ofNat n.toInt.toNat).toNat = n.toInt.toNat := by
      rw [UInt64.toNat_ofNat', Nat.mod_eq_of_lt (by omega)]
    rw [int64?, hnat, if_pos (by omega), ← Int64.ofInt_eq_ofNat,
      Int.toNat_of_nonneg hnonneg, Int64.ofInt_toInt]

@[simp] theorem Role.unitVariant?_toJson (role : Role) :
    unitVariant? Role.variants role.toJson = some role := by
  cases role <;> rfl

@[simp] theorem EndOutcome.unitVariant?_toJson (outcome : EndOutcome) :
    unitVariant? EndOutcome.variants outcome.toJson = some outcome := by
  cases outcome <;> rfl

@[simp] theorem InputType.unitVariant?_toJson (inputType : InputType) :
    unitVariant? InputType.variants inputType.toJson = some inputType := by
  cases inputType <;> rfl

theorem QuestionOption.ofJson?_toJson (option : QuestionOption) :
    ofJson? option.toJson = some option := by
  rw [toJson]
  refine read_record (by simp) fun entries hget => ?_
  simp [ofJson?, record?, JsonMap.field?, hget, JsonMap.get?, string?]

variable {parseUuid : String → Option Uuid}

theorem ApproverResolution.ofJson?_toJson
    (hparse : ∀ id : Uuid, parseUuid id.toString = some id)
    (resolution : ApproverResolution) :
    ofJson? parseUuid resolution.toJson = some resolution := by
  cases resolution with
  | static userId =>
      rw [toJson]
      refine read_record (by simp) fun entries hget => ?_
      have htag : variant? ApproverTag.variants true (string "static") =
          some .static := rfl
      simp [ofJson?, tagged?, record?, JsonMap.field?, hget, JsonMap.get?, htag,
        string?, hparse]
  | managerOfRequester =>
      rw [toJson]
      refine read_record (by simp) fun entries hget => ?_
      have htag : variant? ApproverTag.variants true
        (string "manager_of_requester") =
        some .managerOfRequester := rfl
      simp [ofJson?, tagged?, record?, hget, JsonMap.get?, htag]
  | roleInDepartment role =>
      rw [toJson]
      refine read_record (by simp) fun entries hget => ?_
      have htag : variant? ApproverTag.variants true
        (string "role_in_department") =
        some .roleInDepartment := rfl
      simp [ofJson?, tagged?, record?, JsonMap.field?, hget, JsonMap.get?, htag]

namespace Condition

/-- A condition that is written as this variant. -/
theorem ofJson?_record {name : String} {fields : JsonMap} {c : Condition}
    (hdistinct : ("op" :: fields.map Prod.fst).Nodup)
    (hwritten : ∀ content : JsonValue,
      (∀ names key, content.fieldOf? names key =
        JsonMap.get? (("op", string name) :: fields) key) →
      c.Written (string name) content) :
    ofJson? (record (("op", string name) :: fields)) = some c := by
  refine read_record hdistinct fun entries hget => ?_
  have htagged : tagged? "op" (object entries) =
      some (string name, object entries) := by
    rw [tagged?, hget]
    rfl
  exact ofJson?_of_written htagged (hwritten _ fun names key => hget key)

mutual

theorem ofJson?_toJson : ∀ c : Condition, ofJson? c.toJson = some c
  | equals fieldKey value | notEquals fieldKey value | .in fieldKey values => by
      rw [toJson]
      refine ofJson?_record (by simp) fun content h => ⟨rfl, ?_, ?_⟩
      · rw [h]
        rfl
      · rw [h]
        rfl
  | .exists fieldKey => by
      rw [toJson]
      refine ofJson?_record (by simp) fun content h => ⟨rfl, ?_⟩
      rw [h]
      rfl
  | and conditions | or conditions => by
      rw [toJson]
      refine ofJson?_record (by simp) fun content h =>
        ⟨rfl, listToJson conditions, ?_, listOfJson?_listToJson conditions⟩
      rw [h]
      rfl
  | not condition => by
      rw [toJson]
      refine ofJson?_record (by simp) fun content h =>
        ⟨rfl, condition.toJson, ?_, ofJson?_toJson condition⟩
      rw [h]
      rfl

theorem listOfJson?_listToJson :
    ∀ conditions : List Condition,
      listOfJson? (listToJson conditions) = some conditions
  | [] => by
      rw [listToJson, listOfJson?]
  | c :: rest => by
      rw [listToJson]
      exact listOfJson?_eq_cons.mpr
        ⟨_, _, rfl, ofJson?_toJson c, listOfJson?_listToJson rest⟩

end

end Condition

theorem optional?_nullable (timeoutSeconds : Option Int64) :
    optional? int64?
      (some (nullable (fun n => number (.ofInt64 n)) timeoutSeconds)) =
      some timeoutSeconds := by
  cases timeoutSeconds with
  | none => rfl
  | some n =>
      show (int64? (number (.ofInt64 n))).map some = _
      rw [JsonNumber.int64?_ofInt64]
      rfl

theorem StepKind.ofJson?_toJson
    (hparse : ∀ id : Uuid, parseUuid id.toString = some id) (kind : StepKind) :
    ofJson? parseUuid kind.toJson = some kind := by
  cases kind with
  | question fieldKey inputType required options next =>
      rw [toJson]
      refine read_record (by simp) fun entries hget => ?_
      have htag : variant? StepTag.variants false (string "question") =
          some .question := rfl
      simp [ofJson?, tagged?, record?, JsonMap.field?, hget, JsonMap.get?, htag,
        string?, bool?,
        list?_map fun option _ => QuestionOption.ofJson?_toJson option]
  | branch condition onTrue onFalse =>
      rw [toJson]
      refine read_record (by simp) fun entries hget => ?_
      have htag : variant? StepTag.variants false (string "branch") =
          some .branch := rfl
      simp [ofJson?, tagged?, record?, JsonMap.field?, hget, JsonMap.get?,
        htag, string?, Condition.ofJson?_toJson]
  | waitForApproval resolution onApprove onReject timeoutSeconds =>
      rw [toJson]
      refine read_record (by simp) fun entries hget => ?_
      have htag : variant? StepTag.variants false (string "wait_for_approval") =
        some .waitForApproval := rfl
      simp [ofJson?, tagged?, record?, JsonMap.field?, hget, JsonMap.get?,
        htag, string?, ApproverResolution.ofJson?_toJson hparse,
        optional?_nullable]
  | submitTicket next =>
      rw [toJson]
      refine read_record (by simp) fun entries hget => ?_
      have htag : variant? StepTag.variants false (string "submit_ticket") =
        some .submitTicket := rfl
      simp [ofJson?, tagged?, record?, JsonMap.field?, hget, JsonMap.get?,
        htag, string?]
  | «end» outcome =>
      rw [toJson]
      refine read_record (by simp) fun entries hget => ?_
      have htag : variant? StepTag.variants false (string "end") =
          some .end := rfl
      simp [ofJson?, tagged?, record?, JsonMap.field?, hget, JsonMap.get?, htag]

theorem Step.ofJson?_toJson
    (hparse : ∀ id : Uuid, parseUuid id.toString = some id) (s : Step) :
    ofJson? parseUuid s.toJson = some s := by
  rw [toJson]
  refine read_record (by simp) fun entries hget => ?_
  simp [ofJson?, record?, JsonMap.field?, hget, JsonMap.get?, string?,
    StepKind.ofJson?_toJson hparse]

theorem WorkflowGraph.ofJson?_toJson
    (hparse : ∀ id : Uuid, parseUuid id.toString = some id)
    (graph : WorkflowGraph) : ofJson? parseUuid graph.toJson = some graph := by
  rw [toJson]
  refine read_record (by simp) fun entries hget => ?_
  simp [ofJson?, record?, JsonMap.field?, hget, JsonMap.get?, string?,
    list?_map fun s _ => Step.ofJson?_toJson hparse s]

end Servcat
