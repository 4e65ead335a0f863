/-
What routing depends on.  Answers that agree on the fields a graph's branches
ask about lead every call to the same step, outcome or error.
-/
import Servcat.Engine.Runs

namespace Servcat

/-- Same presence and same value at each of the keys. -/
def JsonMap.AgreeOn (keys : List String) (a b : JsonMap) : Prop :=
  ∀ key ∈ keys, a.get? key = b.get? key

theorem JsonMap.AgreeOn.mono {keys keys' : List String} {a b : JsonMap}
    (h : JsonMap.AgreeOn keys a b) (hsub : keys' ⊆ keys) :
    JsonMap.AgreeOn keys' a b :=
  fun key hkey => h key (hsub hkey)

theorem JsonMap.AgreeOn.insert {keys : List String} {a b : JsonMap}
    (h : JsonMap.AgreeOn keys a b) (key : String) (value : JsonValue) :
    JsonMap.AgreeOn keys (JsonMap.insert a key value)
      (JsonMap.insert b key value) := by
  intro other hother
  rw [JsonMap.get?_insert, JsonMap.get?_insert, h other hother]

/-- At a key nobody compares, the two maps may even receive different values. -/
theorem JsonMap.AgreeOn.insert_of_notMem {keys : List String} {a b : JsonMap}
    (h : JsonMap.AgreeOn keys a b) {key : String} (hkey : key ∉ keys)
    (value value' : JsonValue) :
    JsonMap.AgreeOn keys (JsonMap.insert a key value)
      (JsonMap.insert b key value') := by
  intro other hother
  have hne : other ≠ key := by
    rintro rfl
    exact hkey hother
  rw [JsonMap.get?_insert, JsonMap.get?_insert, if_neg hne, if_neg hne,
    h other hother]

mutual

/-- The field keys a condition mentions, at any depth. -/
def Condition.fieldKeys : Condition → List String
  | .equals fieldKey _ => [fieldKey]
  | .notEquals fieldKey _ => [fieldKey]
  | .exists fieldKey => [fieldKey]
  | .in fieldKey _ => [fieldKey]
  | .and conditions => fieldKeysOfAll conditions
  | .or conditions => fieldKeysOfAll conditions
  | .not condition => condition.fieldKeys

def Condition.fieldKeysOfAll : List Condition → List String
  | [] => []
  | c :: rest => c.fieldKeys ++ fieldKeysOfAll rest

end

def StepKind.branchFieldKeys : StepKind → List String
  | .branch condition _ _ => condition.fieldKeys
  | _ => []

/-- The field keys of every branch of the graph. -/
def WorkflowGraph.branchFieldKeys (graph : WorkflowGraph) : List String :=
  graph.steps.flatMap fun s => s.kind.branchFieldKeys

theorem WorkflowGraph.fieldKeys_subset {graph : WorkflowGraph} {stepId : String}
    {s : Step} {condition : Condition} {onTrue onFalse : String}
    (hs : graph.step stepId = some s)
    (hkind : s.kind = .branch condition onTrue onFalse) :
    condition.fieldKeys ⊆ graph.branchFieldKeys := by
  intro key hkey
  apply List.mem_flatMap.mpr
  refine ⟨s, List.mem_of_find?_eq_some hs, ?_⟩
  rw [hkind]
  exact hkey

namespace Engine

open JsonMap (AgreeOn)

mutual

theorem evalCondition_congr {a b : Answers} :
    ∀ condition : Condition, AgreeOn condition.fieldKeys a b →
      evalCondition condition a = evalCondition condition b
  | .equals fieldKey value, h => by
      simp only [evalCondition, h fieldKey (by simp [Condition.fieldKeys])]
  | .notEquals fieldKey value, h => by
      simp only [evalCondition, h fieldKey (by simp [Condition.fieldKeys])]
  | .exists fieldKey, h => by
      simp only [evalCondition, JsonMap.containsKey,
        h fieldKey (by simp [Condition.fieldKeys])]
  | .in fieldKey values, h => by
      simp only [evalCondition, h fieldKey (by simp [Condition.fieldKeys])]
  | .and conditions, h => by
      simp only [evalCondition]
      exact evalAll_congr conditions h
  | .or conditions, h => by
      simp only [evalCondition]
      exact evalAny_congr conditions h
  | .not condition, h => by
      simp only [evalCondition, evalCondition_congr condition h]

theorem evalAll_congr {a b : Answers} :
    ∀ conditions : List Condition,
      AgreeOn (Condition.fieldKeysOfAll conditions) a b →
      evalAll conditions a = evalAll conditions b
  | [], _ => rfl
  | c :: rest, h => by
      have hhead : AgreeOn c.fieldKeys a b :=
        h.mono (List.subset_append_left _ _)
      have htail : AgreeOn (Condition.fieldKeysOfAll rest) a b :=
        h.mono (List.subset_append_right _ _)
      simp only [evalAll, evalCondition_congr c hhead, evalAll_congr rest htail]

theorem evalAny_congr {a b : Answers} :
    ∀ conditions : List Condition,
      AgreeOn (Condition.fieldKeysOfAll conditions) a b →
      evalAny conditions a = evalAny conditions b
  | [], _ => rfl
  | c :: rest, h => by
      have hhead : AgreeOn c.fieldKeys a b :=
        h.mono (List.subset_append_left _ _)
      have htail : AgreeOn (Condition.fieldKeysOfAll rest) a b :=
        h.mono (List.subset_append_right _ _)
      simp only [evalAny, evalCondition_congr c hhead, evalAny_congr rest htail]

end

theorem autoAdvanceLoop_congr {graph : WorkflowGraph} {a b : Answers}
    (h : AgreeOn graph.branchFieldKeys a b) (rounds : Nat) (stepId : String) :
    autoAdvanceLoop graph a rounds stepId =
      autoAdvanceLoop graph b rounds stepId := by
  induction rounds generalizing stepId with
  | zero => rfl
  | succ rounds ih =>
      unfold autoAdvanceLoop
      cases hs : graph.step stepId with
      | none => simp [find, hs, bind, Except.bind]
      | some s =>
          cases hkind : s.kind with
          | branch condition onTrue onFalse =>
              have hkeys := WorkflowGraph.fieldKeys_subset hs hkind
              have hcondition := evalCondition_congr condition (h.mono hkeys)
              simp only [find, hs, hkind, bind, Except.bind]
              rw [hcondition]
              exact ih _
          | _ => simp [find, hs, hkind, bind, Except.bind]

theorem autoAdvance_congr {graph : WorkflowGraph} {a b : Answers}
    (h : AgreeOn graph.branchFieldKeys a b) (stepId : String) :
    autoAdvance graph stepId a = autoAdvance graph stepId b :=
  autoAdvanceLoop_congr h maxAutoSteps stepId

/-- The two callers submit the same field; their values may differ at a field
that no branch asks about. -/
theorem submitAnswer_congr {graph : WorkflowGraph} {a b : Answers}
    (h : AgreeOn graph.branchFieldKeys a b) {fieldKey : String}
    {value value' : JsonValue}
    (hvalue : value = value' ∨ fieldKey ∉ graph.branchFieldKeys)
    (current : String) :
    (submitAnswer graph current a fieldKey value).2 =
        (submitAnswer graph current b fieldKey value').2 ∧
      AgreeOn graph.branchFieldKeys
        (submitAnswer graph current a fieldKey value).1
        (submitAnswer graph current b fieldKey value').1 := by
  have hinsert : AgreeOn graph.branchFieldKeys (JsonMap.insert a fieldKey value)
      (JsonMap.insert b fieldKey value') := by
    rcases hvalue with rfl | hkey
    · exact h.insert fieldKey value
    · exact h.insert_of_notMem hkey value value'
  unfold submitAnswer
  cases hfind : find graph current with
  | error e => exact ⟨rfl, h⟩
  | ok s =>
      cases hkind : s.kind with
      | question expected inputType required options next =>
          by_cases hfield : fieldKey = expected
          · simp only [hkind, hfield, ne_eq, not_true_eq_false, ↓reduceIte]
            rw [hfield] at hinsert
            exact ⟨autoAdvance_congr hinsert next, hinsert⟩
          · simp only [hkind, ne_eq, hfield, not_false_eq_true, ↓reduceIte]
            exact ⟨trivial, h⟩
      | _ =>
          simp only [hkind]
          exact ⟨trivial, h⟩

theorem resumeAfterApproval_congr {graph : WorkflowGraph} {a b : Answers}
    (h : AgreeOn graph.branchFieldKeys a b) (current : String)
    (decision : ApprovalDecision) :
    resumeAfterApproval graph current a decision =
      resumeAfterApproval graph current b decision := by
  unfold resumeAfterApproval
  simp only [autoAdvance_congr h]

theorem resumeAfterTicketDispatch_congr {graph : WorkflowGraph} {a b : Answers}
    (h : AgreeOn graph.branchFieldKeys a b) (current : String) :
    resumeAfterTicketDispatch graph current a =
      resumeAfterTicketDispatch graph current b := by
  unfold resumeAfterTicketDispatch
  simp only [autoAdvance_congr h]

/-- What the calls return, each made at the step of the last successful one with
the answers that the calls before it left. -/
def session (graph : WorkflowGraph) :
    String → Answers → List Call → List Returned
  | _, _, [] => []
  | current, answers, call :: rest =>
      let (answers', returned) := call.perform graph current answers
      returned :: session graph (stepFrom current returned) answers' rest

/-- The same call, up to the value of a field that no branch asks about. -/
inductive Call.SameRoute (graph : WorkflowGraph) : Call → Call → Prop
  | same (call : Call) : SameRoute graph call call
  | unasked {fieldKey : String} (hkey : fieldKey ∉ graph.branchFieldKeys)
      (value value' : JsonValue) :
      SameRoute graph (.submitAnswer fieldKey value)
        (.submitAnswer fieldKey value')

theorem Call.perform_congr {graph : WorkflowGraph} {a b : Answers}
    (h : AgreeOn graph.branchFieldKeys a b) {call call' : Call}
    (hcall : call.SameRoute graph call') (current : String) :
    (call.perform graph current a).2 = (call'.perform graph current b).2 ∧
      AgreeOn graph.branchFieldKeys (call.perform graph current a).1
        (call'.perform graph current b).1 := by
  cases hcall with
  | unasked hkey value value' => exact submitAnswer_congr h (.inr hkey) current
  | same =>
      cases call with
      | submitAnswer fieldKey value =>
          exact submitAnswer_congr h (.inl rfl) current
      | resumeAfterApproval decision =>
          exact ⟨resumeAfterApproval_congr h current decision, h⟩
      | resumeAfterTicketDispatch =>
          exact ⟨resumeAfterTicketDispatch_congr h current, h⟩

theorem session_congr {graph : WorkflowGraph} {a b : Answers}
    (h : AgreeOn graph.branchFieldKeys a b) {calls calls' : List Call}
    (hcalls : List.Forall₂ (Call.SameRoute graph) calls calls')
    (current : String) :
    session graph current a calls = session graph current b calls' := by
  induction hcalls generalizing a b current with
  | nil => rfl
  | cons hcall _ ih =>
      obtain ⟨hreturned, hanswers⟩ := Call.perform_congr h hcall current
      simp only [session]
      rw [hreturned, ih hanswers]

/-- Answers that agree on the fields of the branches are routed alike: call by
call, and over sessions that differ in the values of the other fields. -/
theorem routed_alike {graph : WorkflowGraph} {a b : Answers}
    (h : AgreeOn graph.branchFieldKeys a b) (current : String) :
    (∀ call : Call,
        (call.perform graph current a).2 = (call.perform graph current b).2) ∧
      ∀ calls calls', List.Forall₂ (Call.SameRoute graph) calls calls' →
        session graph current a calls = session graph current b calls' := by
  constructor
  · intro call
    exact (Call.perform_congr h (.same call) current).1
  · intro calls calls' hcalls
    exact session_congr h hcalls current

theorem routed_alike_askAgain :
    let a : Answers := [("note", .string "urgent"), ("wanted", .bool false)]
    let b : Answers := [("wanted", .bool false)]
    (∀ call : Call,
        (call.perform askAgain "ask" a).2 = (call.perform askAgain "ask" b).2) ∧
      ∀ calls calls', List.Forall₂ (Call.SameRoute askAgain) calls calls' →
        session askAgain "ask" a calls = session askAgain "ask" b calls' := by
  apply routed_alike
  intro key hkey
  have hwanted : key = "wanted" := by simpa [WorkflowGraph.branchFieldKeys,
    askAgain, StepKind.branchFieldKeys, Condition.fieldKeys] using hkey
  rw [hwanted]
  rfl

end Engine

end Servcat
