/-
The pure interpreter of a workflow graph.  Each call returns the new current
step together with what the caller must do or wait for there.
-/
import Servcat.Model.Workflow

namespace Servcat

abbrev Answers := JsonMap

/-- What an approver decided about a `waitForApproval` step. -/
inductive ApprovalDecision where
  | approve
  | reject
deriving DecidableEq, Repr

/-- The arrow a decision follows. -/
def ApprovalDecision.pick (onApprove onReject : String) :
    ApprovalDecision → String
  | .approve => onApprove
  | .reject => onReject

inductive EngineError where
  | unknownStep (stepId : String)
  | wrongStepKind (stepId expected found : String)
  | unexpectedField (stepId expectedFieldKey actualFieldKey : String)
  | emptyGraph
  | tooManySteps (limit : Nat)
deriving DecidableEq, Repr

def EngineError.message : EngineError → String
  | .unknownStep stepId =>
      s!"workflow graph references unknown step id '{stepId}'"
  | .wrongStepKind stepId expected found =>
      s!"step '{stepId}' is a {found}, but a {expected} step was expected here"
  | .unexpectedField stepId expectedFieldKey actualFieldKey =>
      s!"step '{stepId}' expects an answer for field '{expectedFieldKey}', " ++
        s!"got '{actualFieldKey}'"
  | .emptyGraph => "workflow graph has no entry step"
  | .tooManySteps limit =>
      s!"workflow graph exceeded {limit} auto-advanced steps without " ++
        "reaching input, approval, ticket submission, or an end step -- " ++
          "check for a branch cycle"

/-- What the caller must do next after an engine call returns. -/
inductive Outcome where
  | awaitingAnswer (fieldKey : String)
  | awaitingApproval (resolution : ApproverResolution)
      (timeoutSeconds : Option Int64)
  | readyToSubmitTicket
  | finished (outcome : EndOutcome)
deriving DecidableEq, Repr

namespace Engine

/-- Upper bound on the steps auto-advanced in one call. -/
def maxAutoSteps : Nat := 256

def find (graph : WorkflowGraph) (stepId : String) : Except EngineError Step :=
  match graph.step stepId with
  | some s => .ok s
  | none => .error (.unknownStep stepId)

def kindName : StepKind → String
  | .question .. => "question"
  | .branch .. => "branch"
  | .waitForApproval .. => "wait_for_approval"
  | .submitTicket .. => "submit_ticket"
  | .end .. => "end"

mutual

def evalCondition : Condition → Answers → Bool
  | .equals fieldKey value, answers => answers.get? fieldKey == some value
  | .notEquals fieldKey value, answers => answers.get? fieldKey != some value
  | .exists fieldKey, answers => answers.containsKey fieldKey
  | .in fieldKey values, answers =>
      (answers.get? fieldKey).any fun v => values.contains v
  | .and conditions, answers => evalAll conditions answers
  | .or conditions, answers => evalAny conditions answers
  | .not condition, answers => !evalCondition condition answers

def evalAll : List Condition → Answers → Bool
  | [], _ => true
  | c :: rest, answers => evalCondition c answers && evalAll rest answers

def evalAny : List Condition → Answers → Bool
  | [], _ => false
  | c :: rest, answers => evalCondition c answers || evalAny rest answers

end

/-- The loop of `autoAdvance` with the number of rounds left. -/
def autoAdvanceLoop (graph : WorkflowGraph) (answers : Answers) :
    Nat → String → Except EngineError (String × Outcome)
  | 0, _ => .error (.tooManySteps maxAutoSteps)
  | rounds + 1, stepId => do
      let step ← find graph stepId
      match step.kind with
      | .question fieldKey .. => return (stepId, .awaitingAnswer fieldKey)
      | .branch condition onTrue onFalse =>
          autoAdvanceLoop graph answers rounds
            (if evalCondition condition answers then onTrue else onFalse)
      | .waitForApproval resolution _ _ timeoutSeconds =>
          return (stepId, .awaitingApproval resolution timeoutSeconds)
      | .submitTicket _ => return (stepId, .readyToSubmitTicket)
      | .end outcome => return (stepId, .finished outcome)

/-- Walks forward from `stepId`, resolving branches, to the next step that needs
input or action. -/
def autoAdvance (graph : WorkflowGraph) (stepId : String) (answers : Answers) :
    Except EngineError (String × Outcome) :=
  autoAdvanceLoop graph answers maxAutoSteps stepId

/-- Begins a new instance at the graph's entry step. -/
def start (graph : WorkflowGraph) : Except EngineError (String × Outcome) :=
  if (graph.step graph.entryStepId).isNone then .error .emptyGraph
  else autoAdvance graph graph.entryStepId []

/-- Records an answer for the current question and advances.  The first
component is what the call leaves in the caller's answers, on every path. -/
def submitAnswer (graph : WorkflowGraph) (currentStepId : String)
    (answers : Answers) (fieldKey : String) (value : JsonValue) :
    Answers × Except EngineError (String × Outcome) :=
  match find graph currentStepId with
  | .error e => (answers, .error e)
  | .ok step =>
      match step.kind with
      | .question expectedFieldKey _ _ _ next =>
          if fieldKey ≠ expectedFieldKey then
            (answers, .error
              (.unexpectedField currentStepId expectedFieldKey fieldKey))
          else
            let answers := answers.insert fieldKey value
            (answers, autoAdvance graph next answers)
      | kind =>
          (answers, .error (.wrongStepKind currentStepId "question"
          (kindName kind)))

/-- Advances past a `waitForApproval` step once an approver has decided. -/
def resumeAfterApproval (graph : WorkflowGraph) (currentStepId : String)
    (answers : Answers) (decision : ApprovalDecision) :
    Except EngineError (String × Outcome) := do
  let step ← find graph currentStepId
  match step.kind with
  | .waitForApproval _ onApprove onReject _ =>
      autoAdvance graph (decision.pick onApprove onReject) answers
  | kind =>
      throw (.wrongStepKind currentStepId "wait_for_approval" (kindName kind))

/-- Advances past a `submitTicket` step once its dispatch has been attempted. -/
def resumeAfterTicketDispatch (graph : WorkflowGraph) (currentStepId : String)
    (answers : Answers) : Except EngineError (String × Outcome) := do
  let step ← find graph currentStepId
  match step.kind with
  | .submitTicket next => autoAdvance graph next answers
  | kind => throw (.wrongStepKind currentStepId "submit_ticket" (kindName kind))

/-- The outcome a step of this kind is returned with; a branch never is. -/
def outcomeOf : StepKind → Option Outcome
  | .question fieldKey .. => some (.awaitingAnswer fieldKey)
  | .branch .. => none
  | .waitForApproval resolution _ _ timeoutSeconds =>
      some (.awaitingApproval resolution timeoutSeconds)
  | .submitTicket _ => some .readyToSubmitTicket
  | .end outcome => some (.finished outcome)

/-- `stepId` names a step of the graph whose outcome is `outcome`. -/
def OutcomeAt (graph : WorkflowGraph) (stepId : String)
    (outcome : Outcome) : Prop :=
  ∃ s, graph.step stepId = some s ∧ outcomeOf s.kind = some outcome

/-- `target` is reached from `source` along arrows that leave branches. -/
inductive BranchPath (graph : WorkflowGraph) (source : String) : String → Prop
  | refl : BranchPath graph source source
  | hop {mid target : String} {s : Step} {condition : Condition}
      {onTrue onFalse : String} (hmid : BranchPath graph source mid)
      (hs : graph.step mid = some s)
      (hkind : s.kind = .branch condition onTrue onFalse)
      (htarget : target = onTrue ∨ target = onFalse) :
      BranchPath graph source target

theorem find_eq_ok_iff {graph : WorkflowGraph} {stepId : String} {s : Step} :
    find graph stepId = .ok s ↔ graph.step stepId = some s := by
  unfold find
  cases graph.step stepId <;> simp

theorem autoAdvanceLoop_ok {graph : WorkflowGraph} {answers : Answers}
    {rounds : Nat} {source mid : String} {result : String × Outcome}
    (hmid : BranchPath graph source mid)
    (h : autoAdvanceLoop graph answers rounds mid = .ok result) :
    BranchPath graph source result.1 ∧ OutcomeAt graph result.1 result.2 := by
  induction rounds generalizing mid with
  | zero => cases h
  | succ rounds ih =>
      unfold autoAdvanceLoop at h
      cases hfind : find graph mid with
      | error e =>
          rw [hfind] at h
          cases h
      | ok s =>
          rw [hfind] at h
          have hs := find_eq_ok_iff.mp hfind
          cases hkind : s.kind with
          | branch condition onTrue onFalse =>
              simp only [hkind, Except.bind, bind] at h
              refine ih (.hop hmid hs hkind ?_) h
              by_cases hc : evalCondition condition answers = true <;> simp [hc]
          | _ =>
              simp only [hkind, Except.bind, bind, pure, Except.pure,
                Except.ok.injEq] at h
              subst h
              exact ⟨hmid, s, hs, by simp [hkind, outcomeOf]⟩

theorem autoAdvance_ok {graph : WorkflowGraph} {answers : Answers}
    {source : String} {result : String × Outcome}
    (h : autoAdvance graph source answers = .ok result) :
    BranchPath graph source result.1 ∧ OutcomeAt graph result.1 result.2 :=
  autoAdvanceLoop_ok .refl h

theorem start_ok {graph : WorkflowGraph} {result : String × Outcome}
    (h : start graph = .ok result) :
    BranchPath graph graph.entryStepId result.1 ∧
      OutcomeAt graph result.1 result.2 := by
  unfold start at h
  split at h
  · cases h
  · exact autoAdvance_ok h

theorem submitAnswer_ok {graph : WorkflowGraph} {current fieldKey : String}
    {answers answers' : Answers} {value : JsonValue} {result : String × Outcome}
    (h : submitAnswer graph current answers fieldKey value =
      (answers', .ok result)) :
    answers' = answers.insert fieldKey value ∧
      ∃ s inputType required options next, graph.step current = some s ∧
        s.kind = .question fieldKey inputType required options next ∧
        BranchPath graph next result.1 ∧ OutcomeAt graph result.1 result.2 := by
  unfold submitAnswer at h
  cases hfind : find graph current with
  | error e => simp [hfind] at h
  | ok s =>
      rw [hfind] at h
      cases hkind : s.kind with
      | question expected inputType required options next =>
          by_cases hfield : fieldKey = expected
          · subst hfield
            simp only [hkind, ne_eq, not_true_eq_false, ↓reduceIte,
              Prod.mk.injEq] at h
            obtain ⟨rfl, hadvance⟩ := h
            exact ⟨rfl, s, inputType, required, options, next,
              find_eq_ok_iff.mp hfind, hkind, autoAdvance_ok hadvance⟩
          · simp [hkind, hfield] at h
      | _ => simp [hkind] at h

/-- What was accepted was accepted by its first part. -/
theorem exists_of_bind {ε α β : Type} {first : Except ε α}
    {rest : α → Except ε β} {b : β} (h : first >>= rest = .ok b) :
    ∃ a, first = .ok a ∧ rest a = .ok b := by
  cases first with
  | error err => cases h
  | ok a => exact ⟨a, rfl, h⟩

theorem resumeAfterApproval_ok {graph : WorkflowGraph} {current : String}
    {answers : Answers} {decision : ApprovalDecision}
    {result : String × Outcome}
    (h : resumeAfterApproval graph current answers decision = .ok result) :
    ∃ s resolution onApprove onReject timeoutSeconds,
      graph.step current = some s ∧
      s.kind = .waitForApproval resolution onApprove onReject timeoutSeconds ∧
      BranchPath graph (decision.pick onApprove onReject) result.1 ∧
      OutcomeAt graph result.1 result.2 := by
  obtain ⟨s, hfind, h⟩ := exists_of_bind h
  cases hkind : s.kind with
  | waitForApproval resolution onApprove onReject timeoutSeconds =>
      simp only [hkind] at h
      exact ⟨s, resolution, onApprove, onReject, timeoutSeconds,
        find_eq_ok_iff.mp hfind, hkind, autoAdvance_ok h⟩
  | _ =>
      simp only [hkind] at h
      cases h

theorem resumeAfterTicketDispatch_ok {graph : WorkflowGraph} {current : String}
    {answers : Answers} {result : String × Outcome}
    (h : resumeAfterTicketDispatch graph current answers = .ok result) :
    ∃ s next, graph.step current = some s ∧ s.kind = .submitTicket next ∧
      BranchPath graph next result.1 ∧ OutcomeAt graph result.1 result.2 := by
  obtain ⟨s, hfind, h⟩ := exists_of_bind h
  cases hkind : s.kind with
  | submitTicket next =>
      simp only [hkind] at h
      exact ⟨s, next, find_eq_ok_iff.mp hfind, hkind, autoAdvance_ok h⟩
  | _ =>
      simp only [hkind] at h
      cases h

end Engine

end Servcat
