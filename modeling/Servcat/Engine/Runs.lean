/-
Runs of the engine: `start`, then any calls at the step the last successful one
returned.  What a graph whose references resolve rules out, and which calls the
outcome of a step lets through.
-/
import Servcat.Engine

namespace Servcat

theorem WorkflowGraph.Resolves.target {graph : WorkflowGraph} {stepId : String}
    {s : Step} {edge : EdgeKind × String} (hclosed : graph.Resolves)
    (hs : graph.step stepId = some s) (hedge : edge ∈ s.kind.edges) :
    (graph.step edge.2).isSome = true :=
  hclosed.2 s (List.mem_of_find?_eq_some hs) edge hedge

/-- The graph points to a step that is not there. -/
def EngineError.Dangling : EngineError → Prop
  | .unknownStep _ => True
  | .emptyGraph => True
  | _ => False

/-- The call was made at a step of the wrong kind or for the wrong field. -/
def EngineError.Refusal : EngineError → Prop
  | .wrongStepKind .. => True
  | .unexpectedField .. => True
  | _ => False

theorem EngineError.Refusal.not_dangling {e : EngineError} (h : e.Refusal) :
    ¬e.Dangling := by
  cases e with
  | wrongStepKind => exact not_false
  | unexpectedField => exact not_false
  | _ => exact h.elim

namespace Engine

abbrev Returned := Except EngineError (String × Outcome)

/-- A call of the engine at a current step. -/
inductive Call where
  | submitAnswer (fieldKey : String) (value : JsonValue)
  | resumeAfterApproval (decision : ApprovalDecision)
  | resumeAfterTicketDispatch
deriving Repr

/-- The caller's answers after the call, and what it returns. -/
def Call.perform (graph : WorkflowGraph) (current : String)
    (answers : Answers) :
    Call → Answers × Returned
  | .submitAnswer fieldKey value =>
      Engine.submitAnswer graph current answers fieldKey value
  | .resumeAfterApproval decision =>
      (answers, Engine.resumeAfterApproval graph current answers decision)
  | .resumeAfterTicketDispatch =>
      (answers, Engine.resumeAfterTicketDispatch graph current answers)

/-- The step the next call is made at: a failed call leaves it where it was. -/
def stepFrom (current : String) : Returned → String
  | .ok (stepId, _) => stepId
  | .error _ => current

/-- Runs by the step of the last successful call and everything returned so far.
The answers are the caller's, and each call may come with others. -/
inductive Run (graph : WorkflowGraph) : Option String → List Returned → Prop
  | start : Run graph ((start graph).toOption.map Prod.fst) [start graph]
  | call {current : String} {returned : List Returned}
      (hrun : Run graph (some current) returned) (answers : Answers)
      (call : Call) :
      Run graph (some (stepFrom current (call.perform graph current answers).2))
        (returned ++ [(call.perform graph current answers).2])

/-- A walk that fails met a missing step or used up its rounds. -/
theorem autoAdvanceLoop_error {graph : WorkflowGraph} {answers : Answers}
    {rounds : Nat} {stepId : String} {e : EngineError}
    (h : autoAdvanceLoop graph answers rounds stepId = .error e) :
    (∃ missing, e = .unknownStep missing) ∨ e = .tooManySteps maxAutoSteps := by
  induction rounds generalizing stepId with
  | zero =>
      cases h
      exact .inr rfl
  | succ rounds ih =>
      unfold autoAdvanceLoop at h
      cases hs : graph.step stepId with
      | none =>
          simp only [find, hs, bind, Except.bind] at h
          cases h
          exact .inl ⟨stepId, rfl⟩
      | some s =>
          cases hkind : s.kind with
          | branch condition onTrue onFalse =>
              simp only [find, hs, hkind, bind, Except.bind] at h
              exact ih h
          | _ =>
              simp [find, hs, hkind, bind, Except.bind, pure, Except.pure] at h

/-- Whichever way a branch goes, it follows one of its arrows. -/
theorem branch_follows {kind : StepKind} {condition : Condition}
    {onTrue onFalse : String} (hkind : kind = .branch condition onTrue onFalse)
    (answers : Answers) :
    ∃ edge ∈ kind.edges,
      edge.2 = if evalCondition condition answers then onTrue else onFalse := by
  subst hkind
  by_cases hc : evalCondition condition answers = true
  · exact ⟨(.onTrue, onTrue), by simp [StepKind.edges], (if_pos hc).symm⟩
  · exact ⟨(.onFalse, onFalse), by simp [StepKind.edges], (if_neg hc).symm⟩

/-- In a graph whose references resolve, a walk only fails by its length. -/
theorem autoAdvanceLoop_error_of_resolves {graph : WorkflowGraph}
    {answers : Answers} {rounds : Nat} {stepId : String} {e : EngineError}
    (hclosed : graph.Resolves) (hstep : (graph.step stepId).isSome = true)
    (h : autoAdvanceLoop graph answers rounds stepId = .error e) :
    e = .tooManySteps maxAutoSteps := by
  induction rounds generalizing stepId with
  | zero =>
      cases h
      rfl
  | succ rounds ih =>
      unfold autoAdvanceLoop at h
      obtain ⟨s, hs⟩ := Option.isSome_iff_exists.mp hstep
      cases hkind : s.kind with
      | branch condition onTrue onFalse =>
          simp only [find, hs, hkind, bind, Except.bind] at h
          obtain ⟨edge, hedge, htarget⟩ := branch_follows hkind answers
          rw [← htarget] at h
          exact ih (hclosed.target hs hedge) h
      | _ => simp [find, hs, hkind, bind, Except.bind, pure, Except.pure] at h

theorem start_error_of_resolves {graph : WorkflowGraph} {e : EngineError}
    (hclosed : graph.Resolves) (h : start graph = .error e) : ¬e.Dangling := by
  have hentry := hclosed.1
  obtain ⟨s, hs⟩ := Option.isSome_iff_exists.mp hentry
  simp only [start, hs, Option.isNone_some, Bool.false_eq_true, ↓reduceIte] at h
  rw [autoAdvanceLoop_error_of_resolves hclosed hentry h]
  simp [EngineError.Dangling]

/-- A call fails before it walks, by refusing its step or its field, or on the
walk from the target of an arrow that leaves its step. -/
theorem Call.perform_error {graph : WorkflowGraph} {current : String}
    {answers : Answers} {call : Call} {s : Step} {e : EngineError}
    (hs : graph.step current = some s)
    (h : (call.perform graph current answers).2 = .error e) :
    e.Refusal ∨ ∃ edge ∈ s.kind.edges, ∃ answers' : Answers,
      autoAdvance graph edge.2 answers' = .error e := by
  cases call with
  | submitAnswer fieldKey value =>
      simp only [Call.perform, Engine.submitAnswer, find, hs] at h
      cases hkind : s.kind with
      | question expected inputType required options next =>
          simp only [hkind] at h
          by_cases hfield : fieldKey = expected
          · simp only [hfield, ne_eq, not_true_eq_false, ↓reduceIte] at h
            exact .inr ⟨(.next, next), by simp [StepKind.edges], _, h⟩
          · simp only [hfield, ne_eq, not_false_eq_true, ↓reduceIte,
              Except.error.injEq] at h
            subst h
            exact .inl trivial
      | _ =>
          simp only [hkind, Except.error.injEq] at h
          subst h
          exact .inl trivial
  | resumeAfterApproval decision =>
      simp only [Call.perform, Engine.resumeAfterApproval, find, hs, bind,
        Except.bind] at h
      cases hkind : s.kind with
      | waitForApproval resolution onApprove onReject timeoutSeconds =>
          simp only [hkind] at h
          cases decision with
          | approve =>
              exact .inr ⟨(.onApprove, onApprove),
                by simp [StepKind.edges], _, h⟩
          | reject =>
              exact .inr ⟨(.onReject, onReject), by simp [StepKind.edges], _, h⟩
      | _ =>
          simp only [hkind, throw, throwThe, MonadExceptOf.throw,
            Except.error.injEq] at h
          subst h
          exact .inl trivial
  | resumeAfterTicketDispatch =>
      simp only [Call.perform, Engine.resumeAfterTicketDispatch, find, hs, bind,
        Except.bind] at h
      cases hkind : s.kind with
      | submitTicket next =>
          simp only [hkind] at h
          exact .inr ⟨(.next, next), by simp [StepKind.edges], _, h⟩
      | _ =>
          simp only [hkind, throw, throwThe, MonadExceptOf.throw,
            Except.error.injEq] at h
          subst h
          exact .inl trivial

theorem Call.perform_ok {graph : WorkflowGraph} {current : String}
    {answers : Answers} {call : Call} {result : String × Outcome}
    (h : (call.perform graph current answers).2 = .ok result) :
    OutcomeAt graph result.1 result.2 := by
  cases call with
  | submitAnswer fieldKey value =>
      obtain ⟨-, -, -, -, -, -, -, -, -, hat⟩ :=
        submitAnswer_ok (Prod.ext rfl h)
      exact hat
  | resumeAfterApproval decision =>
      obtain ⟨-, -, -, -, -, -, -, -, hat⟩ := resumeAfterApproval_ok h
      exact hat
  | resumeAfterTicketDispatch =>
      obtain ⟨-, -, -, -, -, hat⟩ := resumeAfterTicketDispatch_ok h
      exact hat

theorem Call.perform_error_of_resolves {graph : WorkflowGraph}
    {current : String} {answers : Answers} {call : Call} {e : EngineError}
    (hclosed : graph.Resolves) (hstep : (graph.step current).isSome = true)
    (h : (call.perform graph current answers).2 = .error e) : ¬e.Dangling := by
  obtain ⟨s, hs⟩ := Option.isSome_iff_exists.mp hstep
  rcases Call.perform_error hs h with hrefusal | ⟨edge, hedge, answers', hwalk⟩
  · exact hrefusal.not_dangling
  · have htarget := hclosed.target hs hedge
    rw [autoAdvanceLoop_error_of_resolves hclosed htarget hwalk]
    exact not_false

theorem OutcomeAt.isSome {graph : WorkflowGraph} {stepId : String}
    {outcome : Outcome} (h : OutcomeAt graph stepId outcome) :
    (graph.step stepId).isSome = true := by
  obtain ⟨s, hs, -⟩ := h
  rw [hs]
  rfl

/-- The current step of a run exists, whether or not the graph resolves. -/
theorem Run.current_exists {graph : WorkflowGraph} {last : Option String}
    {returned : List Returned} (hrun : Run graph last returned) :
    ∀ current, last = some current → (graph.step current).isSome = true := by
  induction hrun with
  | start =>
      intro current hlast
      cases h : Engine.start graph with
      | ok result =>
          rw [h] at hlast
          cases hlast
          exact (start_ok h).2.isSome
      | error e =>
          rw [h] at hlast
          cases hlast
  | @call current returned hrun answers call ih =>
      intro next hlast
      cases h : (call.perform graph current answers).2 with
      | ok result =>
          rw [h] at hlast
          cases hlast
          exact (Call.perform_ok h).isSome
      | error e =>
          rw [h] at hlast
          cases hlast
          exact ih current rfl

/-- No call of a run in a graph whose references resolve meets a
missing step. -/
theorem Run.never_dangles {graph : WorkflowGraph} (hclosed : graph.Resolves)
    {last : Option String} {returned : List Returned}
    (hrun : Run graph last returned) :
    ∀ e, .error e ∈ returned →
      (∀ stepId, e ≠ .unknownStep stepId) ∧ e ≠ .emptyGraph := by
  have hdangling : ∀ e, .error e ∈ returned → ¬e.Dangling := by
    induction hrun with
    | start =>
        intro e he
        apply start_error_of_resolves hclosed
        exact (List.mem_singleton.mp he).symm
    | @call current returned hrun answers call ih =>
        intro e he
        rcases List.mem_append.mp he with hbefore | hlast
        · exact ih e hbefore
        · apply Call.perform_error_of_resolves hclosed
            (hrun.current_exists current rfl)
          exact (List.mem_singleton.mp hlast).symm
  intro e he
  have hnot := hdangling e he
  constructor
  · rintro stepId rfl
    exact hnot trivial
  · rintro rfl
    exact hnot trivial

/-- A question asked again until a ticket is wanted; its step id is
used twice. -/
def askAgain : WorkflowGraph where
  entryStepId := "ask"
  steps :=
    [⟨"ask", "", .question "wanted" .boolean true [] "check"⟩,
     ⟨"check", "", .branch (.equals "wanted" (.bool true)) "file" "ask"⟩,
     ⟨"file", "", .submitTicket "ask"⟩,
     ⟨"ask", "", .submitTicket "file"⟩]

/-- A wrong field, an answer that goes round and one that goes on. -/
def askAgainReturned : List Returned :=
  [start askAgain,
   (Call.perform askAgain "ask" [] (.submitAnswer "other" .null)).2,
   (Call.perform askAgain "ask" [] (.submitAnswer "wanted" .null)).2,
   (Call.perform askAgain "ask" [] (.submitAnswer "wanted" (.bool true))).2]

theorem Run.never_dangles_askAgain :
    askAgainReturned.map Except.isOk = [true, false, true, true] ∧
    ∀ e, .error e ∈ askAgainReturned →
      (∀ stepId, e ≠ .unknownStep stepId) ∧ e ≠ .emptyGraph := by
  have hstart : Run askAgain (some "ask") [Engine.start askAgain] := Run.start
  have hwrong : Run askAgain (some "ask") _ :=
    hstart.call [] (.submitAnswer "other" .null)
  have hround : Run askAgain (some "ask") _ :=
    hwrong.call [] (.submitAnswer "wanted" .null)
  have hon : Run askAgain (some "file") askAgainReturned :=
    hround.call [] (.submitAnswer "wanted" (.bool true))
  exact ⟨rfl, Run.never_dangles (by decide) hon⟩

/-- What a successful `start` or call, made at any step, can return. -/
inductive Returns (graph : WorkflowGraph) : String × Outcome → Prop
  | start {result : String × Outcome} (h : Engine.start graph = .ok result) :
      Returns graph result
  | call {current : String} {answers : Answers} {call : Call}
      {result : String × Outcome}
      (h : (call.perform graph current answers).2 = .ok result) :
      Returns graph result

theorem Returns.outcomeAt {graph : WorkflowGraph} {result : String × Outcome}
    (h : Returns graph result) : OutcomeAt graph result.1 result.2 := by
  cases h with
  | start hstart => exact (start_ok hstart).2
  | call hcall => exact Call.perform_ok hcall

/-- The step kind a call is made for. -/
def Call.MadeFor : Call → StepKind → Prop
  | .submitAnswer .., .question .. => True
  | .resumeAfterApproval _, .waitForApproval .. => True
  | .resumeAfterTicketDispatch, .submitTicket _ => True
  | _, _ => False

/-- Whatever the answers, the call is not refused at this step. -/
def Call.LetThrough (graph : WorkflowGraph) (current : String)
    (call : Call) : Prop :=
  ∀ answers e, (call.perform graph current answers).2 = .error e → ¬e.Refusal

/-- Whatever the answers, the call is refused for the kind of this step. -/
def Call.Barred (graph : WorkflowGraph) (current : String)
    (call : Call) : Prop :=
  ∀ answers, ∃ expected found,
    (call.perform graph current answers).2 =
      .error (.wrongStepKind current expected found)

theorem Call.barred {graph : WorkflowGraph} {current : String} {s : Step}
    {call : Call} (hs : graph.step current = some s)
    (hcall : ¬call.MadeFor s.kind) : call.Barred graph current := by
  intro answers
  cases call with
  | submitAnswer fieldKey value =>
      simp only [Call.perform, Engine.submitAnswer, find, hs]
      cases hkind : s.kind with
      | question => simp [Call.MadeFor, hkind] at hcall
      | _ => exact ⟨_, _, rfl⟩
  | resumeAfterApproval decision =>
      simp only [Call.perform, Engine.resumeAfterApproval, find, hs, bind,
        Except.bind]
      cases hkind : s.kind with
      | waitForApproval => simp [Call.MadeFor, hkind] at hcall
      | _ => exact ⟨_, _, rfl⟩
  | resumeAfterTicketDispatch =>
      simp only [Call.perform, Engine.resumeAfterTicketDispatch, find, hs, bind,
        Except.bind]
      cases hkind : s.kind with
      | submitTicket => simp [Call.MadeFor, hkind] at hcall
      | _ => exact ⟨_, _, rfl⟩

theorem autoAdvance_error_not_refusal {graph : WorkflowGraph}
    {answers : Answers} {stepId : String} {e : EngineError}
    (h : autoAdvance graph stepId answers = .error e) : ¬e.Refusal := by
  rcases autoAdvanceLoop_error h with ⟨missing, rfl⟩ | rfl
  · exact not_false
  · exact not_false

theorem submitAnswer_letThrough {graph : WorkflowGraph}
    {current fieldKey : String} {s : Step} {inputType : InputType}
    {required : Bool} {options : List QuestionOption} {next : String}
    (hs : graph.step current = some s)
    (hkind : s.kind = .question fieldKey inputType required options next)
    (value : JsonValue) :
    (Call.submitAnswer fieldKey value).LetThrough graph current := by
  intro answers e h
  simp only [Call.perform, Engine.submitAnswer, find, hs, hkind, ne_eq,
    not_true_eq_false, ↓reduceIte] at h
  exact autoAdvance_error_not_refusal h

theorem resumeAfterApproval_letThrough {graph : WorkflowGraph}
    {current : String} {s : Step} {resolution : ApproverResolution}
    {onApprove onReject : String} {timeoutSeconds : Option Int64}
    (hs : graph.step current = some s)
    (hkind : s.kind = .waitForApproval resolution onApprove onReject
      timeoutSeconds)
    (decision : ApprovalDecision) :
    (Call.resumeAfterApproval decision).LetThrough graph current := by
  intro answers e h
  simp only [Call.perform, Engine.resumeAfterApproval, find, hs, hkind, bind,
    Except.bind] at h
  exact autoAdvance_error_not_refusal h

theorem resumeAfterTicketDispatch_letThrough {graph : WorkflowGraph}
    {current next : String} {s : Step} (hs : graph.step current = some s)
    (hkind : s.kind = .submitTicket next) :
    Call.resumeAfterTicketDispatch.LetThrough graph current := by
  intro answers e h
  simp only [Call.perform, Engine.resumeAfterTicketDispatch, find, hs,
    hkind, bind, Except.bind] at h
  exact autoAdvance_error_not_refusal h

/-- The calls an outcome asks for are let through at its step and the others are
barred there. -/
def CallsAgree (graph : WorkflowGraph) (stepId : String) : Outcome → Prop
  | .awaitingAnswer fieldKey =>
      (∀ value, (Call.submitAnswer fieldKey value).LetThrough graph stepId) ∧
      (∀ decision, (Call.resumeAfterApproval decision).Barred graph stepId) ∧
      Call.resumeAfterTicketDispatch.Barred graph stepId
  | .awaitingApproval _ _ =>
      (∀ decision,
        (Call.resumeAfterApproval decision).LetThrough graph stepId) ∧
      (∀ fieldKey value,
        (Call.submitAnswer fieldKey value).Barred graph stepId) ∧
      Call.resumeAfterTicketDispatch.Barred graph stepId
  | .readyToSubmitTicket =>
      Call.resumeAfterTicketDispatch.LetThrough graph stepId ∧
      (∀ fieldKey value,
        (Call.submitAnswer fieldKey value).Barred graph stepId) ∧
      (∀ decision, (Call.resumeAfterApproval decision).Barred graph stepId)
  | .finished _ =>
      (∀ fieldKey value,
        (Call.submitAnswer fieldKey value).Barred graph stepId) ∧
      (∀ decision, (Call.resumeAfterApproval decision).Barred graph stepId) ∧
      Call.resumeAfterTicketDispatch.Barred graph stepId

theorem OutcomeAt.calls_follow {graph : WorkflowGraph} {stepId : String}
    {outcome : Outcome} (h : OutcomeAt graph stepId outcome) :
    CallsAgree graph stepId outcome := by
  obtain ⟨s, hs, houtcome⟩ := h
  have hbarred : ∀ call : Call, ¬call.MadeFor s.kind →
      call.Barred graph stepId :=
    fun _ hcall => Call.barred hs hcall
  cases hkind : s.kind with
  | branch => simp [hkind, outcomeOf] at houtcome
  | question fieldKey inputType required options next =>
      simp only [hkind, outcomeOf, Option.some.injEq] at houtcome
      subst houtcome
      refine ⟨submitAnswer_letThrough hs hkind, ?_, ?_⟩
      · intro decision
        apply hbarred
        simp [hkind, Call.MadeFor]
      · apply hbarred
        simp [hkind, Call.MadeFor]
  | waitForApproval resolution onApprove onReject timeoutSeconds =>
      simp only [hkind, outcomeOf, Option.some.injEq] at houtcome
      subst houtcome
      refine ⟨resumeAfterApproval_letThrough hs hkind, ?_, ?_⟩
      · intro fieldKey value
        apply hbarred
        simp [hkind, Call.MadeFor]
      · apply hbarred
        simp [hkind, Call.MadeFor]
  | submitTicket next =>
      simp only [hkind, outcomeOf, Option.some.injEq] at houtcome
      subst houtcome
      refine ⟨resumeAfterTicketDispatch_letThrough hs hkind, ?_, ?_⟩
      · intro fieldKey value
        apply hbarred
        simp [hkind, Call.MadeFor]
      · intro decision
        apply hbarred
        simp [hkind, Call.MadeFor]
  | «end» outcome =>
      simp only [hkind, outcomeOf, Option.some.injEq] at houtcome
      subst houtcome
      refine ⟨?_, ?_, ?_⟩
      · intro fieldKey value
        apply hbarred
        simp [hkind, Call.MadeFor]
      · intro decision
        apply hbarred
        simp [hkind, Call.MadeFor]
      · apply hbarred
        simp [hkind, Call.MadeFor]

/-- Whatever was returned names a step that is there and no branch, and the
outcome says which call the step takes next. -/
theorem Returns.callsAgree {graph : WorkflowGraph} {stepId : String}
    {outcome : Outcome} (h : Returns graph (stepId, outcome)) :
    (∃ s, graph.step stepId = some s ∧
        ∀ condition onTrue onFalse, s.kind ≠ .branch condition onTrue onFalse) ∧
      CallsAgree graph stepId outcome := by
  have hat := h.outcomeAt
  constructor
  · obtain ⟨s, hs, houtcome⟩ := hat
    refine ⟨s, hs, ?_⟩
    intro condition onTrue onFalse hkind
    simp [hkind, outcomeOf] at houtcome
  · exact hat.calls_follow

theorem Returns.callsAgree_askAgain :
    (∃ s, askAgain.step "file" = some s ∧
        ∀ condition onTrue onFalse, s.kind ≠ .branch condition onTrue onFalse) ∧
      CallsAgree askAgain "file" .readyToSubmitTicket := by
  have hreturns : (Call.perform askAgain "ask" []
      (.submitAnswer "wanted" (.bool true))).2 =
        .ok ("file", .readyToSubmitTicket) :=
    rfl
  exact Returns.callsAgree (.call hreturns)

end Engine

end Servcat
