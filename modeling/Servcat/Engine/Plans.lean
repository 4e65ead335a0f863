/-
What a workflow without branches makes its callers do, as a tree of demands; the
graphs that realise such a plan, and the runs of the engine on them.
-/
import Servcat.Engine.BranchWalk
import Servcat.Engine.Runs

namespace Servcat.Engine

/-- The demands of a workflow without branches, in order. -/
inductive Plan where
  | ask (fieldKey : String) (rest : Plan)
  | approval (resolution : ApproverResolution) (timeoutSeconds : Option Int64)
      (approved rejected : Plan)
  | ticket (rest : Plan)
  | finish (outcome : EndOutcome)
deriving Repr

/-- The outcome the engine returns at the head of the plan. -/
def Plan.outcome : Plan → Outcome
  | .ask fieldKey _ => .awaitingAnswer fieldKey
  | .approval resolution timeoutSeconds _ _ =>
      .awaitingApproval resolution timeoutSeconds
  | .ticket _ => .readyToSubmitTicket
  | .finish outcome => .finished outcome

/-- What is left after a call, if the call is the one demanded. -/
def Plan.next : Plan → Call → Option Plan
  | .ask fieldKey rest, .submitAnswer actual _ =>
      if actual = fieldKey then some rest else none
  | .approval _ _ approved _, .resumeAfterApproval .approve => some approved
  | .approval _ _ _ rejected, .resumeAfterApproval .reject => some rejected
  | .ticket rest, .resumeAfterTicketDispatch => some rest
  | _, _ => none

/-- From the step called `stepId` on, the graph makes the demands
of the plan. -/
def Realises (graph : WorkflowGraph) (stepId : String) : Plan → Prop
  | .ask fieldKey rest =>
      ∃ label inputType required options next,
        graph.step stepId =
          some ⟨stepId, label, .question fieldKey inputType required
            options next⟩ ∧
        Realises graph next rest
  | .approval resolution timeoutSeconds approved rejected =>
      ∃ label onApprove onReject,
        graph.step stepId =
          some ⟨stepId, label,
            .waitForApproval resolution onApprove onReject timeoutSeconds⟩ ∧
        Realises graph onApprove approved ∧ Realises graph onReject rejected
  | .ticket rest =>
      ∃ label next,
        graph.step stepId = some ⟨stepId, label, .submitTicket next⟩ ∧
        Realises graph next rest
  | .finish outcome =>
      ∃ label, graph.step stepId = some ⟨stepId, label, .end outcome⟩

/-- The calls that an outcome asks for. -/
def Asks : Outcome → Call → Prop
  | .awaitingAnswer fieldKey, .submitAnswer actual _ => actual = fieldKey
  | .awaitingApproval _ _, .resumeAfterApproval _ => True
  | .readyToSubmitTicket, .resumeAfterTicketDispatch => True
  | _, _ => False

theorem Plan.next_isSome_iff {plan : Plan} {call : Call} :
    (plan.next call).isSome = true ↔ Asks plan.outcome call := by
  cases plan with
  | approval =>
      rcases call with _ | ⟨_ | _⟩ | _ <;> simp [Plan.next, Plan.outcome, Asks]
  | _ => cases call <;> simp [Plan.next, Plan.outcome, Asks]

/-- All ways in which a call moves a plan on. -/
theorem Plan.next_cases {plan next : Plan} {call : Call}
    (h : plan.next call = some next) :
    (∃ fieldKey value, plan = .ask fieldKey next ∧
      call = .submitAnswer fieldKey value) ∨
    (∃ resolution timeoutSeconds rejected,
      plan = .approval resolution timeoutSeconds next rejected ∧
      call = .resumeAfterApproval .approve) ∨
    (∃ resolution timeoutSeconds approved,
      plan = .approval resolution timeoutSeconds approved next ∧
      call = .resumeAfterApproval .reject) ∨
    plan = .ticket next ∧ call = .resumeAfterTicketDispatch := by
  cases plan with
  | ask fieldKey rest =>
      cases call with
      | submitAnswer actual value =>
          obtain ⟨rfl, rfl⟩ : actual = fieldKey ∧ rest = next := by
            simpa [Plan.next] using h
          exact .inl ⟨actual, value, rfl, rfl⟩
      | _ => cases h
  | approval resolution timeoutSeconds approved rejected =>
      cases call with
      | resumeAfterApproval decision =>
          cases decision with
          | approve =>
              obtain rfl := Option.some.inj h
              exact .inr (.inl ⟨resolution, timeoutSeconds, rejected, rfl, rfl⟩)
          | reject =>
              obtain rfl := Option.some.inj h
              exact .inr
                (.inr (.inl ⟨resolution, timeoutSeconds, approved, rfl, rfl⟩))
      | _ => cases h
  | ticket rest =>
      cases call with
      | resumeAfterTicketDispatch =>
          obtain rfl := Option.some.inj h
          exact .inr (.inr (.inr ⟨rfl, rfl⟩))
      | _ => cases h
  | finish => cases h

theorem OutcomeAt.unique {graph : WorkflowGraph} {stepId : String}
    {outcome outcome' : Outcome} (h : OutcomeAt graph stepId outcome)
    (h' : OutcomeAt graph stepId outcome') : outcome = outcome' := by
  obtain ⟨s, hs, hout⟩ := h
  obtain ⟨s', hs', hout'⟩ := h'
  obtain rfl := Option.some.inj (hs.symm.trans hs')
  exact Option.some.inj (hout.symm.trans hout')

section Realised

variable {graph : WorkflowGraph} {stepId : String} {plan : Plan}
  {answers : Answers}

theorem Realises.outcomeAt (h : Realises graph stepId plan) :
    OutcomeAt graph stepId plan.outcome := by
  cases plan with
  | ask =>
      obtain ⟨_, _, _, _, _, hs, _⟩ := h
      exact ⟨_, hs, rfl⟩
  | approval =>
      obtain ⟨_, _, _, hs, _⟩ := h
      exact ⟨_, hs, rfl⟩
  | ticket =>
      obtain ⟨_, _, hs, _⟩ := h
      exact ⟨_, hs, rfl⟩
  | finish =>
      obtain ⟨_, hs⟩ := h
      exact ⟨_, hs, rfl⟩

theorem Realises.autoAdvance (h : Realises graph stepId plan) :
    autoAdvance graph stepId answers = .ok (stepId, plan.outcome) :=
  autoAdvanceLoop_outcome h.outcomeAt 255

theorem Realises.start (h : Realises graph graph.entryStepId plan) :
    start graph = .ok (graph.entryStepId, plan.outcome) := by
  obtain ⟨s, hs, -⟩ := h.outcomeAt
  simp [Engine.start, hs, h.autoAdvance]

/-- The demanded call moves on to what is left of the plan. -/
theorem Realises.perform {next : Plan} {call : Call}
    (h : Realises graph stepId plan) (hnext : plan.next call = some next)
    (answers : Answers) :
    ∃ target,
      (call.perform graph stepId answers).2 = .ok (target, next.outcome) ∧
      Realises graph target next := by
  rcases Plan.next_cases hnext with ⟨fieldKey, value, rfl, rfl⟩ |
    ⟨_, _, _, rfl, rfl⟩ | ⟨_, _, _, rfl, rfl⟩ | ⟨rfl, rfl⟩
  · obtain ⟨_, _, _, _, target, hs, hrest⟩ := h
    exact ⟨target,
      by simp [Call.perform, submitAnswer, find, hs, hrest.autoAdvance], hrest⟩
  · obtain ⟨_, target, _, hs, hrest, -⟩ := h
    exact ⟨target,
      by simp [Call.perform, resumeAfterApproval, find, hs, bind, Except.bind,
      ApprovalDecision.pick, hrest.autoAdvance], hrest⟩
  · obtain ⟨_, _, target, hs, -, hrest⟩ := h
    exact ⟨target,
      by simp [Call.perform, resumeAfterApproval, find, hs, bind, Except.bind,
      ApprovalDecision.pick, hrest.autoAdvance], hrest⟩
  · obtain ⟨_, target, hs, hrest⟩ := h
    exact ⟨target,
      by simp [Call.perform, resumeAfterTicketDispatch, find, hs, bind,
      Except.bind, hrest.autoAdvance], hrest⟩

/-- Any other call is refused. -/
theorem Realises.refuse {call : Call} (h : Realises graph stepId plan)
    (hnext : plan.next call = none) (answers : Answers) :
    ∃ e, (call.perform graph stepId answers).2 = .error e ∧ e.Refusal := by
  have hasked : ¬Asks plan.outcome call := by
    rw [← Plan.next_isSome_iff, hnext]
    exact Bool.false_ne_true
  obtain ⟨s, hs, hout⟩ := h.outcomeAt
  by_cases hmade : call.MadeFor s.kind
  · cases call with
    | submitAnswer actual value =>
        cases hkind : s.kind with
        | question fieldKey inputType required options next =>
            simp only [hkind, outcomeOf, Option.some.injEq] at hout
            have hfield : actual ≠ fieldKey := by
              rintro rfl
              exact hasked (by simp [← hout, Asks])
            exact ⟨.unexpectedField stepId fieldKey actual,
              by
                simp [Call.perform, submitAnswer, find, hs, hkind,
                  hfield], trivial⟩
        | _ => simp [hkind, Call.MadeFor] at hmade
    | resumeAfterApproval decision =>
        cases hkind : s.kind with
        | waitForApproval =>
            simp only [hkind, outcomeOf, Option.some.injEq] at hout
            exact absurd (by simp [← hout, Asks]) hasked
        | _ => simp [hkind, Call.MadeFor] at hmade
    | resumeAfterTicketDispatch =>
        cases hkind : s.kind with
        | submitTicket =>
            simp only [hkind, outcomeOf, Option.some.injEq] at hout
            exact absurd (by simp [← hout, Asks]) hasked
        | _ => simp [hkind, Call.MadeFor] at hmade
  · obtain ⟨expected, found, herror⟩ := Call.barred hs hmade answers
    exact ⟨_, herror, trivial⟩

/-- Exactly the calls asked for go through. -/
theorem Realises.perform_ok_iff {call : Call} (h : Realises graph stepId plan) :
    (∃ result, (call.perform graph stepId answers).2 = .ok result) ↔
      Asks plan.outcome call := by
  rw [← Plan.next_isSome_iff]
  cases hnext : plan.next call with
  | none =>
      obtain ⟨e, herror, -⟩ := h.refuse hnext answers
      simp [herror]
  | some next =>
      obtain ⟨target, hok, -⟩ := h.perform hnext answers
      simp [hok]

end Realised

/-- A run with all its calls, whoever makes them and with whatever answers: the
successful ones are listed with the outcomes they were made at. -/
inductive Traced (graph : WorkflowGraph) :
    String → Outcome → List (Outcome × Call) → Prop
  | start {stepId : String} {outcome : Outcome}
      (hstart : start graph = .ok (stepId, outcome)) :
      Traced graph stepId outcome []
  | accepted {current stepId : String} {before outcome : Outcome}
      {history : List (Outcome × Call)}
      (hrun : Traced graph current before history) {answers : Answers}
      {call : Call}
      (hcall : (call.perform graph current answers).2 = .ok (stepId, outcome)) :
      Traced graph stepId outcome (history ++ [(before, call)])
  | refused {current : String} {outcome : Outcome}
      {history : List (Outcome × Call)}
      (hrun : Traced graph current outcome history) {answers : Answers}
      {call : Call} {e : EngineError}
      (hcall : (call.perform graph current answers).2 = .error e) :
      Traced graph current outcome history

/-- What is left of a plan once the calls of a history were made in turn. -/
def Plan.after (plan : Plan) (history : List (Outcome × Call)) : Option Plan :=
  history.foldlM (fun plan entry =>
    if plan.outcome = entry.1 then plan.next entry.2 else none) plan

theorem Plan.after_snoc {plan rest next : Plan}
    {history : List (Outcome × Call)} {call : Call}
    (h : plan.after history = some rest) (hnext : rest.next call = some next) :
    plan.after (history ++ [(rest.outcome, call)]) = some next := by
  unfold Plan.after at h ⊢
  simp [List.foldlM_append, h, hnext]

theorem Plan.after_cons {plan rest : Plan} {entry : Outcome × Call}
    {history : List (Outcome × Call)} :
    plan.after (entry :: history) = some rest ↔
      plan.outcome = entry.1 ∧
        ∃ next, plan.next entry.2 = some next ∧
          next.after history = some rest := by
  unfold Plan.after
  rw [List.foldlM_cons]
  by_cases h : plan.outcome = entry.1
  · rw [if_pos h]
    simp [h, Option.bind_eq_some_iff]
  · simp [h]

/-- A run keeps to the plan that its graph realises. -/
theorem Traced.keeps {graph : WorkflowGraph} {plan : Plan}
    (h : Realises graph graph.entryStepId plan) {current : String}
    {outcome : Outcome} {history : List (Outcome × Call)}
    (hrun : Traced graph current outcome history) :
    ∃ rest, plan.after history = some rest ∧ rest.outcome = outcome ∧
      Realises graph current rest := by
  induction hrun with
  | start hstart =>
      rw [h.start] at hstart
      obtain ⟨rfl, rfl⟩ := Prod.mk.inj (Except.ok.inj hstart)
      exact ⟨plan, rfl, rfl, h⟩
  | @accepted current _ _ _ _ _ answers call hcall ih =>
      obtain ⟨rest, hafter, rfl, hrest⟩ := ih
      cases hnext : rest.next call with
      | none =>
          obtain ⟨e, herror, -⟩ := hrest.refuse hnext answers
          cases herror.symm.trans hcall
      | some next =>
          obtain ⟨target, hok, htarget⟩ := hrest.perform hnext answers
          obtain ⟨rfl, rfl⟩ :=
            Prod.mk.inj (Except.ok.inj (hok.symm.trans hcall))
          exact ⟨next, Plan.after_snoc hafter hnext, rfl, htarget⟩
  | refused _ _ ih => exact ih

/-- The outcomes of a plan along approvals only. -/
def Plan.course : Plan → List Outcome
  | .ask fieldKey rest => .awaitingAnswer fieldKey :: rest.course
  | .approval resolution timeoutSeconds approved _ =>
      .awaitingApproval resolution timeoutSeconds :: approved.course
  | .ticket rest => .readyToSubmitTicket :: rest.course
  | .finish outcome => [.finished outcome]

/-- Every rejection ends the plan as rejected, and none comes after a ticket. -/
def Plan.Guarded : Plan → Prop
  | .ask _ rest => rest.Guarded
  | .approval _ _ approved rejected =>
      approved.Guarded ∧ rejected = .finish .rejected
  | .ticket rest => ∃ outcome, rest = .finish outcome
  | .finish _ => True

/-- Some approver of the history decided against. -/
def Rejected (history : List (Outcome × Call)) : Prop :=
  ∃ entry ∈ history, entry.2 = .resumeAfterApproval .reject

theorem Plan.course_eq_cons (plan : Plan) :
    ∃ rest, plan.course = plan.outcome :: rest := by
  cases plan <;> exact ⟨_, rfl⟩

/-- A call other than a rejection goes on along the course. -/
theorem Plan.course_next {plan next : Plan} {call : Call}
    (hnext : plan.next call = some next)
    (hcall : call ≠ .resumeAfterApproval .reject) :
    plan.course = plan.outcome :: next.course := by
  rcases Plan.next_cases hnext with ⟨_, _, rfl, rfl⟩ | ⟨_, _, _, rfl, rfl⟩ |
    ⟨_, _, _, rfl, rfl⟩ | ⟨rfl, rfl⟩
  · rfl
  · rfl
  · exact absurd rfl hcall
  · rfl

theorem Rejected.of_cons {entry : Outcome × Call}
    {history : List (Outcome × Call)} (h : Rejected (entry :: history))
    (hentry : entry.2 ≠ .resumeAfterApproval .reject) :
    Rejected history := by
  obtain ⟨other, hother, hreject⟩ := h
  rcases List.mem_cons.mp hother with rfl | hother
  · exact absurd hreject hentry
  · exact ⟨other, hother, hreject⟩

/-- Without a rejection a history is the part of the course behind it. -/
theorem Plan.course_after {plan rest : Plan} {history : List (Outcome × Call)}
    (h : plan.after history = some rest) (hall : ¬Rejected history) :
    plan.course = history.map Prod.fst ++ rest.course := by
  induction history generalizing plan with
  | nil =>
      obtain rfl := Option.some.inj h
      rfl
  | cons entry history ih =>
      obtain ⟨hout, next, hnext, hafter⟩ := Plan.after_cons.mp h
      have hcall : entry.2 ≠ .resumeAfterApproval .reject := by
        intro hreject
        exact hall ⟨entry, List.mem_cons_self, hreject⟩
      have hrest : ¬Rejected history := by
        rintro ⟨other, hother, hreject⟩
        exact hall ⟨other, List.mem_cons_of_mem _ hother, hreject⟩
      rw [Plan.course_next hnext hcall, ih hafter hrest, hout]
      rfl

theorem Plan.after_finish {outcome : EndOutcome} {rest : Plan}
    {history : List (Outcome × Call)}
    (h : (Plan.finish outcome).after history = some rest) :
    history = [] ∧ rest = .finish outcome := by
  cases history with
  | nil => exact ⟨rfl, (Option.some.inj h).symm⟩
  | cons entry history =>
      obtain ⟨-, next, hnext, -⟩ := Plan.after_cons.mp h
      cases hnext

/-- A rejection ends a guarded plan as rejected, before any ticket. -/
theorem Plan.Guarded.after_rejection {plan rest : Plan}
    {history : List (Outcome × Call)} (hguarded : plan.Guarded)
    (h : plan.after history = some rest) (hrejected : Rejected history) :
    rest = .finish .rejected ∧ .readyToSubmitTicket ∉ history.map Prod.fst ∧
      history.map Prod.fst <+: plan.course := by
  induction history generalizing plan with
  | nil =>
      obtain ⟨_, hentry, -⟩ := hrejected
      cases hentry
  | cons entry history ih =>
      obtain ⟨before, call⟩ := entry
      obtain ⟨hout, next, hnext, hafter⟩ := Plan.after_cons.mp h
      simp only at hout hnext
      subst hout
      rcases Plan.next_cases hnext with ⟨fieldKey, value, rfl, rfl⟩ |
        ⟨resolution, timeoutSeconds, _, rfl, rfl⟩ |
        ⟨resolution, timeoutSeconds, approved, rfl, rfl⟩ | ⟨rfl, rfl⟩
      · obtain ⟨hrest, hticket, hbegins⟩ :=
          @ih next hguarded hafter (hrejected.of_cons (by simp))
        refine ⟨hrest, ?_, ?_⟩
        · simpa [Plan.outcome] using hticket
        · exact (List.prefix_cons_inj _).mpr hbegins
      · obtain ⟨hrest, hticket, hbegins⟩ :=
          ih hguarded.1 hafter (hrejected.of_cons (by simp))
        refine ⟨hrest, ?_, ?_⟩
        · simpa [Plan.outcome] using hticket
        · exact (List.prefix_cons_inj _).mpr hbegins
      · obtain ⟨-, rfl⟩ := hguarded
        obtain ⟨rfl, rfl⟩ := Plan.after_finish hafter
        refine ⟨rfl, by simp [Plan.outcome], ?_⟩
        exact (List.prefix_cons_inj _).mpr List.nil_prefix
      · obtain ⟨outcome, rfl⟩ := hguarded
        obtain ⟨rfl, rfl⟩ := Plan.after_finish hafter
        obtain ⟨_, hentry, -⟩ := hrejected.of_cons (by simp)
        cases hentry

end Servcat.Engine
