/-
The orchestrator refines the pure engine: what is stored about an instance is
what folding the engine over the accepted inputs yields in memory.
-/
import Servcat.Sample
import Servcat.Serial.Consistency

namespace Servcat

open Atomic Keyed

namespace Engine

/-- What a driver of the engine keeps between two calls. -/
structure State where
  stepId : String
  answers : Answers
  outcome : Outcome
deriving DecidableEq, Repr

inductive Stimulus where
  | answer (fieldKey : String) (value : JsonValue)
  | decision (decision : ApprovalDecision)
deriving DecidableEq, Repr

/-- Resumes at once after each ticket step.  `none` when an engine call fails,
or when the fuel is used up. -/
def settle (graph : WorkflowGraph) (answers : Answers) :
    Nat → Except EngineError (String × Outcome) → Option State
  | 0, _ => none
  | _ + 1, .error _ => none
  | fuel + 1, .ok (stepId, .readyToSubmitTicket) =>
      settle graph answers fuel (resumeAfterTicketDispatch graph stepId answers)
  | _ + 1, .ok (stepId, outcome) => some ⟨stepId, answers, outcome⟩

def feed (graph : WorkflowGraph) (fuel : Nat) (state : State) :
    Stimulus → Option State
  | .answer fieldKey value =>
      let (answers, result) :=
        submitAnswer graph state.stepId state.answers fieldKey value
      settle graph answers fuel result
  | .decision decision =>
      settle graph state.answers fuel
        (resumeAfterApproval graph state.stepId state.answers decision)

/-- The engine folded over inputs, from the start of an instance. -/
def replay (graph : WorkflowGraph) (fuel : Nat) (inputs : List Stimulus) :
    Option State :=
  (settle graph [] fuel (start graph)).bind fun state =>
    inputs.foldlM (feed graph fuel) state

/-- The status of an instance at an outcome the engine stops at. -/
def statusAt : Outcome → Option InstanceStatus
  | .awaitingAnswer _ => some .inProgress
  | .awaitingApproval .. => some .awaitingApproval
  | .readyToSubmitTicket => none
  | .finished outcome => some (Orchestrator.endStatus outcome)

/-- The value last given for a key. -/
def lastAnswer (inputs : List Stimulus) (key : String) : Option JsonValue :=
  inputs.reverse.findSome? fun
    | .answer fieldKey value => if key = fieldKey then some value else none
    | .decision _ => none

variable {graph : WorkflowGraph} {answers : Answers} {fuel fuel' : Nat}
  {result : Except EngineError (String × Outcome)} {state state' : State}
  {inputs : List Stimulus}

theorem settle_mono (hle : fuel ≤ fuel')
    (h : settle graph answers fuel result = some state) :
    settle graph answers fuel' result = some state := by
  induction fuel generalizing fuel' result with
  | zero => cases h
  | succ fuel ih =>
      obtain ⟨fuel', rfl⟩ := Nat.exists_eq_add_of_le' (Nat.one_le_of_lt hle)
      rcases result with e | ⟨stepId, _ | _ | _ | _⟩
      · cases h
      · exact h
      · exact h
      · rw [settle] at h ⊢
        exact ih (Nat.le_of_succ_le_succ hle) h
      · exact h

theorem settle_answers (h : settle graph answers fuel result = some state) :
    state.answers = answers := by
  induction fuel generalizing result with
  | zero => cases h
  | succ fuel ih =>
      rcases result with e | ⟨stepId, _ | _ | _ | _⟩
      · cases h
      · cases h
        rfl
      · cases h
        rfl
      · exact ih h
      · cases h
        rfl

theorem feed_mono (hle : fuel ≤ fuel') {input : Stimulus}
    (h : feed graph fuel state input = some state') :
    feed graph fuel' state input = some state' := by
  cases input <;> exact settle_mono hle h

theorem replay_mono (hle : fuel ≤ fuel')
    (h : replay graph fuel inputs = some state) :
    replay graph fuel' inputs = some state := by
  obtain ⟨first, hfirst, hrest⟩ := Option.bind_eq_some_iff.mp h
  refine Option.bind_eq_some_iff.mpr ⟨first, settle_mono hle hfirst, ?_⟩
  clear h hfirst
  induction inputs generalizing first with
  | nil => exact hrest
  | cons input rest ih =>
      rw [List.foldlM_cons] at hrest ⊢
      obtain ⟨next, hnext, hrest⟩ := Option.bind_eq_some_iff.mp hrest
      exact Option.bind_eq_some_iff.mpr
        ⟨next, feed_mono hle hnext, ih next hrest⟩

theorem replay_concat {input : Stimulus}
    (h : replay graph fuel inputs = some state)
    (hfeed : feed graph fuel' state input = some state') :
    replay graph (max fuel fuel') (inputs ++ [input]) = some state' := by
  have hprefix := replay_mono (Nat.le_max_left fuel fuel') h
  obtain ⟨first, hfirst, hrest⟩ := Option.bind_eq_some_iff.mp hprefix
  refine Option.bind_eq_some_iff.mpr ⟨first, hfirst, ?_⟩
  rw [List.foldlM_append, hrest]
  simpa using feed_mono (Nat.le_max_right fuel fuel') hfeed

theorem lastAnswer_concat (inputs : List Stimulus) (input : Stimulus)
    (key : String) :
    lastAnswer (inputs ++ [input]) key = match input with
      | .answer fieldKey value =>
          if key = fieldKey then some value else lastAnswer inputs key
      | .decision _ => lastAnswer inputs key := by
  cases input with
  | answer fieldKey value =>
      by_cases h : key = fieldKey <;> simp [lastAnswer, h]
  | decision decision => simp [lastAnswer]

end Engine

/-- The row of an instance is what the engine yields for these inputs. -/
structure Reflects (graph : WorkflowGraph) (inputs : List Engine.Stimulus)
    (row : WorkflowInstance) (fuel : Nat) (state : Engine.State) : Prop where
  replayed : Engine.replay graph fuel inputs = some state
  stepId : row.currentStepId = state.stepId
  answers : row.answersJson = .object state.answers
  status : Engine.statusAt state.outcome = some row.status
  last : ∀ key, state.answers.get? key = Engine.lastAnswer inputs key

variable {deps : Deps} {definition : WorkflowDefinition}
  {instanceId requesterUserId : Uuid} {answers : Answers}
  {result : Except EngineError (String × Outcome)} {c c' : Core}

/-- A drive that succeeds stores the state in which the engine settles. -/
theorem Driven.settles {x : Exit ApiError WorkflowInstance}
    {row : WorkflowInstance}
    (h : Driven deps definition instanceId requesterUserId answers
      result c x c')
    (hx : x = .ok row) :
    ∃ fuel state status now,
      Engine.settle definition.graph answers fuel result = some state ∧
      Engine.statusAt state.outcome = some status ∧
      (c'.view instanceId).row = (c.view instanceId).row.map
        (Db.progressed state.stepId (.object answers) status now) ∧
      (c'.view instanceId).row = some row := by
  induction h with
  | stuck | refused | panicked | failed => cases hx
  | @settled stepId outcome c status _ hstatus hrow =>
      cases hx
      refine ⟨1, ⟨stepId, answers, outcome⟩, status, c.now, ?_, ?_, ?_, hrow⟩
      · cases outcome <;> first | rfl | cases hstatus
      · cases outcome <;> first | exact hstatus | cases hstatus
      · rw [Core.view_save]
  | @opened stepId resolution timeoutSeconds c _ _ _ _ _ hterms hinsert hrow =>
      cases hx
      refine ⟨1, ⟨stepId, answers, .awaitingApproval resolution timeoutSeconds⟩,
        .awaitingApproval, c.now, rfl, rfl, ?_, hrow⟩
      rw [Core.view_save, Core.view_opened instanceId hinsert rfl]
      rfl
  | @advanced stepId c c' c'' x hdispatch hrest ih =>
      obtain ⟨fuel, state, status, now, hsettle, hstatus, hsaved, hrow⟩ := ih hx
      refine ⟨fuel + 1, state, status, now, hsettle, hstatus, ?_, hrow⟩
      rw [hsaved]
      cases hdispatch
      rfl

/-- The operations on one instance all succeeded; `inputs` are what they fed to
the engine.  In between, anything may happen to other instances. -/
inductive History (deps : Deps) (instanceId : Uuid) :
    List Engine.Stimulus → World → Prop
  | started {w₀ w w' : World} {catalogItemId : Uuid} {requester : User}
      {row : WorkflowInstance} (h₀ : w₀.Initial)
      (hrun : Serial deps anyOperation w₀ w)
      (hop : (Operation.start catalogItemId requester).Completes deps w
        (.ok (some row)) w') (hid : row.id = instanceId) :
      History deps instanceId [] w'
  | drifted {inputs : List Engine.Stimulus} {w w' : World}
      (h : History deps instanceId inputs w) (hdrift : w.Drift w') :
      History deps instanceId inputs w'
  | elsewhere {inputs : List Engine.Stimulus} {w w' : World} {op : Operation}
      {x : Exit ApiError (Option WorkflowInstance)}
      (h : History deps instanceId inputs w) (hop : op.Completes deps w x w')
      (hid : op.instanceId? w.db ≠ some instanceId) :
      History deps instanceId inputs w'
  | submitted {inputs : List Engine.Stimulus} {w w' : World} {requester : User}
      {fieldKey : String} {value : JsonValue} {row : Option WorkflowInstance}
      (h : History deps instanceId inputs w)
      (hop : (Operation.submit instanceId requester fieldKey
        value).Completes deps w (.ok row) w') :
      History deps instanceId (inputs ++ [.answer fieldKey value]) w'
  | decided {inputs : List Engine.Stimulus} {w w' : World}
      {approvalId userId : Uuid} {decision : ApprovalDecision}
      {comment : Option String} {row : Option WorkflowInstance}
      (h : History deps instanceId inputs w)
      (hid : (Operation.decide approvalId userId decision
        comment).instanceId? w.db =
        some instanceId)
      (hop : (Operation.decide approvalId userId decision
        comment).Completes deps w (.ok row) w') :
      History deps instanceId (inputs ++ [.decision decision]) w'
  | expired {inputs : List Engine.Stimulus} {w w' : World}
      {approval : PendingApproval} (h : History deps instanceId inputs w)
      (hid : approval.workflowInstanceId = instanceId)
      (hop : (Operation.expire approval).Completes deps w (.ok none) w')
      (hresumed : w'.core.expiryFailures = w.core.expiryFailures) :
      History deps instanceId (inputs ++ [.decision .reject]) w'

/-- The row of the instance and the inputs agree, in a state all of whose
records agree. -/
structure Mirrors (instanceId : Uuid) (inputs : List Engine.Stimulus)
    (c : Core) : Prop where
  consistent : c.Consistent
  reflects : ∃ row graph fuel state, (c.view instanceId).row = some row ∧
    c.db.graphOf row.workflowDefinitionId = some graph ∧
    Reflects graph inputs row fuel state

/-- Feeding one more input: what the operation drives is what the
engine is fed. -/
theorem Driven.reflects {inputs : List Engine.Stimulus}
    {row row' : WorkflowInstance} {fuel : Nat} {state : Engine.State}
    {input : Engine.Stimulus} {x : Exit ApiError WorkflowInstance}
    (hdriven : Driven deps definition instanceId requesterUserId answers
      result c x c')
    (hx : x = .ok row')
    (hreflects : Reflects definition.graph inputs row fuel state)
    (hrow : (c.view instanceId).row = some row)
    (hgraph : c.db.graphOf row.workflowDefinitionId = some definition.graph)
    (hfeed : ∀ fuel, Engine.feed definition.graph fuel state input =
      Engine.settle definition.graph answers fuel result)
    (hlast : ∀ key,
      answers.get? key = Engine.lastAnswer (inputs ++ [input]) key) :
    ∃ row graph fuel state, (c'.view instanceId).row = some row ∧
      c'.db.graphOf row.workflowDefinitionId = some graph ∧
      Reflects graph (inputs ++ [input]) row fuel state := by
  obtain ⟨fuel', state', status, now, hsettle, hstatus, hsaved, -⟩ :=
    hdriven.settles hx
  rw [hrow, Option.map_some] at hsaved
  have hanswers := Engine.settle_answers hsettle
  refine ⟨_, definition.graph, max fuel fuel', state', hsaved, ?_, ?_⟩
  · rw [hdriven.touches.graphOf]
    exact hgraph
  · exact
      { replayed := Engine.replay_concat hreflects.replayed
          ((hfeed fuel').trans hsettle)
        stepId := rfl
        answers := by rw [hanswers]; rfl
        status := hstatus
        last := fun key => by rw [hanswers]; exact hlast key }

theorem Mirrors.elsewhere {inputs : List Engine.Stimulus}
    (h : Mirrors instanceId inputs c) (hc' : c'.Consistent)
    (hrow : (c'.view instanceId).row = (c.view instanceId).row)
    (hgraph : ∀ id graph, c.db.graphOf id = some graph →
      c'.db.graphOf id = some graph) :
    Mirrors instanceId inputs c' := by
  obtain ⟨row, graph, fuel, state, hstored, hfound, hreflects⟩ := h.reflects
  exact ⟨hc', row, graph, fuel, state, hrow.trans hstored, hgraph _ _ hfound,
    hreflects⟩

/-- Resuming after a decision feeds the decision to the engine. -/
theorem Mirrors.resumed {inputs : List Engine.Stimulus}
    (h : Mirrors instanceId inputs c) {approval : PendingApproval}
    {status : ApprovalStatus} {comment : Option String}
    {decision : ApprovalDecision} {row : WorkflowInstance}
    (hmem : approval ∈ c.db.approvals.rows)
    (hpending : approval.status = .pending)
    (hid : approval.workflowInstanceId = instanceId)
    (hresumed : Resumed deps approval.workflowInstanceId
      approval.stepId decision
      (c.flipped approval.id status comment) (.ok row) c') :
    ∃ row graph fuel state, (c'.view instanceId).row = some row ∧
      c'.db.graphOf row.workflowDefinitionId = some graph ∧
      Reflects graph (inputs ++ [.decision decision]) row fuel state := by
  subst hid
  obtain ⟨stored, graph, fuel, state, hstored, hgraph, hreflects⟩ := h.reflects
  have hview : approval ∈ (c.view approval.workflowInstanceId).approvals :=
    List.mem_filter.mpr ⟨hmem, by simp⟩
  obtain ⟨graph', hgraph', hagrees⟩ := (h.consistent _).of_row hstored
  obtain ⟨-, hstep, -⟩ := hagrees.pending approval hview hpending
  cases hresumed with
  | @driven stored' definition _ _ hrow hdefinition hdriven =>
      replace hrow : (c.view approval.workflowInstanceId).row =
        some stored' := hrow
      rw [hstored, Option.some.injEq] at hrow
      subst hrow
      replace hdefinition : c.db.definitions.find? stored.workflowDefinitionId =
        some definition := hdefinition
      have hsame : graph = definition.graph := by
        rw [Db.graphOf_of_find? hdefinition, Option.some.injEq] at hgraph
        exact hgraph.symm
      subst hsame
      refine hdriven.reflects rfl hreflects hstored hgraph (fun fuel => ?_)
        fun key => ?_
      · simp only [Engine.feed]
        rw [← hreflects.stepId, ← hstep, hreflects.answers]
        rfl
      · rw [Engine.lastAnswer_concat, ← hreflects.last, hreflects.answers]
        rfl

theorem exit_map_ok {α β ε : Type} {f : α → β} {y : Exit ε α} {b : β}
    (h : .ok b = y.map f) : ∃ a, y = .ok a ∧ b = f a := by
  cases y <;> cases h
  exact ⟨_, rfl, rfl⟩

theorem Mirrors.started {catalogItemId : Uuid} {requester : User}
    {row : WorkflowInstance} (hc' : c'.Consistent)
    (h : Performed deps (.start catalogItemId requester) c
      (.ok (some row)) c') :
    Mirrors row.id [] c' := by
  generalize hx : Exit.ok (some row) = x at h
  cases h with
  | declined => cases hx
  | @started _ _ item definition stepId outcome instanceId instances _ _ y hitem
      hdefinition hstart hinsert hdriven =>
      obtain ⟨row', rfl, hrow'⟩ := exit_map_ok hx
      cases hrow'
      obtain ⟨fuel, state, status, now, hsettle, hstatus, hsaved, hstored⟩ :=
        hdriven.settles rfl
      have hcreated := congrArg View.row (Core.view_created hinsert)
      rw [show ((c.created instances).view instanceId).row = _ from hcreated,
        Option.map_some] at hsaved
      rw [hsaved, Option.some.injEq] at hstored
      have hid : row.id = instanceId := by rw [← hstored]; rfl
      have hanswers := Engine.settle_answers hsettle
      refine ⟨hc', row, definition.graph, fuel, state, ?_, ?_, ?_⟩
      · rw [hid, hsaved, hstored]
      · rw [hdriven.touches.graphOf, ← hstored]
        change c.db.graphOf definition.id = some definition.graph
        rw [Table.key_of_find? hdefinition]
        exact Db.graphOf_of_find? hdefinition
      · rw [← hstored]
        exact
          { replayed := by simp [Engine.replay, hstart, hsettle]
            stepId := rfl
            answers := by rw [hanswers]; rfl
            status := hstatus
            last := fun key => by rw [hanswers]; rfl }

theorem Driven.result_ok {x : Exit ApiError WorkflowInstance}
    {row : WorkflowInstance}
    (h : Driven deps definition instanceId requesterUserId answers
      result c x c')
    (hx : x = .ok row) : ∃ r, result = .ok r := by
  cases h with
  | stuck => cases hx
  | _ => exact ⟨_, rfl⟩

theorem Mirrors.submitted {inputs : List Engine.Stimulus} {requester : User}
    {fieldKey : String} {value : JsonValue} {row : Option WorkflowInstance}
    (hmirrors : Mirrors instanceId inputs c) (hc' : c'.Consistent)
    (h : Performed deps (.submit instanceId requester fieldKey value) c
      (.ok row) c') :
    Mirrors instanceId (inputs ++ [.answer fieldKey value]) c' := by
  generalize hx : Exit.ok row = x at h
  obtain ⟨stored, graph, fuel, state, hstored, hgraph, hreflects⟩ :=
    hmirrors.reflects
  cases h with
  | declined => cases hx
  | @submitted _ _ _ _ stored' definition answers _ _ _ _ hrow
      hrequester hstatus hdefinition hengine hdriven =>
      obtain ⟨row', rfl, -⟩ := exit_map_ok hx
      replace hrow : (c.view instanceId).row = some stored' := hrow
      rw [hstored, Option.some.injEq] at hrow
      subst hrow
      have hsame : graph = definition.graph := by
        rw [Db.graphOf_of_find? hdefinition, Option.some.injEq] at hgraph
        exact hgraph.symm
      subst hsame
      have hanswers : Orchestrator.answersMap stored.answersJson =
          state.answers := by
        rw [hreflects.answers]
        rfl
      obtain ⟨r, rfl⟩ := hdriven.result_ok rfl
      rw [hanswers] at hengine
      refine ⟨hc', hdriven.reflects rfl hreflects hstored hgraph
        (fun fuel => ?_) fun key => ?_⟩
      · rw [Engine.feed, ← hreflects.stepId, hengine]
      · rw [(Engine.submitAnswer_ok hengine).1, JsonMap.get?_insert,
          Engine.lastAnswer_concat, ← hreflects.last]

theorem Mirrors.decided {inputs : List Engine.Stimulus}
    {approvalId userId : Uuid} {decision : ApprovalDecision}
    {comment : Option String} {row : Option WorkflowInstance}
    (hmirrors : Mirrors instanceId inputs c) (hc' : c'.Consistent)
    (hid : (Operation.decide approvalId userId decision
      comment).instanceId? c.db =
      some instanceId)
    (h : Performed deps (.decide approvalId userId decision comment) c
      (.ok row) c') :
    Mirrors instanceId (inputs ++ [.decision decision]) c' := by
  generalize hx : Exit.ok row = x at h
  cases h with
  | declined => cases hx
  | decided happroval huser hpending hresumed =>
      obtain ⟨row', rfl, -⟩ := exit_map_ok hx
      obtain rfl := Table.key_of_find? happroval
      refine ⟨hc', hmirrors.resumed (Table.mem_of_find? happroval) hpending
        ?_ hresumed⟩
      simpa [Operation.instanceId?, happroval] using hid

theorem Mirrors.expired {inputs : List Engine.Stimulus}
    {approval : PendingApproval}
    (hmirrors : Mirrors approval.workflowInstanceId inputs c)
    (hc' : c'.Consistent) (hmem : approval ∈ c.db.approvals.rows)
    (hpending : approval.status = .pending)
    (h : Performed deps (.expire approval) c (.ok none) c')
    (hresumed : c'.expiryFailures = c.expiryFailures) :
    Mirrors approval.workflowInstanceId (inputs ++ [.decision .reject]) c' := by
  generalize hx : (Exit.ok none : Exit ApiError
    (Option WorkflowInstance)) = x at h
  cases h with
  | declined | expiryPanicked => cases hx
  | skipped hdeclined =>
      exact absurd (Db.isPending_iff.mpr
        ⟨approval, Table.find?_of_mem hmem, hpending⟩) hdeclined
  | expired hpending' hresumed' =>
      exact ⟨hc', hmirrors.resumed hmem hpending rfl hresumed'⟩
  | expiryFailed hpending' hresumed' =>
      simp [Core.logged, hresumed'.expiryFailures, Core.flipped] at hresumed

/-- A question, then an approval, then a ticket. -/
def Sample.opened : Exit ApiError (Option WorkflowInstance) × World :=
  (Sample.perform (.start Sample.item.id Sample.requester) 100
    (Sample.world Sample.questionThenApproval)).get (by decide)

def Sample.submitted : Exit ApiError (Option WorkflowInstance) × World :=
  (Sample.perform (.submit (Sample.id 102) Sample.requester "reason"
    (.string "broken")) 200 Sample.opened.2).get (by decide)

def Sample.approved : Exit ApiError (Option WorkflowInstance) × World :=
  (Sample.perform (.decide (Sample.id 203) Sample.approver.id .approve none) 300
    Sample.submitted.2).get (by decide)

end Servcat
