/-
Requests in progress.  An instance is created in progress at its first step
before anything is done about that step, so that a start that derails leaves
behind an instance nobody can advance.
-/
import Servcat.Serial.Stranding

namespace Servcat

open Atomic Keyed

namespace WorkflowGraph

/-- The id of a `question` step. -/
def IsQuestion (graph : WorkflowGraph) (stepId : String) : Prop :=
  ∃ s fieldKey inputType required options next, graph.step stepId = some s ∧
    s.kind = .question fieldKey inputType required options next

end WorkflowGraph

theorem Engine.OutcomeAt.isQuestion {graph : WorkflowGraph}
    {stepId fieldKey : String}
    (h : OutcomeAt graph stepId (.awaitingAnswer fieldKey)) :
    graph.IsQuestion stepId := by
  obtain ⟨⟨id, label, kind⟩, hs, hkind⟩ := h
  cases kind <;> cases hkind
  exact ⟨_, _, _, _, _, _, hs, rfl⟩

/-- An instance in progress is at a question of its graph. -/
def View.Answerable (v : View) (graphOf : Uuid → Option WorkflowGraph) : Prop :=
  ∀ row, v.row = some row → row.status = .inProgress →
    ∃ graph, graphOf row.workflowDefinitionId = some graph ∧
      graph.IsQuestion row.currentStepId

theorem View.Answerable.mono {v : View}
    {graphOf graphOf' : Uuid → Option WorkflowGraph} (h : v.Answerable graphOf)
    (hgraph : ∀ id graph, graphOf id = some graph → graphOf' id = some graph) :
    v.Answerable graphOf' := by
  intro row hrow hstatus
  obtain ⟨graph, hfound, hquestion⟩ := h row hrow hstatus
  exact ⟨graph, hgraph _ _ hfound, hquestion⟩

section Drives

variable {deps : Deps} {definition : WorkflowDefinition}
  {instanceId requesterUserId : Uuid} {answers : Answers}
  {result : Except EngineError (String × Outcome)} {c c' : Core}

/-- A drive that saves an instance in progress saves it at a question; one that
saves nothing derails. -/
theorem Driven.question_or_derails {x : Exit ApiError WorkflowInstance}
    (h : Driven deps definition instanceId requesterUserId answers
      result c x c')
    (hresult : ∀ stepId outcome, result = .ok (stepId, outcome) →
      Engine.OutcomeAt definition.graph stepId outcome) :
    (∃ stepId status now,
      (c'.view instanceId).row = (c.view instanceId).row.map
        (Db.progressed stepId (.object answers) status now) ∧
      (status = .inProgress → definition.graph.IsQuestion stepId)) ∨
    (c'.view instanceId).row = (c.view instanceId).row ∧
      DerailsOn Unopened deps definition instanceId requesterUserId answers c
        c.dispatches.length result := by
  induction h with
  | stuck => exact .inr ⟨rfl, .engine⟩
  | @settled stepId outcome c status row hstatus =>
      refine .inl ⟨stepId, status, c.now, by rw [Core.view_save], ?_⟩
      rintro rfl
      cases outcome with
      | awaitingAnswer fieldKey => exact (hresult stepId _ rfl).isQuestion
      | finished outcome => cases outcome <;> cases hstatus
      | _ => cases hstatus
  | refused hterms =>
      refine .inr ⟨rfl, .approval ?_⟩
      rw [hterms]
      simp [Unopened]
  | panicked hterms =>
      refine .inr ⟨rfl, .approval ?_⟩
      rw [hterms]
      simp [Unopened]
  | @opened stepId _ _ c _ _ _ _ _ hterms hinsert =>
      refine .inl ⟨stepId, .awaitingApproval, c.now, ?_, by simp⟩
      rw [Core.view_save, Core.view_opened instanceId hinsert rfl]
      rfl
  | @failed stepId err c c' hdispatch =>
      refine .inl ⟨stepId, .failed, c'.now, ?_, by simp⟩
      rw [Core.view_save, hdispatch.aside.1]
  | @advanced stepId _ _ _ _ hdispatch hrest ih =>
      obtain ⟨haccepts, hrow, ⟨d, -, -, hdispatches⟩, hderails⟩ :=
        hdispatch.accepted
      have hnext : ∀ nextStepId outcome,
          Engine.resumeAfterTicketDispatch definition.graph stepId answers =
            .ok (nextStepId, outcome) →
          Engine.OutcomeAt definition.graph nextStepId outcome := by
        intro nextStepId outcome hok
        obtain ⟨s, next, -, -, -, hat⟩ :=
          Engine.resumeAfterTicketDispatch_ok hok
        exact hat
      rcases ih hnext with
        ⟨stepId, status, now, hsaved, hquestion⟩ | ⟨hsame, hon⟩
      · exact .inl ⟨stepId, status, now, by rw [hsaved, hrow], hquestion⟩
      · rw [hderails, hdispatches] at hon
        exact .inr ⟨hsame.trans hrow, .ticket haccepts hon⟩

theorem View.answerable_of_saved {v v' : View}
    {graphOf : Uuid → Option WorkflowGraph} {graph : WorkflowGraph}
    {stepId : String} {status : InstanceStatus} {now : Timestamp}
    (hrow : v'.row = v.row.map
      (Db.progressed stepId (.object answers) status now))
    (hquestion : status = .inProgress → graph.IsQuestion stepId)
    (hgraph : ∀ row,
      v.row = some row → graphOf row.workflowDefinitionId = some graph) :
    v'.Answerable graphOf := by
  intro row' hrow' hstatus
  rw [hrow, Option.map_eq_some_iff] at hrow'
  obtain ⟨row, hfound, rfl⟩ := hrow'
  exact ⟨graph, hgraph row hfound, hquestion hstatus⟩

end Drives

section Operations

variable {deps : Deps} {op : Operation} {d : Drive} {c c' : Core}
  {x : Exit ApiError (Option WorkflowInstance)}

/-- No start of a request derails, whichever identifier its row gets. -/
def Operation.Starts (deps : Deps) (c : Core) : Operation → Prop
  | .start catalogItemId requester =>
      ∀ item definition result instanceId instances,
      c.db.items.find? catalogItemId = some item →
      c.db.definitions.find? item.workflowDefinitionId = some definition →
      Engine.start definition.graph = .ok result →
      c.db.instances.insert?
        (newInstance instanceId definition.id item.id requester.id result.1) =
          some instances →
      ¬DerailsOn Unopened deps definition instanceId requester.id []
        (c.created instances) c.dispatches.length (.ok result)
  | _ => True

theorem resumption_drives {approval : PendingApproval}
    {decision : ApprovalDecision}
    (hd : resumption c approval decision = some d) :
    (∃ row, (c.view d.instanceId).row = some row ∧
      c.db.graphOf row.workflowDefinitionId = some d.definition.graph) ∧
    ∀ stepId outcome, d.result = .ok (stepId, outcome) →
      Engine.OutcomeAt d.definition.graph stepId outcome := by
  obtain ⟨row, hrow, hd⟩ := Option.bind_eq_some_iff.mp hd
  obtain ⟨definition, hdefinition, hd⟩ := Option.bind_eq_some_iff.mp hd
  cases hd
  refine ⟨⟨row, hrow, Db.graphOf_of_find? hdefinition⟩, ?_⟩
  intro stepId outcome hok
  obtain ⟨s, resolution, onApprove, onReject, timeoutSeconds, -, -, -, hat⟩ :=
    Engine.resumeAfterApproval_ok hok
  exact hat

/-- What an operation drives is a stored row by an answer of the engine for its
graph. -/
theorem Operation.drives (hd : op.drive? c = some d) :
    (∃ row, (c.view d.instanceId).row = some row ∧
      c.db.graphOf row.workflowDefinitionId = some d.definition.graph) ∧
    ∀ stepId outcome, d.result = .ok (stepId, outcome) →
      Engine.OutcomeAt d.definition.graph stepId outcome := by
  cases op with
  | start => cases hd
  | submit instanceId requester fieldKey value =>
      obtain ⟨row, hrow, hd⟩ := Option.bind_eq_some_iff.mp hd
      obtain ⟨definition, hdefinition, hd⟩ := Option.bind_eq_some_iff.mp hd
      split at hd
      · cases hd
        refine ⟨⟨row, hrow, Db.graphOf_of_find? hdefinition⟩, ?_⟩
        intro stepId outcome hok
        obtain ⟨-, s, inputType, required, options, next, -, -, -, hat⟩ :=
          Engine.submitAnswer_ok (Prod.ext rfl hok)
        exact hat
      · cases hd
  | decide approvalId userId decision comment =>
      obtain ⟨approval, happroval, hd⟩ := Option.bind_eq_some_iff.mp hd
      split at hd
      · exact resumption_drives hd
      · cases hd
  | expire approval =>
      simp only [drive?] at hd
      split at hd
      · exact resumption_drives hd
      · cases hd

theorem Performed.graphOf (h : Performed deps op c x c') (hc : c.Consistent)
    (hop : op.Listed c) : c'.db.graphOf = c.db.graphOf := by
  rcases h.local hc hop with rfl | ⟨id, hlocal, -⟩
  · rfl
  · exact hlocal.touches.graphOf

theorem Performed.answerable (h : Performed deps op c x c') (hc : c.Consistent)
    (hop : op.Listed c) (hguard : op.Starts deps c)
    (hanswerable : ∀ id, (c.view id).Answerable c.db.graphOf) (id : Uuid) :
    (c'.view id).Answerable c'.db.graphOf := by
  rw [h.graphOf hc hop]
  rcases h.start_or_drive hc hop with
    rfl | ⟨catalogItemId, requester, rfl⟩ | ⟨d, hd⟩
  · exact hanswerable id
  · cases h with
    | declined => exact hanswerable id
    | @started _ _ item definition stepId outcome instanceId instances
        _ _ _ hitem hdefinition hstart hinsert hdriven =>
        by_cases hid : id = instanceId
        · subst hid
          have hat : ∀ stepId' outcome', (.ok (stepId, outcome) :
              Except EngineError _) = .ok (stepId', outcome') →
              Engine.OutcomeAt definition.graph stepId' outcome' := by
            intro stepId' outcome' hok
            exact (Engine.start_ok (hstart.trans hok)).2
          rcases hdriven.question_or_derails hat with
            ⟨stepId', status, now, hrow, hquestion⟩ | ⟨-, hderails⟩
          · refine View.answerable_of_saved hrow hquestion ?_
            intro row hrow
            obtain rfl :=
              Option.some.inj ((Table.find?_inserted hinsert).symm.trans hrow)
            change c.db.graphOf definition.id = some definition.graph
            rw [Table.key_of_find? hdefinition]
            exact Db.graphOf_of_find? hdefinition
          · exact absurd hderails
              (hguard _ _ _ _ _ hitem hdefinition hstart hinsert)
        · rw [hdriven.touches.others id hid,
            (Core.touches_created hinsert).others id hid]
          exact hanswerable id
  · obtain ⟨before, after, y, hwithin⟩ := h.drive hop hd
    by_cases hid : id = d.instanceId
    · subst hid
      obtain ⟨⟨row, hrow, hgraph⟩, hat⟩ := Operation.drives hd
      rw [hwithin.view]
      rcases hwithin.driven.question_or_derails hat with
        ⟨stepId, status, now, hsaved, hquestion⟩ | ⟨hsame, -⟩
      · refine View.answerable_of_saved hsaved hquestion ?_
        intro row' hrow'
        rw [hwithin.row, hrow, Option.some.injEq] at hrow'
        rw [← hrow']
        exact hgraph
      · intro row' hrow'
        rw [hsame, hwithin.row] at hrow'
        exact hanswerable d.instanceId row' hrow'
    · rw [hwithin.others id hid]
      exact hanswerable id

end Operations

variable {deps : Deps}

/-- Every start of a request leaves its first step behind or settles there. -/
def startsAlways (deps : Deps) (w : World) (op : Operation) : Prop :=
  op.Starts deps w.core

theorem Serial.answerable {w w' : World}
    (h : Serial deps (startsAlways deps) w w') (hw : w.core.Consistent)
    (hanswerable : ∀ id, (w.core.view id).Answerable w.db.graphOf) (id : Uuid) :
    (w'.core.view id).Answerable w'.db.graphOf := by
  induction h generalizing id with
  | refl => exact hanswerable id
  | tail hrun hstep ih =>
      cases hstep with
      | drift hdrift =>
          rw [hdrift.view]
          exact (ih id).mono fun _ _ hgraph => hdrift.graphOf hgraph
      | operation hguard hop =>
          exact hop.performed.answerable (Serial.consistent hrun hw) hop.listed
            hguard ih id

/-- While no start derails, every instance in progress is at a question. -/
theorem in_progress_instances_answerable {w₀ w : World} (h₀ : w₀.Initial)
    (hrun : Serial deps (startsAlways deps) w₀ w) :
    ∀ row ∈ w.db.instances.rows, row.status = .inProgress →
      ∃ graph, w.db.graphOf row.workflowDefinitionId = some graph ∧
        graph.IsQuestion row.currentStepId := by
  intro row hrow hstatus
  have hnone : ∀ id, (w₀.core.view id).Answerable w₀.db.graphOf := by
    intro id row hrow
    simp [Core.view, World.core, h₀.instances] at hrow
  exact hrun.answerable h₀.consistent hnone row.id row
    (Table.find?_of_mem hrow) hstatus

/-- A start whose first step is a question does not derail. -/
theorem Sample.starts_questionThenApproval :
    startsAlways Sample.deps (Sample.world Sample.questionThenApproval)
      (.start Sample.item.id Sample.requester) := by
  intro item definition result instanceId instances hitem hdefinition hstart
    _ hderails
  obtain rfl : Sample.item = item := Option.some.inj hitem
  obtain rfl : Sample.definition Sample.questionThenApproval = definition :=
    Option.some.inj hdefinition
  obtain rfl : ("ask", Outcome.awaitingAnswer "reason") = result :=
    Except.ok.inj hstart
  cases hderails

theorem in_progress_instances_answerable_asked :
    let w := (Sample.run [.start Sample.item.id Sample.requester] 1
      (Sample.world Sample.questionThenApproval)).get (by decide)
    w.db.instances.rows.map WorkflowInstance.status = [.inProgress] ∧
    ∀ row ∈ w.db.instances.rows, row.status = .inProgress →
      ∃ graph, w.db.graphOf row.workflowDefinitionId = some graph ∧
        graph.IsQuestion row.currentStepId := by
  intro w
  have hstep : SerialStep Sample.deps (startsAlways Sample.deps)
      (Sample.world Sample.questionThenApproval) w :=
    Sample.step_of_run Sample.starts_questionThenApproval trivial
      (Option.some_get _).symm
  refine ⟨by decide, ?_⟩
  exact in_progress_instances_answerable (Sample.initial _) (.single hstep)

/-- The approval of the requester's manager comes first. -/
def Sample.managerFirst : WorkflowGraph where
  entryStepId := "approve"
  steps :=
    [Sample.approval "approve" .managerOfRequester "done" "rejected",
      Sample.finish "done" .completed, Sample.finish "rejected" .rejected]

/-- The requester has no manager.  The start fails, and its instance stays in
progress at a step that is no question. -/
theorem in_progress_instance_stuck :
    let w := (Sample.run [.start Sample.item.id Sample.requester] 1
      (Sample.world Sample.managerFirst)).get (by decide)
    (Sample.world Sample.managerFirst).Initial ∧ Sample.managerFirst.Resolves ∧
    Serial Sample.deps anyOperation (Sample.world Sample.managerFirst) w ∧
    ¬ ∀ row ∈ w.db.instances.rows, row.status = .inProgress →
      ∃ graph, w.db.graphOf row.workflowDefinitionId = some graph ∧
        graph.IsQuestion row.currentStepId := by
  refine ⟨Sample.initial _, by decide,
    Sample.serial_of_run (by simp [anyOperation])
      (by simp [Operation.Admissible]) (Option.some_get _).symm, ?_⟩
  intro hall
  obtain ⟨graph, hgraph, s, fieldKey, inputType, required, options, next,
      hs, hkind⟩ := hall _ (List.mem_singleton_self _) (by decide)
  obtain rfl : Sample.managerFirst = graph := Option.some.inj hgraph
  obtain rfl : Sample.approval "approve" .managerOfRequester "done"
      "rejected" = s := Option.some.inj hs
  cases hkind

end Servcat
