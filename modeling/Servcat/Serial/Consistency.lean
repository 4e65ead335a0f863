/-
The invariant of operations executed one at a time: the row of an instance, its
approvals and its tickets agree, and the records of a finished instance never
change again.
-/
import Servcat.Sample
import Servcat.Serial.Views

namespace Servcat

open Atomic Keyed

namespace WorkflowGraph

/-- The id of a `waitForApproval` step. -/
def IsApproval (graph : WorkflowGraph) (stepId : String) : Prop :=
  ∃ s resolution onApprove onReject timeoutSeconds, graph.step stepId = some s ∧
    s.kind = .waitForApproval resolution onApprove onReject timeoutSeconds

/-- The id of a `submitTicket` step. -/
def IsSubmitTicket (graph : WorkflowGraph) (stepId : String) : Prop :=
  ∃ s next, graph.step stepId = some s ∧ s.kind = .submitTicket next

end WorkflowGraph

namespace Engine

theorem OutcomeAt.isApproval {graph : WorkflowGraph} {stepId : String}
    {resolution : ApproverResolution} {timeoutSeconds : Option Int64}
    (h : OutcomeAt graph stepId (.awaitingApproval resolution timeoutSeconds)) :
    graph.IsApproval stepId := by
  obtain ⟨⟨id, label, kind⟩, hs, hkind⟩ := h
  cases kind <;> cases hkind
  exact ⟨_, _, _, _, _, hs, rfl⟩

theorem OutcomeAt.isSubmitTicket {graph : WorkflowGraph} {stepId : String}
    (h : OutcomeAt graph stepId .readyToSubmitTicket) :
    graph.IsSubmitTicket stepId := by
  obtain ⟨⟨id, label, kind⟩, hs, hkind⟩ := h
  cases kind <;> cases hkind
  exact ⟨_, _, hs, rfl⟩

end Engine

namespace View

/-- All tickets were sent, and what the connector said of each was recorded. -/
structure AllSent (v : View) : Prop where
  sent : ∀ t ∈ v.tickets, t.dispatchStatus = .sent
  recorded : ∀ d ∈ v.dispatches, Recordable d.result

/-- Only the last ticket was not sent: it has failed, or is pending because its
row has no room for what the connector said of it. -/
def LastUnsent (v : View) : Prop :=
  ∃ earlier last older d, v.tickets = earlier ++ [last] ∧
    v.dispatches = d :: older ∧
    (∀ t ∈ earlier, t.dispatchStatus = .sent) ∧
      (∀ d ∈ older, Recordable d.result) ∧
    (last.dispatchStatus = .failed ∧ Recordable d.result ∨
      last.dispatchStatus = .pending ∧ ¬ Recordable d.result)

/-- The records of an instance agree with its row. -/
structure Agrees (v : View) (graph : WorkflowGraph) (row : WorkflowInstance) :
    Prop where
  pending : ∀ a ∈ v.approvals, a.status = .pending →
    row.status = .awaitingApproval ∧
    row.currentStepId = a.stepId ∧ graph.IsApproval a.stepId
  unique : ∀ a ∈ v.approvals, ∀ b ∈ v.approvals, a.status = .pending →
    b.status = .pending → a = b
  completed : row.completedAt.isSome = row.status.isTerminal
  tickets : v.AllSent ∨ row.status = .failed ∧ v.LastUnsent
  failed : row.status = .failed → graph.IsSubmitTicket row.currentStepId

/-- Nothing is stored about an instance without a row; the records of any other
agree. -/
def Consistent (v : View) (graphOf : Uuid → Option WorkflowGraph) : Prop :=
  match v.row with
  | none => v.approvals = [] ∧ v.tickets = [] ∧ v.dispatches = []
  | some row => ∃ graph, graphOf row.workflowDefinitionId = some graph ∧
      v.Agrees graph row

/-- The instance can be driven: it is not finished, waits for no approval, and
every ticket filed so far was sent. -/
structure Idle (v : View) (row : WorkflowInstance) : Prop where
  stored : v.row = some row
  active : row.status.isTerminal = false
  completed : row.completedAt = none
  approvals : ∀ a ∈ v.approvals, a.status ≠ .pending
  tickets : v.AllSent

theorem Idle.agrees {v : View} {row : WorkflowInstance} (h : v.Idle row)
    (graph : WorkflowGraph) : v.Agrees graph row where
  pending a ha hpending := absurd hpending (h.approvals a ha)
  unique a ha b hb hpending := absurd hpending (h.approvals a ha)
  completed := by rw [h.completed, h.active]; rfl
  tickets := Or.inl h.tickets
  failed hfailed := by
    have hactive := h.active
    rw [hfailed] at hactive
    cases hactive

end View

variable {deps : Deps} {definition : WorkflowDefinition}
  {instanceId requesterUserId : Uuid} {answers : Answers} {c c' : Core}

/-- An accepted ticket leaves the instance as it is. -/
theorem Dispatched.idle {stepId : String} {row : WorkflowInstance}
    (h : Dispatched deps definition instanceId requesterUserId answers stepId c
      (.ok ()) c') (hidle : (c.view instanceId).Idle row) :
    (c'.view instanceId).Idle row := by
  cases h with
  | sent horder hresult hstored hinsert =>
      rw [Core.view_filed instanceId hinsert rfl rfl]
      refine { hidle with tickets := ⟨fun t ht => ?_, fun d hd => ?_⟩ }
      · rcases List.mem_append.mp ht with ht | ht
        · exact hidle.tickets.sent t ht
        · rw [List.mem_singleton.mp ht]
          rfl
      · rcases List.mem_cons.mp hd with rfl | hd
        · simp [Recordable, hstored]
        · exact hidle.tickets.recorded d hd

/-- A ticket that was not sent comes last. -/
theorem Dispatched.lastUnsent {stepId : String} {e : ApiError}
    {row : WorkflowInstance}
    (h : Dispatched deps definition instanceId requesterUserId answers stepId c
      (.error e) c') (hidle : (c.view instanceId).Idle row) :
    (c'.view instanceId).AllSent ∨ (c'.view instanceId).LastUnsent := by
  cases h with
  | unsent => exact .inl hidle.tickets
  | refused horder hresult hstored hinsert =>
      rw [Core.view_filed instanceId hinsert rfl rfl]
      refine .inr ⟨_, _, _, _, rfl, rfl, hidle.tickets.sent,
        hidle.tickets.recorded, .inl ⟨rfl, ?_⟩⟩
      simp [Recordable, hstored]
  | unrecorded horder hanswer hroom hinsert =>
      rw [Core.view_filed instanceId hinsert rfl rfl]
      exact .inr ⟨_, _, _, _, rfl, rfl, hidle.tickets.sent,
        hidle.tickets.recorded, .inr ⟨rfl, hroom⟩⟩

/-- A call of a connector leaves the rest of an instance as it is. -/
theorem Dispatched.aside {stepId : String} {x : Exit ApiError Unit}
    (h : Dispatched deps definition instanceId requesterUserId answers
      stepId c x c') :
    (c'.view instanceId).row = (c.view instanceId).row ∧
      (c'.view instanceId).approvals = (c.view instanceId).approvals := by
  cases h with
  | unsent => exact ⟨rfl, rfl⟩
  | sent horder hresult hstored hinsert
  | refused horder hresult hstored hinsert =>
      rw [Core.view_filed instanceId hinsert rfl rfl]
      exact ⟨rfl, rfl⟩
  | unrecorded horder hanswer hroom hinsert =>
      rw [Core.view_filed instanceId hinsert rfl rfl]
      exact ⟨rfl, rfl⟩

theorem settledStatus_ne_failed {outcome : Outcome} {status : InstanceStatus}
    (h : settledStatus outcome = some status) : status ≠ .failed := by
  rintro rfl
  rcases outcome with _ | _ | _ | ⟨_ | _ | _⟩ <;> cases h

/-- Driving an instance leaves records that agree, however it ends. -/
theorem Driven.agrees {row : WorkflowInstance}
    {result : Except EngineError (String × Outcome)}
    {x : Exit ApiError WorkflowInstance}
    (h : Driven deps definition instanceId requesterUserId answers
      result c x c')
    (hidle : (c.view instanceId).Idle row)
    (hresult : ∀ stepId outcome, result = .ok (stepId, outcome) →
      Engine.OutcomeAt definition.graph stepId outcome) :
    ∃ row', (c'.view instanceId).row = some row' ∧
      row'.workflowDefinitionId = row.workflowDefinitionId ∧
      (c'.view instanceId).Agrees definition.graph row' := by
  induction h with
  | stuck | refused | panicked => exact ⟨row, hidle.stored, rfl, hidle.agrees _⟩
  | @settled stepId outcome c status _ hstatus =>
      rw [Core.view_save, hidle.stored]
      refine ⟨_, rfl, rfl, ?_⟩
      have hagrees := hidle.agrees definition.graph
      refine
        { pending := fun a ha hpending => absurd hpending (hidle.approvals a ha)
          unique := hagrees.unique
          completed := ?_
          tickets := Or.inl ⟨hidle.tickets.sent, hidle.tickets.recorded⟩
          failed :=
            fun hfailed => absurd hfailed (settledStatus_ne_failed hstatus) }
      cases hterminal : status.isTerminal <;>
        simp [Db.progressed, hterminal, hidle.completed]
  | @opened stepId resolution timeoutSeconds c approverUserId expiresAt
      approvalId approvals _ hterms hinsert =>
      rw [Core.view_save, Core.view_opened instanceId hinsert rfl, hidle.stored]
      refine ⟨_, rfl, rfl, ?_⟩
      have hnew : ∀ a ∈ (c.view instanceId).approvals ++
          [openApproval approvalId instanceId stepId approverUserId expiresAt],
          a.status = .pending →
            a = openApproval approvalId instanceId stepId approverUserId
              expiresAt := by
        intro a ha hpending
        rcases List.mem_append.mp ha with ha | ha
        · exact absurd hpending (hidle.approvals a ha)
        · exact List.mem_singleton.mp ha
      refine
        { pending := fun a ha hpending => ?_
          unique := fun a ha b hb hpending hpending' =>
            (hnew a ha hpending).trans (hnew b hb hpending').symm
          completed := by
            simp [Db.progressed, InstanceStatus.isTerminal, hidle.completed]
          tickets := Or.inl ⟨hidle.tickets.sent, hidle.tickets.recorded⟩
          failed := fun hfailed => by cases hfailed }
      rw [hnew a ha hpending]
      exact ⟨rfl, rfl, (hresult stepId _ rfl).isApproval⟩
  | failed hdispatch =>
      obtain ⟨hrow, happrovals⟩ := hdispatch.aside
      have hagrees := hidle.agrees definition.graph
      rw [Core.view_save, hrow, hidle.stored]
      refine ⟨_, rfl, rfl, ?_⟩
      refine
        { pending := fun a ha hpending => ?_
          unique := ?_
          completed := rfl
          tickets := ?_
          failed := fun _ => (hresult _ _ rfl).isSubmitTicket }
      · rw [happrovals] at ha
        exact absurd hpending (hidle.approvals a ha)
      · rw [happrovals]
        exact hagrees.unique
      · rcases hdispatch.lastUnsent hidle with hsent | hlast
        · exact Or.inl ⟨hsent.sent, hsent.recorded⟩
        · exact Or.inr ⟨rfl, hlast⟩
  | advanced hdispatch hrest ih =>
      refine ih (hdispatch.idle hidle) fun nextStepId nextOutcome hok => ?_
      obtain ⟨s, next, -, -, -, hat⟩ := Engine.resumeAfterTicketDispatch_ok hok
      exact hat

/-- The records of every instance agree. -/
def Core.Consistent (c : Core) : Prop :=
  ∀ id, (c.view id).Consistent c.db.graphOf

theorem View.Consistent.of_row {v : View}
    {graphOf : Uuid → Option WorkflowGraph} {row : WorkflowInstance}
    (h : v.Consistent graphOf) (hrow : v.row = some row) :
    ∃ graph, graphOf row.workflowDefinitionId = some graph ∧
      v.Agrees graph row := by
  unfold Consistent at h
  rw [hrow] at h
  exact h

/-- Where there is no row, there is nothing else. -/
theorem View.Consistent.exists_row {v : View}
    {graphOf : Uuid → Option WorkflowGraph} (h : v.Consistent graphOf)
    (hsome : ¬ (v.approvals = [] ∧ v.tickets = [] ∧ v.dispatches = [])) :
    ∃ row, v.row = some row := by
  unfold Consistent at h
  cases hrow : v.row with
  | some row => exact ⟨row, rfl⟩
  | none =>
      rw [hrow] at h
      exact absurd h hsome

theorem View.Consistent.present {v : View}
    {graphOf : Uuid → Option WorkflowGraph} (h : v.Consistent graphOf)
    (hsome : v.approvals ≠ [] ∨ v.tickets ≠ []) :
    ∃ row, v.row = some row :=
  h.exists_row fun hnone => hsome.elim (fun hne => hne hnone.1) fun hne =>
    hne hnone.2.1

theorem View.Consistent.mono {v : View}
    {graphOf graphOf' : Uuid → Option WorkflowGraph} (h : v.Consistent graphOf)
    (hgraph : ∀ id graph, graphOf id = some graph → graphOf' id = some graph) :
    v.Consistent graphOf' := by
  unfold Consistent at *
  cases hrow : v.row with
  | none =>
      rw [hrow] at h
      exact h
  | some row =>
      rw [hrow] at h
      obtain ⟨graph, hfound, hagrees⟩ := h
      exact ⟨graph, hgraph _ _ hfound, hagrees⟩

/-- Deciding the pending approval of an instance makes the instance idle. -/
theorem Core.Consistent.flipped (hc : c.Consistent) {approval : PendingApproval}
    {status : ApprovalStatus} {comment : Option String}
    (hmem : approval ∈ c.db.approvals.rows)
    (hpending : approval.status = .pending) (hstatus : status ≠ .pending) :
    ∃ row graph, (c.view approval.workflowInstanceId).row = some row ∧
      c.db.graphOf row.workflowDefinitionId = some graph ∧
      row.status = .awaitingApproval ∧ row.currentStepId = approval.stepId ∧
      graph.IsApproval approval.stepId ∧
      ((c.flipped approval.id status comment).view
        approval.workflowInstanceId).Idle row := by
  have hview : approval ∈ (c.view approval.workflowInstanceId).approvals :=
    List.mem_filter.mpr ⟨hmem, by simp⟩
  obtain ⟨row, hrow⟩ := (hc approval.workflowInstanceId).present
    (Or.inl (List.ne_nil_of_mem hview))
  obtain ⟨graph, hgraph, hagrees⟩ := (hc _).of_row hrow
  obtain ⟨hawaiting, hstep, hkind⟩ := hagrees.pending approval hview hpending
  refine ⟨row, graph, hrow, hgraph, hawaiting, hstep, hkind, ?_⟩
  rw [view_flipped]
  refine
    { stored := hrow
      active := by rw [hawaiting]; rfl
      completed := ?_
      approvals := fun a ha => ?_
      tickets := ?_ }
  · have hcompleted := hagrees.completed
    rw [hawaiting] at hcompleted
    simpa [InstanceStatus.isTerminal] using hcompleted
  · obtain ⟨b, hb, rfl⟩ := List.mem_map.mp ha
    by_cases hid : b.id = approval.id
    · simp only [hid, ↓reduceIte, Db.decided]
      split
      · exact hstatus
      · assumption
    · simp only [hid, ↓reduceIte]
      intro hb'
      exact hid (congrArg PendingApproval.id
        (hagrees.unique b hb approval hview hb' hpending))
  · rcases hagrees.tickets with hsent | ⟨hfailed, -⟩
    · exact ⟨hsent.sent, hsent.recorded⟩
    · rw [hawaiting] at hfailed
      cases hfailed

theorem Driven.consistent {row : WorkflowInstance}
    {result : Except EngineError (String × Outcome)}
    {x : Exit ApiError WorkflowInstance}
    (h : Driven deps definition instanceId requesterUserId answers
      result c x c')
    (hidle : (c.view instanceId).Idle row)
    (hgraph : c.db.graphOf row.workflowDefinitionId = some definition.graph)
    (hresult : ∀ stepId outcome, result = .ok (stepId, outcome) →
      Engine.OutcomeAt definition.graph stepId outcome) :
    (c'.view instanceId).Consistent c'.db.graphOf := by
  obtain ⟨row', hrow', hsame, hagrees⟩ := h.agrees hidle hresult
  unfold View.Consistent
  rw [hrow', h.touches.graphOf]
  exact ⟨definition.graph, by rw [hsame]; exact hgraph, hagrees⟩

theorem Resumed.consistent {stepId : String} {decision : ApprovalDecision}
    {row : WorkflowInstance} {graph : WorkflowGraph}
    {x : Exit ApiError WorkflowInstance}
    (h : Resumed deps instanceId stepId decision c x c')
    (hidle : (c.view instanceId).Idle row)
    (hgraph : c.db.graphOf row.workflowDefinitionId = some graph) :
    (c'.view instanceId).Consistent c'.db.graphOf := by
  have hrow : c.db.instances.find? instanceId = some row := hidle.stored
  cases h with
  | unknown hnone =>
      rw [hrow] at hnone
      cases hnone
  | undefined hrow' hnone =>
      rw [hrow] at hrow'
      cases hrow'
      simp [Db.graphOf, hnone] at hgraph
  | driven hrow' hdefinition hdriven =>
      rw [hrow] at hrow'
      cases hrow'
      refine hdriven.consistent hidle (Db.graphOf_of_find? hdefinition)
        fun nextStepId outcome hok => ?_
      obtain ⟨s, resolution, onApprove, onReject, timeoutSeconds, -, -,
          -, hat⟩ := Engine.resumeAfterApproval_ok hok
      exact hat

/-- An approval that is expired is one of the rows. -/
def Operation.Listed (c : Core) : Operation → Prop
  | .expire approval => approval ∈ c.db.approvals.rows
  | _ => True

/-- What an operation did to the records of one instance that was
not finished. -/
structure Core.Local (id : Uuid) (c c' : Core) : Prop where
  touches : c.Touches id c'
  consistent : (c'.view id).Consistent c'.db.graphOf
  active : ∀ row, (c.view id).row = some row → row.status.isTerminal = false

theorem Resumed.local {approval : PendingApproval} {status : ApprovalStatus}
    {comment : Option String} {decision : ApprovalDecision}
    {x : Exit ApiError WorkflowInstance}
    (h : Resumed deps approval.workflowInstanceId approval.stepId decision
      (c.flipped approval.id status comment) x c')
    (hc : c.Consistent) (hmem : approval ∈ c.db.approvals.rows)
    (hpending : approval.status = .pending) (hstatus : status ≠ .pending) :
    c.Local approval.workflowInstanceId c' := by
  obtain ⟨row, graph, hrow, hgraph, hawaiting, -, -, hidle⟩ :=
    hc.flipped hmem hpending hstatus
  refine ⟨(Core.touches_flipped hmem).trans h.touches,
    h.consistent hidle hgraph, fun row' hrow' => ?_⟩
  rw [hrow, Option.some.injEq] at hrow'
  rw [← hrow', hawaiting]
  rfl

theorem Core.Consistent.created (hc : c.Consistent) {row : WorkflowInstance}
    {instances : Table WorkflowInstance.id}
    (hinsert : c.db.instances.insert? row = some instances)
    (hactive : row.status.isTerminal = false)
    (hcompleted : row.completedAt = none) :
    (c.view row.id).row = none ∧
    ((c.created instances).view row.id).Idle row := by
  have hfresh : (c.view row.id).row = none :=
    (Table.insert?_eq_some_iff.mp hinsert).1
  have hnothing := hc row.id
  unfold View.Consistent at hnothing
  rw [hfresh] at hnothing
  obtain ⟨happrovals, htickets, hdispatches⟩ := hnothing
  refine ⟨hfresh, ?_⟩
  rw [view_created hinsert]
  exact
    { stored := rfl
      active := hactive
      completed := hcompleted
      approvals := by simp [happrovals]
      tickets := ⟨by simp [htickets], by simp [hdispatches]⟩ }

theorem Core.Consistent.submittable (hc : c.Consistent) {row : WorkflowInstance}
    (hrow : (c.view instanceId).row = some row)
    (hstatus : row.status = .inProgress) :
    (c.view instanceId).Idle row := by
  obtain ⟨graph, -, hagrees⟩ := (hc instanceId).of_row hrow
  refine
    { stored := hrow
      active := by rw [hstatus]; rfl
      completed := ?_
      approvals := fun a ha hpending => ?_
      tickets := ?_ }
  · have hcompleted := hagrees.completed
    rw [hstatus] at hcompleted
    simpa [InstanceStatus.isTerminal] using hcompleted
  · have hawaiting := (hagrees.pending a ha hpending).1
    rw [hstatus] at hawaiting
    cases hawaiting
  · rcases hagrees.tickets with hsent | ⟨hfailed, -⟩
    · exact hsent
    · rw [hstatus] at hfailed
      cases hfailed

/-- An operation changes nothing, or the records of one instance that was not
finished, its own or a new one, and these agree afterwards. -/
theorem Performed.local {op : Operation}
    {x : Exit ApiError (Option WorkflowInstance)} (h : Performed deps op c x c')
    (hc : c.Consistent) (hop : op.Listed c) :
    c' = c ∨ ∃ id, c.Local id c' ∧
      (op.instanceId? c.db = some id ∨ (c.view id).row = none) := by
  have hlisted : ∀ {approval : PendingApproval},
      approval ∈ c.db.approvals.rows →
      c.db.isPending approval.id = true → approval.status = .pending := by
    intro approval hmem hpending
    obtain ⟨approval', hfound, hstatus⟩ := Db.isPending_iff.mp hpending
    rw [Table.find?_of_mem hmem, Option.some.injEq] at hfound
    rw [hfound]
    exact hstatus
  cases h with
  | declined | skipped => exact Or.inl rfl
  | @started _ requester item definition stepId outcome instanceId
      instances _ _ _ hitem hdefinition hstart hinsert hdriven =>
      obtain ⟨hfresh, hidle⟩ := hc.created hinsert rfl rfl
      refine Or.inr ⟨instanceId,
        ⟨(Core.touches_created hinsert).trans hdriven.touches,
        hdriven.consistent hidle ?_
          fun stepId outcome hok => ?_, fun row hrow => ?_⟩,
        Or.inr hfresh⟩
      · change c.db.graphOf definition.id = some definition.graph
        rw [Table.key_of_find? hdefinition]
        exact Db.graphOf_of_find? hdefinition
      · obtain ⟨-, hat⟩ := Engine.start_ok (hstart.trans hok)
        exact hat
      · rw [show (c.view instanceId).row = none from hfresh] at hrow
        cases hrow
  | submitted hrow hrequester hstatus hdefinition hengine hdriven =>
      have hidle := hc.submittable hrow hstatus
      refine Or.inr ⟨_, ⟨hdriven.touches,
        hdriven.consistent hidle (Db.graphOf_of_find? hdefinition)
          fun stepId outcome hok => ?_,
        fun row' hrow' => ?_⟩, Or.inl rfl⟩
      · subst hok
        obtain ⟨-, s, inputType, required, options, next, -, -, -, hat⟩ :=
          Engine.submitAnswer_ok hengine
        exact hat
      · rw [hidle.stored, Option.some.injEq] at hrow'
        rw [← hrow', hstatus]
        rfl
  | @decided _ _ decision _ _ _ _ _ happroval huser hpending hresumed =>
      obtain rfl := Table.key_of_find? happroval
      refine Or.inr ⟨_, hresumed.local hc (Table.mem_of_find? happroval)
        hpending ?_, Or.inl (by simp [Operation.instanceId?, happroval])⟩
      cases decision <;> simp [Approvals.statusOf]
  | expired hpending hresumed =>
      exact Or.inr ⟨_, hresumed.local hc hop (hlisted hop hpending) (by simp),
        Or.inl rfl⟩
  | expiryFailed hpending hresumed =>
      obtain ⟨htouches, hconsistent, hactive⟩ :=
        hresumed.local hc hop (hlisted hop hpending) (by simp)
      exact Or.inr
        ⟨_, ⟨⟨htouches.definitions, htouches.others⟩, hconsistent, hactive⟩,
        Or.inl rfl⟩
  | expiryPanicked hpending hresumed =>
      exact Or.inr ⟨_, hresumed.local hc hop (hlisted hop hpending) (by simp),
        Or.inl rfl⟩

theorem Performed.consistent {op : Operation}
    {x : Exit ApiError (Option WorkflowInstance)} (h : Performed deps op c x c')
    (hc : c.Consistent) (hop : op.Listed c) : c'.Consistent := by
  rcases h.local hc hop with rfl | ⟨id, hlocal, -⟩
  · exact hc
  · intro other
    by_cases hother : other = id
    · rw [hother]
      exact hlocal.consistent
    · rw [hlocal.touches.others other hother, hlocal.touches.graphOf]
      exact hc other

/-- No operation touches the records of a finished instance. -/
theorem Performed.frozen {op : Operation}
    {x : Exit ApiError (Option WorkflowInstance)} (h : Performed deps op c x c')
    (hc : c.Consistent) (hop : op.Listed c) {id : Uuid} {row : WorkflowInstance}
    (hrow : (c.view id).row = some row)
    (hterminal : row.status.isTerminal = true) :
    c'.view id = c.view id := by
  rcases h.local hc hop with rfl | ⟨touched, hlocal, -⟩
  · rfl
  · refine hlocal.touches.others id ?_
    rintro rfl
    rw [hlocal.active row hrow] at hterminal
    cases hterminal

theorem World.Drift.view {w w' : World} (h : w.Drift w') (id : Uuid) :
    w'.core.view id = w.core.view id := by
  simp only [Core.view, World.core, h.instances, h.approvals, h.tickets,
    h.dispatches]

theorem World.Drift.consistent {w w' : World} (h : w.Drift w')
    (hw : w.core.Consistent) : w'.core.Consistent := by
  intro id
  rw [h.view]
  exact (hw id).mono fun _ _ hgraph => h.graphOf hgraph

theorem Operation.Completes.listed {op : Operation} {w w' : World}
    {x : Exit ApiError (Option WorkflowInstance)}
    (h : op.Completes deps w x w') : op.Listed w.core := by
  cases op with
  | expire approval => exact h.1.1
  | _ => trivial

theorem World.Initial.consistent {w : World}
    (h : w.Initial) : w.core.Consistent := by
  intro id
  have hview : w.core.view id = ⟨none, [], [], []⟩ := by
    simp [Core.view, World.core, h.instances, h.approvals, h.tickets,
      h.dispatches]
  rw [hview]
  exact ⟨rfl, rfl, rfl⟩

variable {guard : World → Operation → Prop}

theorem SerialStep.consistent {w w' : World} (h : SerialStep deps guard w w')
    (hw : w.core.Consistent) : w'.core.Consistent := by
  cases h with
  | drift h => exact h.consistent hw
  | operation hguard h => exact h.performed.consistent hw h.listed

theorem Serial.consistent {w w' : World} (h : Serial deps guard w w')
    (hw : w.core.Consistent) : w'.core.Consistent := by
  induction h with
  | refl => exact hw
  | tail _ hstep ih => exact hstep.consistent ih

/-- The records of a finished instance are the same ever after. -/
theorem Serial.frozen {w w' : World} (h : Serial deps guard w w')
    (hw : w.core.Consistent) {id : Uuid} {row : WorkflowInstance}
    (hrow : (w.core.view id).row = some row)
    (hterminal : row.status.isTerminal = true) :
    w'.core.view id = w.core.view id := by
  induction h with
  | refl => rfl
  | tail hrun hstep ih =>
      cases hstep with
      | drift hdrift => rw [hdrift.view, ih]
      | operation hguard hop =>
          refine (hop.performed.frozen (Serial.consistent hrun hw) hop.listed ?_
            hterminal).trans ih
          rw [ih]
          exact hrow

theorem Core.Consistent.agrees {w : World} (hw : w.core.Consistent)
    {row : WorkflowInstance} (hrow : row ∈ w.db.instances.rows) :
    ∃ graph, w.db.graphOf row.workflowDefinitionId = some graph ∧
      (w.core.view row.id).Agrees graph row :=
  (hw row.id).of_row (Table.find?_of_mem hrow)

/-- The tickets of an instance were all sent, or the instance failed on the last
of them; and an instance fails only at a step that files a ticket. -/
structure World.TicketsAgree (w : World) : Prop where
  settled : ∀ t ∈ w.db.tickets.rows,
    (t.dispatchStatus = .sent ∨ t.dispatchStatus = .failed) ∧
    (w.db.instances.find? t.workflowInstanceId).isSome
  failed : ∀ row ∈ w.db.instances.rows,
    let tickets :=
      w.db.tickets.rows.filter fun t => t.workflowInstanceId = row.id
    (∃ t ∈ tickets, t.dispatchStatus = .failed) → row.status = .failed ∧
      ∃ earlier last, tickets = earlier ++ [last] ∧
        last.dispatchStatus = .failed ∧ ∀ t ∈ earlier, t.dispatchStatus = .sent
  sent : ∀ row ∈ w.db.instances.rows, row.status ≠ .failed →
    ∀ t ∈ w.db.tickets.rows, t.workflowInstanceId = row.id →
      t.dispatchStatus = .sent
  submits : ∀ row ∈ w.db.instances.rows, row.status = .failed → ∃ graph,
    w.db.graphOf row.workflowDefinitionId = some graph ∧
    graph.IsSubmitTicket row.currentStepId

theorem Core.Consistent.row_of_ticket {w : World} (hw : w.core.Consistent)
    {t : Ticket} (ht : t ∈ w.db.tickets.rows) :
    t ∈ (w.core.view t.workflowInstanceId).tickets ∧ ∃ row graph,
      w.db.instances.find? t.workflowInstanceId = some row ∧
      (w.core.view t.workflowInstanceId).Agrees graph row := by
  have hview : t ∈ (w.core.view t.workflowInstanceId).tickets :=
    List.mem_filter.mpr ⟨ht, by simp⟩
  obtain ⟨row, hrow⟩ := (hw _).present (Or.inr (List.ne_nil_of_mem hview))
  obtain ⟨graph, -, hagrees⟩ := (hw _).of_row hrow
  exact ⟨hview, row, graph, hrow, hagrees⟩

theorem Core.Consistent.row_of_dispatch {w : World} (hw : w.core.Consistent)
    {d : Dispatch} (hd : d ∈ w.dispatches) :
    d ∈ (w.core.view d.instanceId).dispatches ∧ ∃ row graph,
      (w.core.view d.instanceId).Agrees graph row := by
  have hview : d ∈ (w.core.view d.instanceId).dispatches :=
    List.mem_filter.mpr ⟨hd, by simp⟩
  obtain ⟨row, hrow⟩ :=
    (hw _).exists_row fun hnone => List.ne_nil_of_mem hview hnone.2.2
  obtain ⟨graph, -, hagrees⟩ := (hw _).of_row hrow
  exact ⟨hview, row, graph, hagrees⟩

/-- Where every answer was recorded, the last ticket of an instance is the one
that may have failed. -/
theorem View.LastUnsent.failed {v : View} (h : v.LastUnsent)
    (hrecorded : ∀ d ∈ v.dispatches, Recordable d.result) :
    ∃ earlier last, v.tickets = earlier ++ [last] ∧
      last.dispatchStatus = .failed ∧
      ∀ t ∈ earlier, t.dispatchStatus = .sent := by
  obtain ⟨earlier, last, older, d, htickets, hdispatches, hsent, -, hlast⟩ := h
  have hd : Recordable d.result :=
    hrecorded d (by rw [hdispatches]; exact List.mem_cons_self)
  rcases hlast with ⟨hfailed, -⟩ | ⟨-, hroom⟩
  · exact ⟨earlier, last, htickets, hfailed, hsent⟩
  · exact absurd hd hroom

/-- An answer that was not recorded leaves a ticket pending. -/
theorem View.LastUnsent.pending {v : View} (h : v.LastUnsent) {d : Dispatch}
    (hd : d ∈ v.dispatches) (hroom : ¬ Recordable d.result) :
    ∃ t ∈ v.tickets, t.dispatchStatus = .pending := by
  obtain ⟨earlier, last, older, d', htickets, hdispatches, -, hrecorded,
      hlast⟩ := h
  rw [hdispatches] at hd
  rcases List.mem_cons.mp hd with rfl | hd
  · rcases hlast with ⟨-, hrecordable⟩ | ⟨hpending, -⟩
    · exact absurd hrecordable hroom
    · exact ⟨last, by simp [htickets], hpending⟩
  · exact absurd (hrecorded d hd) hroom

/-- In every state between two operations, tickets and instances agree
exactly if the rows of the tickets had room for everything that the
connectors have said. -/
theorem tickets_and_instances_agree_iff {w₀ w : World} (h₀ : w₀.Initial)
    (hrun : Serial deps anyOperation w₀ w) :
    w.TicketsAgree ↔ ∀ d ∈ w.dispatches, Recordable d.result := by
  have hw : w.core.Consistent := hrun.consistent h₀.consistent
  constructor
  · intro hagree d hd
    by_contra hroom
    obtain ⟨hview, row, graph, hagrees⟩ := hw.row_of_dispatch hd
    rcases hagrees.tickets with hsent | ⟨-, hlast⟩
    · exact hroom (hsent.recorded d hview)
    · obtain ⟨t, ht, hpending⟩ := hlast.pending hview hroom
      have hsettled := (hagree.settled t (List.mem_filter.mp ht).1).1
      rw [hpending] at hsettled
      rcases hsettled with h | h <;> cases h
  · intro hrecorded
    have hlast : ∀ id, (w.core.view id).LastUnsent → ∃ earlier last,
        (w.core.view id).tickets = earlier ++ [last] ∧
          last.dispatchStatus = .failed ∧
          ∀ t ∈ earlier, t.dispatchStatus = .sent :=
      fun id h => h.failed fun d hd => hrecorded d (List.mem_filter.mp hd).1
    refine ⟨fun t ht => ?_, fun row hrow => ?_, fun row hrow hne t ht hid => ?_,
      fun row hrow hfailed => ?_⟩
    · obtain ⟨hview, row, graph, hrow, hagrees⟩ := hw.row_of_ticket ht
      refine ⟨?_, Option.isSome_iff_exists.mpr ⟨row, hrow⟩⟩
      rcases hagrees.tickets with hsent | ⟨-, hunsent⟩
      · exact Or.inl (hsent.sent t hview)
      · obtain ⟨earlier, last, htickets, hfailed, hsent⟩ := hlast _ hunsent
        rw [htickets, List.mem_append, List.mem_singleton] at hview
        rcases hview with hearlier | rfl
        · exact Or.inl (hsent t hearlier)
        · exact Or.inr hfailed
    · rintro tickets ⟨t, ht, hfailed⟩
      obtain ⟨graph, -, hagrees⟩ := hw.agrees hrow
      rcases hagrees.tickets with hsent | ⟨hstatus, hunsent⟩
      · rw [hsent.sent t ht] at hfailed
        cases hfailed
      · exact ⟨hstatus, hlast _ hunsent⟩
    · obtain ⟨graph, -, hagrees⟩ := hw.agrees hrow
      rcases hagrees.tickets with hsent | ⟨hfailed, -⟩
      · exact hsent.sent t (List.mem_filter.mpr ⟨ht, by simpa using hid⟩)
      · exact absurd hfailed hne
    · obtain ⟨graph, hgraph, hagrees⟩ := hw.agrees hrow
      exact ⟨graph, hgraph, hagrees.failed hfailed⟩

theorem tickets_and_instances_agree_iff_sent :
    let w := (Sample.run [.start Sample.item.id Sample.requester,
      .decide (Sample.id 105) Sample.approver.id .approve none] 1
      (Sample.world Sample.approvalThenTicket)).get (by decide)
    w.db.tickets.rows.map Ticket.dispatchStatus = [.sent] ∧
    (w.TicketsAgree ↔ ∀ d ∈ w.dispatches, Recordable d.result) :=
  ⟨by decide, tickets_and_instances_agree_iff
    (Sample.initial Sample.approvalThenTicket)
    (Sample.serial_of_run (by simp [anyOperation])
      (by simp [Operation.Admissible]) (Option.some_get _).symm)⟩

namespace Sample

/-- The target system gives its tickets very long names. -/
def overlong : Deps :=
  { Sample.deps with
    connectors := fun _ => some fun _ _ =>
      .ok ⟨String.ofList (List.replicate 256 'x'), none⟩ }

/-- A request that files a ticket with it. -/
def misfiled : Option (Exit ApiError (Option WorkflowInstance) × World) :=
  runAlone Input.Admitted ((Operation.start item.id requester).code overlong 9)
    (inputs 0 100) (world ticketOnly)

end Sample

set_option maxRecDepth 20000 in
/-- The ticket was accepted, and the instance has failed. -/
theorem Sample.misfiled_pending :
    (Sample.misfiled.map fun filed =>
      (filed.2.db.tickets.rows.map Ticket.dispatchStatus,
        filed.2.db.instances.rows.map WorkflowInstance.status)) =
      some ([.pending], [.failed]) := by
  decide

/-- Nothing goes wrong in the database, but the row of the ticket has no room
for the answer of the connector, and stays as it was. -/
theorem overlong_answer_unrecorded :
    ∃ w, (Sample.world Sample.ticketOnly).Initial ∧
      Serial Sample.overlong anyOperation (Sample.world Sample.ticketOnly) w ∧
      w.db.tickets.rows.map Ticket.dispatchStatus = [.pending] ∧
      w.db.instances.rows.map WorkflowInstance.status = [.failed] ∧
      ¬ w.TicketsAgree := by
  obtain ⟨⟨x, w⟩, hfiled, hrows⟩ :=
    Option.map_eq_some_iff.mp Sample.misfiled_pending
  obtain ⟨htickets, hinstances⟩ := Prod.mk.inj hrows
  have hcompletes : (Operation.start Sample.item.id Sample.requester).Completes
      Sample.overlong (Sample.world Sample.ticketOnly) x w :=
    ⟨trivial, 9, runs_of_runAlone hfiled⟩
  refine ⟨w, Sample.initial _,
    .single (.operation trivial hcompletes), htickets, hinstances,
    fun hagree => ?_⟩
  obtain ⟨t, ht, hpending⟩ : ∃ t ∈ w.db.tickets.rows,
      t.dispatchStatus = .pending :=
    List.mem_map.mp (by rw [htickets]; exact List.mem_singleton_self _)
  have hsettled := (hagree.settled t ht).1
  rw [hpending] at hsettled
  rcases hsettled with h | h <;> cases h

end Servcat
