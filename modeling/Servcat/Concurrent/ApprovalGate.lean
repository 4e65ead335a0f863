/-
Approval steps cannot be bypassed: whatever the requests do to each other, every
step an instance is at, has an approval for or files a ticket at is reached from
the entry step along decisions that were made.
-/
import Servcat.Serial.Consistency
import Servcat.Concurrent.Growth

namespace Servcat

open Atomic Keyed

/-- A path from the entry step that takes `onApprove` arrows out of approved
steps only, and `onReject` arrows out of rejected ones. -/
inductive WorkflowGraph.GatedPath (graph : WorkflowGraph)
    (approved rejected : String → Prop) : String → Prop
  | entry : GatedPath graph approved rejected graph.entryStepId
  | edge {source target : String} {s : Step} (kind : EdgeKind)
      (h : GatedPath graph approved rejected source)
      (hs : graph.step source = some s)
      (hedge : (kind, target) ∈ s.kind.edges)
      (happrove : kind = .onApprove → approved source)
      (hreject : kind = .onReject → rejected source) :
      GatedPath graph approved rejected target

namespace WorkflowGraph.GatedPath

variable {graph : WorkflowGraph}
  {approved rejected approved' rejected' : String → Prop}
  {source target : String}

theorem mono (h : graph.GatedPath approved rejected target)
    (happroved : ∀ stepId, approved stepId → approved' stepId)
    (hrejected : ∀ stepId, rejected stepId → rejected' stepId) :
    graph.GatedPath approved' rejected' target := by
  induction h with
  | entry => exact .entry
  | edge kind _ hs hedge happrove hreject ih =>
      exact .edge kind ih hs hedge (fun hkind => happroved _ (happrove hkind))
        fun hkind => hrejected _ (hreject hkind)

theorem branchPath (h : graph.GatedPath approved rejected source)
    (hpath : Engine.BranchPath graph source target) :
    graph.GatedPath approved rejected target := by
  induction hpath with
  | refl => exact h
  | @hop mid target s condition onTrue onFalse _ hs hkind htarget ih =>
      rcases htarget with rfl | rfl
      · exact .edge .onTrue ih hs (by simp [hkind, StepKind.edges])
          (by simp) (by simp)
      · exact .edge .onFalse ih hs (by simp [hkind, StepKind.edges])
          (by simp) (by simp)

end WorkflowGraph.GatedPath

namespace World

/-- The instance has an approved approval for this step. -/
def ApprovedAt (w : World) (instanceId : Uuid) (stepId : String) : Prop :=
  ∃ a ∈ w.db.approvals.rows, a.workflowInstanceId = instanceId ∧
    a.stepId = stepId ∧ a.status = .approved

/-- The instance has a rejected or expired approval for this step. -/
def RejectedAt (w : World) (instanceId : Uuid) (stepId : String) : Prop :=
  ∃ a ∈ w.db.approvals.rows, a.workflowInstanceId = instanceId ∧
    a.stepId = stepId ∧ (a.status = .rejected ∨ a.status = .expired)

/-- The graph of the instance. -/
def Uses (w : World) (instanceId : Uuid) (graph : WorkflowGraph) : Prop :=
  ∃ row, w.db.instances.find? instanceId = some row ∧
    w.db.graphOf row.workflowDefinitionId = some graph

/-- The instance may be at this step of its graph. -/
def Reached (w : World) (instanceId : Uuid) (graph : WorkflowGraph)
    (stepId : String) : Prop :=
  w.Uses instanceId graph ∧
    graph.GatedPath (w.ApprovedAt instanceId) (w.RejectedAt instanceId) stepId

/-- Every step stored or used was reached. -/
structure Gate (w : World) : Prop where
  rows : ∀ id row, w.db.instances.find? id = some row →
    ∃ graph, w.Reached id graph row.currentStepId
  approvals : ∀ id a, w.db.approvals.find? id = some a →
    ∃ graph, w.Reached a.workflowInstanceId graph a.stepId
  dispatches : ∀ d ∈ w.dispatches, ∃ graph,
    w.Reached d.instanceId graph d.stepId ∧ graph.IsSubmitTicket d.stepId

variable {w w' : World}

theorem Grows.status (h : w.Grows w') {a : PendingApproval}
    (ha : a ∈ w.db.approvals.rows) (hstatus : a.status ≠ .pending) :
    ∃ b ∈ w'.db.approvals.rows, b.workflowInstanceId = a.workflowInstanceId ∧
      b.stepId = a.stepId ∧ b.status = a.status := by
  obtain ⟨b, hb, hbecomes⟩ := h.approvals a.id a (Table.find?_of_mem ha)
  exact ⟨b, Table.mem_of_find? hb, hbecomes.workflowInstanceId, hbecomes.stepId,
    hbecomes.settled hstatus⟩

theorem Uses.unique {instanceId : Uuid} {graph graph' : WorkflowGraph}
    (h : w.Uses instanceId graph)
    (h' : w.Uses instanceId graph') : graph = graph' := by
  obtain ⟨row, hrow, hgraph⟩ := h
  obtain ⟨row', hrow', hgraph'⟩ := h'
  rw [hrow, Option.some.injEq] at hrow'
  subst hrow'
  rw [hgraph, Option.some.injEq] at hgraph'
  exact hgraph'

theorem Grows.uses (h : w.Grows w') {instanceId : Uuid} {graph : WorkflowGraph}
    (huses : w.Uses instanceId graph) : w'.Uses instanceId graph := by
  obtain ⟨row, hrow, hgraph⟩ := huses
  obtain ⟨row', hrow', hsame⟩ := h.instances _ row hrow
  exact ⟨row', hrow', by rw [hsame]; exact h.graphs _ _ hgraph⟩

theorem Grows.reached (h : w.Grows w') {instanceId : Uuid}
    {graph : WorkflowGraph} {stepId : String}
    (hreached : w.Reached instanceId graph stepId) :
    w'.Reached instanceId graph stepId := by
  refine ⟨h.uses hreached.1, hreached.2.mono (fun stepId hstep => ?_)
    fun stepId hstep => ?_⟩
  · obtain ⟨a, ha, hid, hstep, hstatus⟩ := hstep
    obtain ⟨b, hb, hid', hstep', hstatus'⟩ := h.status ha (by simp [hstatus])
    exact ⟨b, hb, hid'.trans hid, hstep'.trans hstep, hstatus'.trans hstatus⟩
  · obtain ⟨a, ha, hid, hstep, hstatus⟩ := hstep
    obtain ⟨b, hb, hid', hstep', hstatus'⟩ := h.status ha (by
      rcases hstatus with hstatus | hstatus <;> simp [hstatus])
    exact ⟨b, hb, hid'.trans hid, hstep'.trans hstep,
      by rw [hstatus']; exact hstatus⟩

/-- Only what a step stores has to be looked at. -/
theorem Gate.extend (hw : w.Gate) (hgrows : w.Grows w')
    (hrows : ∀ id row, w'.db.instances.find? id = some row →
      w.db.instances.find? id = some row ∨
        ∃ graph, w'.Reached id graph row.currentStepId)
    (happrovals : ∀ id a', w'.db.approvals.find? id = some a' →
      (∃ a, w.db.approvals.find? id = some a ∧ a.Becomes a') ∨
        ∃ graph, w'.Reached a'.workflowInstanceId graph a'.stepId)
    (hdispatches : ∀ d ∈ w'.dispatches, d ∈ w.dispatches ∨ ∃ graph,
      w'.Reached d.instanceId graph d.stepId ∧ graph.IsSubmitTicket d.stepId) :
    w'.Gate where
  rows id row hrow := by
    rcases hrows id row hrow with hold | hnew
    · obtain ⟨graph, hreached⟩ := hw.rows id row hold
      exact ⟨graph, hgrows.reached hreached⟩
    · exact hnew
  approvals id a' ha' := by
    rcases happrovals id a' ha' with ⟨a, ha, hbecomes⟩ | hnew
    · obtain ⟨graph, hreached⟩ := hw.approvals id a ha
      rw [hbecomes.workflowInstanceId, hbecomes.stepId]
      exact ⟨graph, hgrows.reached hreached⟩
    · exact hnew
  dispatches d hd := by
    rcases hdispatches d hd with hold | hnew
    · obtain ⟨graph, hreached, hkind⟩ := hw.dispatches d hold
      exact ⟨graph, hgrows.reached hreached, hkind⟩
    · exact hnew

/-- A step that stores no step. -/
theorem Gate.of_eq (hw : w.Gate) (hgrows : w.Grows w')
    (hinstances : w'.db.instances = w.db.instances)
    (happrovals : w'.db.approvals = w.db.approvals)
    (hdispatches : w'.dispatches = w.dispatches) : w'.Gate := by
  refine hw.extend hgrows (fun id row hrow => Or.inl ?_)
    (fun id a ha => Or.inl ?_) fun d hd => Or.inl ?_
  · rw [← hinstances]
    exact hrow
  · rw [happrovals] at ha
    exact ⟨a, ha, .refl a⟩
  · rw [← hdispatches]
    exact hd

end World

/-- What a request in this stage relies on. -/
def Stage.Gated (w : World) : Stage → Prop
  | .quiet | .saved .. => True
  | .defined definition => w.db.graphOf definition.id = some definition.graph
  | .created definition instanceId => w.Uses instanceId definition.graph
  | .flipped approval decision _ | .resuming approval decision =>
      w.Settled approval decision
  | .loaded (.submit ..) row =>
      ∃ graph, w.Reached row.id graph row.currentStepId ∧
      w.db.graphOf row.workflowDefinitionId = some graph
  | .loaded (.resume approval decision) row => w.Settled approval decision ∧
      approval.workflowInstanceId = row.id ∧
      ∃ graph, w.Uses row.id graph ∧
        w.db.graphOf row.workflowDefinitionId = some graph
  | .driving t => w.Reached t.row.id t.definition.graph t.stepId ∧
      Engine.OutcomeAt t.definition.graph t.stepId t.outcome
  | .opened t stepId => w.Reached t.row.id t.definition.graph stepId

def Phase.Gated (w : World) (φ : Phase) : Prop :=
  (∀ a ∈ φ.known, w.Stored a) ∧ φ.stage.Gated w

/-- Filing tickets leads along `next` arrows and through branches. -/
theorem Task.Ahead.reached {w : World} {t : Task} {stepId : String}
    {outcome : Outcome} (h : t.Ahead stepId outcome)
    (ht : w.Reached t.row.id t.definition.graph t.stepId ∧
      Engine.OutcomeAt t.definition.graph t.stepId t.outcome) :
    w.Reached t.row.id t.definition.graph stepId ∧
      Engine.OutcomeAt t.definition.graph stepId outcome := by
  induction h with
  | here => exact ht
  | next h hresume ih =>
      obtain ⟨s, next, hs, hkind, hpath, hat⟩ :=
        Engine.resumeAfterTicketDispatch_ok hresume
      refine ⟨⟨ih.1.1, ?_⟩, hat⟩
      exact (ih.1.2.edge .next hs (by simp [hkind, StepKind.edges]) (by simp)
        (by simp)).branchPath hpath

/-- What is saved was reached. -/
theorem Stage.Saves.reached {w : World} {stage : Stage} {row : WorkflowInstance}
    {stepId : String} {answers : Answers} {status : InstanceStatus}
    (h : stage.Saves row stepId answers status) (hstage : stage.Gated w) :
    ∃ graph, w.Reached row.id graph stepId := by
  cases h with
  | settled h hstatus => exact ⟨_, (h.reached hstage).1⟩
  | failed h => exact ⟨_, (h.reached hstage).1⟩
  | opened => exact ⟨_, hstage⟩

end Servcat
