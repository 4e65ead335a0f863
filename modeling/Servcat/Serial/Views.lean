/-
The records of one instance, and what an operation does to them: an operation
touches the records of at most one instance.
-/
import Servcat.Serial.Operations

namespace Servcat

open Atomic Keyed

/-- Everything stored about one instance, oldest row first, and the calls of
connectors made for it, newest first. -/
structure View where
  row : Option WorkflowInstance
  approvals : List PendingApproval
  tickets : List Ticket
  dispatches : List Dispatch

/-- The graph of a definition, which never changes. -/
def Db.graphOf (db : Db) (definitionId : Uuid) : Option WorkflowGraph :=
  (db.definitions.find? definitionId).map WorkflowDefinition.graph

theorem Db.graphOf_of_find? {db : Db} {definitionId : Uuid}
    {definition : WorkflowDefinition}
    (h : db.definitions.find? definitionId = some definition) :
    db.graphOf definitionId = some definition.graph := by
  rw [graphOf, h, Option.map_some]

theorem World.Drift.graphOf {w w' : World} (h : w.Drift w')
    {definitionId : Uuid} {graph : WorkflowGraph}
    (hgraph : w.db.graphOf definitionId = some graph) :
    w'.db.graphOf definitionId = some graph := by
  obtain ⟨definition, hdefinition, rfl⟩ := Option.map_eq_some_iff.mp hgraph
  obtain ⟨isPublished, hfound⟩ :=
    h.definitions definitionId definition hdefinition
  rw [Db.graphOf, hfound, Option.map_some]

namespace Core

def view (c : Core) (id : Uuid) : View where
  row := c.db.instances.find? id
  approvals := c.db.approvals.rows.filter fun a => a.workflowInstanceId = id
  tickets := c.db.tickets.rows.filter fun t => t.workflowInstanceId = id
  dispatches := c.dispatches.filter fun d => d.instanceId = id

/-- Only the records of instance `id` differ. -/
structure Touches (id : Uuid) (c c' : Core) : Prop where
  definitions : c'.db.definitions = c.db.definitions
  others : ∀ other, other ≠ id → c'.view other = c.view other

namespace Touches

variable {id : Uuid} {c c' c'' : Core}

theorem graphOf (h : Touches id c c') : c'.db.graphOf = c.db.graphOf := by
  unfold Db.graphOf
  rw [h.definitions]

theorem refl (id : Uuid) (c : Core) : Touches id c c :=
  ⟨rfl, fun _ _ => rfl⟩

theorem trans (h : Touches id c c')
    (h' : Touches id c' c'') : Touches id c c'' :=
  ⟨h'.definitions.trans h.definitions,
    fun other hne => (h'.others other hne).trans (h.others other hne)⟩

end Touches

variable (c : Core) {id : Uuid}

theorem view_save (id : Uuid) (stepId : String) (answers : Answers)
    (status : InstanceStatus) : (c.save id stepId answers status).view id =
      { c.view id with
        row := (c.view id).row.map
          (Db.progressed stepId (.object answers) status c.now) } := by
  simp only [view, find?_save, ↓reduceIte]
  rfl

theorem touches_save (id : Uuid) (stepId : String) (answers : Answers)
    (status : InstanceStatus) :
    Touches id c (c.save id stepId answers status) := by
  refine ⟨rfl, fun other hne => ?_⟩
  simp only [view, find?_save]
  rw [if_neg hne]
  rfl

variable {c}

theorem view_opened (id : Uuid) {approval : PendingApproval}
    {approvals : Table PendingApproval.id}
    (hinsert : c.db.approvals.insert? approval = some approvals)
    (hid : approval.workflowInstanceId = id) : (c.opened approvals).view id =
      { c.view id with approvals := (c.view id).approvals ++ [approval] } := by
  have hrows := (Table.insert?_eq_some_iff.mp hinsert).2
  simp [view, opened, Db.withApprovals, hrows, List.filter_append, hid]

theorem touches_opened {approval : PendingApproval}
    {approvals : Table PendingApproval.id}
    (hinsert : c.db.approvals.insert? approval = some approvals)
    (hid : approval.workflowInstanceId = id) :
    Touches id c (c.opened approvals) := by
  have hrows := (Table.insert?_eq_some_iff.mp hinsert).2
  refine ⟨rfl, fun other hne => ?_⟩
  simp [view, opened, Db.withApprovals, hrows, List.filter_append, hid,
    Ne.symm hne]

theorem view_filed (id : Uuid) {ticket : Ticket} {tickets : Table Ticket.id}
    {dispatch : Dispatch} (hinsert : c.db.tickets.insert? ticket = some tickets)
    (hticket : ticket.workflowInstanceId = id)
    (hdispatch : dispatch.instanceId = id) :
    (c.filed tickets dispatch).view id =
      { c.view id with
        tickets := (c.view id).tickets ++ [ticket]
        dispatches := dispatch :: (c.view id).dispatches } := by
  have hrows := (Table.insert?_eq_some_iff.mp hinsert).2
  simp [view, filed, Db.withTickets, hrows, List.filter_append, hticket,
    hdispatch]

theorem touches_filed {ticket : Ticket} {tickets : Table Ticket.id}
    {dispatch : Dispatch} (hinsert : c.db.tickets.insert? ticket = some tickets)
    (hticket : ticket.workflowInstanceId = id)
    (hdispatch : dispatch.instanceId = id) :
    Touches id c (c.filed tickets dispatch) := by
  have hrows := (Table.insert?_eq_some_iff.mp hinsert).2
  refine ⟨rfl, fun other hne => ?_⟩
  simp [view, filed, Db.withTickets, hrows, List.filter_append, hticket,
    hdispatch, Ne.symm hne]

theorem view_created {row : WorkflowInstance}
    {instances : Table WorkflowInstance.id}
    (hinsert : c.db.instances.insert? row = some instances) :
    (c.created instances).view row.id =
      { c.view row.id with row := some row } := by
  simp [view, created, Table.find?_inserted hinsert]

theorem touches_created {row : WorkflowInstance}
    {instances : Table WorkflowInstance.id}
    (hinsert : c.db.instances.insert? row = some instances) :
    Touches row.id c (c.created instances) := by
  refine ⟨rfl, fun other hne => ?_⟩
  simp [view, created, Table.find?_insert hinsert, hne]

theorem view_flipped (approvalId : Uuid) (status : ApprovalStatus)
    (comment : Option String) (id : Uuid) :
    (c.flipped approvalId status comment).view id =
      { c.view id with
        approvals := (c.view id).approvals.map fun a =>
          if a.id = approvalId then Db.decided status comment c.now a
          else a } := by
  have hkeep : (fun a : PendingApproval => decide (a.workflowInstanceId = id)) ∘
      (fun a => if a.id = approvalId then Db.decided status comment c.now a
                else a) =
        fun a => decide (a.workflowInstanceId = id) := by
    funext a
    by_cases h : a.id = approvalId <;> simp [h]
  simp [view, flipped, Db.updateApproval, Table.modify, List.filter_map, hkeep]

theorem touches_flipped {approval : PendingApproval} {status : ApprovalStatus}
    {comment : Option String} (hmem : approval ∈ c.db.approvals.rows) :
    Touches approval.workflowInstanceId c
      (c.flipped approval.id status comment) := by
  refine ⟨rfl, fun other hne => ?_⟩
  have hsame : (c.view other).approvals.map (fun a =>
      if a.id = approval.id then Db.decided status comment c.now a else a) =
        (c.view other).approvals := by
    refine (List.map_congr_left fun a ha => if_neg fun heq => ?_).trans
      (List.map_id _)
    obtain ⟨ha, hother⟩ := List.mem_filter.mp ha
    have hsame := Table.find?_of_mem ha
    rw [heq, Table.find?_of_mem hmem, Option.some.injEq] at hsame
    subst hsame
    exact hne (of_decide_eq_true hother).symm
  rw [view_flipped, hsame]

end Core

variable {deps : Deps} {definition : WorkflowDefinition}
  {instanceId requesterUserId : Uuid} {answers : Answers} {stepId : String}
  {c c' : Core}

theorem Dispatched.touches {x : Exit ApiError Unit}
    (h : Dispatched deps definition instanceId requesterUserId answers
      stepId c x c') :
    c.Touches instanceId c' := by
  cases h with
  | unsent horder => exact .refl _ _
  | sent horder hresult hstored hinsert =>
      exact Core.touches_filed hinsert rfl rfl
  | refused horder hresult hstored hinsert =>
      exact Core.touches_filed hinsert rfl rfl
  | unrecorded horder hanswer hroom hinsert =>
      exact Core.touches_filed hinsert rfl rfl

theorem Driven.touches {result : Except EngineError (String × Outcome)}
    {x : Exit ApiError WorkflowInstance}
    (h : Driven deps definition instanceId requesterUserId answers
      result c x c') :
    c.Touches instanceId c' := by
  induction h with
  | stuck | refused | panicked => exact .refl _ _
  | settled => exact Core.touches_save ..
  | opened hterms hinsert =>
      exact (Core.touches_opened hinsert rfl).trans (Core.touches_save ..)
  | failed hdispatch => exact hdispatch.touches.trans (Core.touches_save ..)
  | advanced hdispatch hrest ih => exact hdispatch.touches.trans ih

theorem Resumed.touches {decision : ApprovalDecision}
    {x : Exit ApiError WorkflowInstance}
    (h : Resumed deps instanceId stepId decision c x c') :
    c.Touches instanceId c' := by
  cases h with
  | unknown | undefined => exact .refl _ _
  | driven hrow hdefinition hdriven => exact hdriven.touches

theorem Driven.expiryFailures {result : Except EngineError (String × Outcome)}
    {x : Exit ApiError WorkflowInstance}
    (h : Driven deps definition instanceId requesterUserId answers
      result c x c') :
    c'.expiryFailures = c.expiryFailures := by
  induction h with
  | stuck | settled | refused | panicked | opened => rfl
  | failed hdispatch => cases hdispatch <;> rfl
  | advanced hdispatch hrest ih => cases hdispatch with | sent => exact ih

theorem Resumed.expiryFailures {decision : ApprovalDecision}
    {x : Exit ApiError WorkflowInstance}
    (h : Resumed deps instanceId stepId decision c x c') :
    c'.expiryFailures = c.expiryFailures := by
  cases h with
  | unknown | undefined => rfl
  | driven hrow hdefinition hdriven => exact hdriven.expiryFailures

/-- Definitions and catalog items are as they were. -/
def Core.SameCatalog (c c' : Core) : Prop :=
  c'.db.definitions = c.db.definitions ∧ c'.db.items = c.db.items

theorem Dispatched.sameCatalog {x : Exit ApiError Unit}
    (h : Dispatched deps definition instanceId requesterUserId answers
      stepId c x c') :
    c.SameCatalog c' := by
  cases h <;> exact ⟨rfl, rfl⟩

theorem Driven.sameCatalog {result : Except EngineError (String × Outcome)}
    {x : Exit ApiError WorkflowInstance}
    (h : Driven deps definition instanceId requesterUserId answers
      result c x c') :
    c.SameCatalog c' := by
  induction h with
  | stuck | settled | refused | panicked | opened => exact ⟨rfl, rfl⟩
  | failed hdispatch => exact hdispatch.sameCatalog
  | advanced hdispatch hrest ih =>
      obtain ⟨hdefinitions, hitems⟩ := hdispatch.sameCatalog
      exact ⟨ih.1.trans hdefinitions, ih.2.trans hitems⟩

theorem Resumed.sameCatalog {decision : ApprovalDecision}
    {x : Exit ApiError WorkflowInstance}
    (h : Resumed deps instanceId stepId decision c x c') :
    c.SameCatalog c' := by
  cases h with
  | unknown | undefined => exact ⟨rfl, rfl⟩
  | driven hrow hdefinition hdriven => exact hdriven.sameCatalog

theorem Performed.sameCatalog {op : Operation}
    {x : Exit ApiError (Option WorkflowInstance)}
    (h : Performed deps op c x c') : c.SameCatalog c' := by
  cases h with
  | declined | skipped => exact ⟨rfl, rfl⟩
  | started hitem hdefinition hstart hinsert hdriven =>
      exact hdriven.sameCatalog
  | submitted hrow hrequester hstatus hdefinition hengine hdriven =>
      exact hdriven.sameCatalog
  | decided happroval huser hpending hresumed => exact hresumed.sameCatalog
  | expired hpending hresumed | expiryPanicked hpending hresumed =>
      exact hresumed.sameCatalog
  | expiryFailed hpending hresumed => exact hresumed.sameCatalog

end Servcat
