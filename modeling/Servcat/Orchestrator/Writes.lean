/-
Which tables the parts of a request write.  Looking up an approver writes
none, opening an approval or settling it writes approvals only, driving an
instance on writes instances, and filing a ticket nothing but the tickets and
the list of calls.
-/
import Servcat.Atomic.Leaves
import Servcat.Orchestrator

namespace Servcat

open Atomic Keyed

namespace World

/-- At most the log differs. -/
def LogsOnly (w w' : World) : Prop :=
  ∃ newer, w' = { w with log := newer ++ w.log }

/-- At most instances and the log differ. -/
def InstancesOnly (w w' : World) : Prop :=
  ∃ instances newer,
    w' = { w with
      db := { w.db with instances := instances }
      log := newer ++ w.log }

/-- At most approvals and the log differ. -/
def ApprovalsOnly (w w' : World) : Prop :=
  ∃ approvals newer,
    w' = { w with db := w.db.withApprovals approvals, log := newer ++ w.log }

/-- At most tickets differ. -/
def TicketsOnly (w w' : World) : Prop :=
  ∃ tickets, w' = { w with db := w.db.withTickets tickets }

/-- At most tickets and the calls of connectors differ. -/
def FilingOnly (w w' : World) : Prop :=
  ∃ tickets newer,
    w' = { w with
      db := w.db.withTickets tickets
      dispatches := newer ++ w.dispatches }

variable {w w' : World}

theorem LogsOnly.refl (w : World) : w.LogsOnly w :=
  ⟨[], rfl⟩

theorem InstancesOnly.refl (w : World) : w.InstancesOnly w :=
  ⟨w.db.instances, [], rfl⟩

theorem ApprovalsOnly.refl (w : World) : w.ApprovalsOnly w :=
  ⟨w.db.approvals, [], rfl⟩

theorem TicketsOnly.refl (w : World) : w.TicketsOnly w :=
  ⟨w.db.tickets, rfl⟩

theorem FilingOnly.refl (w : World) : w.FilingOnly w :=
  ⟨w.db.tickets, [], rfl⟩

theorem LogsOnly.instancesOnly (h : w.LogsOnly w') : w.InstancesOnly w' := by
  obtain ⟨newer, rfl⟩ := h
  exact ⟨w.db.instances, newer, rfl⟩

theorem LogsOnly.approvalsOnly (h : w.LogsOnly w') : w.ApprovalsOnly w' := by
  obtain ⟨newer, rfl⟩ := h
  exact ⟨w.db.approvals, newer, rfl⟩

theorem TicketsOnly.filingOnly (h : w.TicketsOnly w') : w.FilingOnly w' := by
  obtain ⟨tickets, rfl⟩ := h
  exact ⟨tickets, [], rfl⟩

end World

/-- The program changes nothing. -/
abbrev ReadOnly {ε α : Type} (p : Async ε α) : Prop :=
  Leaves Eq p

/-- What changes nothing changes no more than anything else. -/
theorem ReadOnly.leaves {ε α : Type} {still : World → World → Prop}
    (hrefl : ∀ w, still w w) {p : Async ε α}
    (hp : ReadOnly p) : Leaves still p :=
  hp.mono fun w _ h => h ▸ hrefl w

section Statements

variable {ε α β : Type} {still : World → World → Prop}

theorem select_leaves (hrefl : ∀ w, still w w) (f : World → α) :
    Leaves still (select f) := by
  refine .atomic fun i w => ?_
  cases i.fault <;> exact hrefl w

/-- Reading in front of the rest of a program. -/
theorem read_leaves (hrefl : ∀ w, still w w) {f : World → α} {g : DbError → ε}
    {k : α → Async ε β} (hk : ∀ a, Leaves still (k a)) :
    Leaves still ((select f).mapError g >>= k) :=
  (select_leaves hrefl f).mapError.bind hk

theorem execute_leaves (hrefl : ∀ w, still w w)
    {f : Input → World → Option (α × Db × List Event)}
    (h : ∀ i w a db events, f i w = some (a, db, events) →
      still w (w.commit i.thread db events)) : Leaves still (execute f) := by
  refine .atomic fun i w => ?_
  cases hf : f i w with
  | none => exact hrefl w
  | some result =>
      obtain ⟨a, db, events⟩ := result
      cases i.fault with
      | none | lostReply => exact h i w a db events hf
      | lostRequest => exact hrefl w

theorem note_leaves (event : Event) :
    Leaves World.LogsOnly (note event : Async ε Unit) :=
  .atomic fun i _ => ⟨[(i.thread, event)], rfl⟩

end Statements

namespace Repositories

theorem Instances.load_leaves (id : Uuid) (fieldKey : Option String) :
    Leaves World.LogsOnly (load id fieldKey) := by
  refine .atomic fun i w => ?_
  cases hrow : w.db.instances.find? id with
  | none => cases i.fault <;> exact .refl w
  | some row =>
      cases i.fault with
      | none => exact ⟨[(i.thread, .began { row, fieldKey })], rfl⟩
      | lostRequest | lostReply => exact .refl w

theorem Instances.create_leaves (definitionId itemId requesterId : Uuid)
    (stepId : String) :
    Leaves World.InstancesOnly
      (create definitionId itemId requesterId stepId) := by
  refine .bind (execute_leaves .refl fun i w id db events hsome => ?_)
    fun id => ?_
  · obtain ⟨db', hinsert, heq⟩ := Option.map_eq_some_iff.mp hsome
    cases heq
    obtain ⟨instances, -, rfl⟩ := Db.insertInstance_inserts hinsert
    exact ⟨instances, [], rfl⟩
  · have hload :=
      (load_leaves id none).mono fun _ _ => World.LogsOnly.instancesOnly
    exact hload.bind fun found => .exit _

theorem Instances.saveProgress_leaves (id : Uuid) (stepId : String)
    (answersJson : JsonValue) (status : InstanceStatus) :
    Leaves World.InstancesOnly (saveProgress id stepId answersJson status) := by
  refine .bind (execute_leaves .refl fun i w a db events hsome => ?_) fun _ =>
    select_leaves .refl _
  cases hsome
  exact ⟨_, _, rfl⟩

/-- The row is inserted, and read back. -/
theorem Approvals.create_leaves (instanceId : Uuid) (stepId : String)
    (approverUserId : Uuid) (expiresAt : Option Timestamp) :
    Leaves World.ApprovalsOnly
      (create instanceId stepId approverUserId expiresAt) := by
  refine .bind (execute_leaves .refl fun i w id db events hsome => ?_) fun id =>
    (select_leaves .refl _).bind fun found => .exit _
  obtain ⟨⟨row, db'⟩, hinsert, heq⟩ := Option.map_eq_some_iff.mp hsome
  cases heq
  obtain ⟨-, approvals, -, rfl⟩ := Db.insertApproval_inserts hinsert
  exact ⟨approvals, _, rfl⟩

theorem Approvals.decide_leaves (id : Uuid) (status : ApprovalStatus)
    (comment : Option String) :
    Leaves World.ApprovalsOnly (decide id status comment) := by
  refine execute_leaves .refl fun i w b db events hsome => ?_
  cases hsome
  exact ⟨_, _, rfl⟩

theorem Tickets.create_leaves (instanceId : Uuid) (target : TargetSystem)
    (payload : JsonValue) :
    Leaves World.TicketsOnly (create instanceId target payload) := by
  refine .bind (execute_leaves .refl fun i w id db events hsome => ?_) fun id =>
    (select_leaves .refl _).bind fun found => .exit _
  obtain ⟨db', hinsert, heq⟩ := Option.map_eq_some_iff.mp hsome
  cases heq
  obtain ⟨tickets, -, rfl⟩ := Db.insertTicket_inserts hinsert
  exact ⟨tickets, rfl⟩

theorem Tickets.markSent_leaves (id : Uuid) (result : DispatchResult) :
    Leaves World.TicketsOnly
      (markSent id result.externalTicketId result.externalTicketUrl) := by
  refine execute_leaves .refl fun i w a db events hsome => ?_
  rw [Db.markSent_eq, Option.map_map] at hsome
  obtain ⟨stored, -, heq⟩ := Option.map_eq_some_iff.mp hsome
  cases heq
  exact ⟨_, rfl⟩

theorem Tickets.markFailed_leaves (id : Uuid) (error : String) :
    Leaves World.TicketsOnly (markFailed id error) := by
  refine execute_leaves .refl fun i w a db events hsome => ?_
  rw [Db.markFailed_eq, Option.map_map] at hsome
  obtain ⟨stored, -, heq⟩ := Option.map_eq_some_iff.mp hsome
  cases heq
  exact ⟨_, rfl⟩

end Repositories

namespace Approvals

theorem resolveApproverUserId_readOnly (deps : Deps) (requester : User)
    (resolution : ApproverResolution) :
    ReadOnly (resolveApproverUserId deps requester resolution) := by
  cases resolution with
  | static userId => exact .exit _
  | managerOfRequester => exact .exit _
  | roleInDepartment role =>
      exact .okOr fun departmentId =>
        read_leaves .refl fun candidates => .exit _

theorem expiresAt_readOnly (timeoutSeconds : Option Int64) :
    ReadOnly (expiresAt timeoutSeconds) := by
  cases timeoutSeconds with
  | none => exact .exit _
  | some secs =>
      refine .bind (.atomic fun _ _ => rfl) fun now => ?_
      cases deadline now secs <;> exact .exit _

theorem notifyNewApproval_leaves (approval : PendingApproval)
    (requester : User) :
    Leaves World.LogsOnly (notifyNewApproval approval requester) := by
  refine read_leaves .refl fun approver => ?_
  cases approver with
  | none => exact .exit _
  | some approver =>
      refine read_leaves .refl fun row => ?_
      cases row with
      | none => exact read_leaves .refl fun settings => note_leaves _
      | some row =>
          exact read_leaves .refl fun item => read_leaves .refl fun settings =>
            note_leaves _

theorem createForInstance_leaves (deps : Deps) (instanceId : Uuid)
    (stepId : String) (requester : User) (resolution : ApproverResolution)
    (timeoutSeconds : Option Int64) :
    Leaves World.ApprovalsOnly
      (createForInstance deps instanceId stepId requester resolution
        timeoutSeconds) := by
  have hresolve := resolveApproverUserId_readOnly deps requester resolution
  have hexpires := expiresAt_readOnly timeoutSeconds
  refine .bind (ReadOnly.leaves .refl hresolve) fun userId => ?_
  refine .bind (ReadOnly.leaves .refl hexpires) fun expiresAt => ?_
  refine .bind (Repositories.Approvals.create_leaves _ _ _ _).mapError
    fun approval => ?_
  have hnotify := (notifyNewApproval_leaves approval requester).mono
    fun _ _ => World.LogsOnly.approvalsOnly
  exact hnotify.bind fun _ => .exit _

end Approvals

theorem Orchestrator.dispatchTicket_leaves (deps : Deps)
    (definition : WorkflowDefinition) (instanceId : Uuid) (stepId : String)
    (requesterUserId : Uuid) (answers : Answers) :
    Leaves World.FilingOnly
      (dispatchTicket deps definition instanceId stepId requesterUserId
        answers) := by
  have htickets : ∀ {α : Type} {p : Async DbError α},
      Leaves World.TicketsOnly p → Leaves World.FilingOnly (db p) := fun h =>
    (h.mono fun _ _ => World.TicketsOnly.filingOnly).mapError
  unfold dispatchTicket
  refine .okOr fun target => .okOr fun mapping => .okOr fun connector => ?_
  refine read_leaves .refl fun requester => .okOr fun requester => ?_
  refine read_leaves .refl fun row => .okOr fun row => ?_
  refine read_leaves .refl fun item => .okOr fun item =>
    .bind (.exit _) fun payload => ?_
  refine .bind (htickets (Repositories.Tickets.create_leaves _ _ _))
    fun ticket => ?_
  refine .bind (.atomic fun i w => ⟨w.db.tickets, [_], rfl⟩) fun result => ?_
  cases result with
  | ok result => exact htickets (Repositories.Tickets.markSent_leaves _ _)
  | error err =>
      exact .bind (htickets (Repositories.Tickets.markFailed_leaves _ _))
        fun _ => .exit _

end Servcat
