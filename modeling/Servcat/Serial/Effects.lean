/-
What the side effects of one operation amount to when nothing else runs: the
walk through the graph as a relation between the states before and after it.
-/
import Servcat.Server

namespace Servcat

open Atomic Keyed

/-- The expired approval whose instance could not be resumed. -/
def Event.expiryFailure? : Event → Option (Uuid × ApiError)
  | .expiryResumeFailed approvalId err => some (approvalId, err)
  | _ => none

/-- The state without its log, of which only the expiry failures are kept. -/
structure Core where
  db : Db
  now : Timestamp
  dispatches : List Dispatch
  expiryFailures : List (Uuid × ApiError)

def World.core (w : World) : Core where
  db := w.db
  now := w.now
  dispatches := w.dispatches
  expiryFailures := w.log.filterMap fun entry => entry.2.expiryFailure?

@[simp] theorem World.core_db (w : World) : w.core.db = w.db :=
  rfl

theorem World.core_record {w : World} {thread : Nat} {event : Event}
    (h : event.expiryFailure? = none) :
    (w.record thread event).core = w.core := by
  simp [World.core, World.record, h]

theorem World.core_commit {w : World} {thread : Nat} {db : Db}
    {events : List Event} (h : ∀ event ∈ events, event.expiryFailure? = none) :
    (w.commit thread db events).core = { w.core with db := db } := by
  have hnone : (events.map fun e => (thread, e)).filterMap
      (fun entry => entry.2.expiryFailure?) = [] := by
    simpa [List.filterMap_eq_nil_iff] using h
  simp [World.core, World.commit, List.filterMap_append, hnone]

section Rules

variable {ε ε' α β : Type} {w : World}

theorem select_wp {f : World → α} {post : Exit DbError α → World → Prop}
    (h : post (.ok (f w)) w) : wp Input.Admitted (select f) post w := by
  refine (wp_atomic _ _ _).mpr fun i hi => ?_
  rw [hi.1]
  exact h

theorem execute_wp {f : Input → World → Option (α × Db × List Event)}
    {post : Exit DbError α → World → Prop}
    (hnone : ∀ i, i.Admitted w → f i w = none → post (.error .sqlx) w)
    (hsome : ∀ i a db events, i.Admitted w → f i w = some (a, db, events) →
      post (.ok a) (w.commit i.thread db events)) :
    wp Input.Admitted (execute f) post w := by
  refine (wp_atomic _ _ _).mpr fun i hi => ?_
  cases hf : f i w with
  | none => simpa using hnone i hi hf
  | some result =>
      obtain ⟨a, db, events⟩ := result
      simp only [hi.1]
      exact hsome i a db events hi hf

theorem execute_ok_wp {f : Input → World → Option (α × Db × List Event)}
    {post : Exit DbError α → World → Prop}
    (h : ∀ i, i.Admitted w → ∃ a db events, f i w = some (a, db, events) ∧
      post (.ok a) (w.commit i.thread db events)) :
    wp Input.Admitted (execute f) post w := by
  refine execute_wp (fun i hi hnone => ?_) (fun i a db events hi hsome => ?_)
  · obtain ⟨a, db, events, hf, -⟩ := h i hi
    rw [hf] at hnone
    cases hnone
  · obtain ⟨a', db', events', hf, hpost⟩ := h i hi
    rw [hsome] at hf
    cases hf
    exact hpost

theorem note_wp {event : Event} {post : Exit ε Unit → World → Prop}
    (h : ∀ thread, post (.ok ()) (w.record thread event)) :
    wp Input.Admitted (note event) post w :=
  (wp_atomic _ _ _).mpr fun i _ => h i.thread

/-- Reading in front of the rest of a program. -/
theorem wp_read {f : World → α} {g : DbError → ε} {k : α → Async ε β}
    {post : Exit ε β → World → Prop} (h : wp Input.Admitted (k (f w)) post w) :
    wp Input.Admitted ((select f).mapError g >>= k) post w := by
  rw [wp_bind, wp_mapError]
  exact select_wp h

theorem wp_note {event : Event} {k : Unit → Async ε β}
    {post : Exit ε β → World → Prop}
    (h : ∀ thread, wp Input.Admitted (k ()) post (w.record thread event)) :
    wp Input.Admitted (note event >>= k) post w := by
  rw [wp_bind]
  exact note_wp h

theorem wp_okOr {e : ε} {value : Option α} {k : α → Async ε β}
    {post : Exit ε β → World → Prop} (hnone : value = none → post (.error e) w)
    (hsome : ∀ a, value = some a → wp Input.Admitted (k a) post w) :
    wp Input.Admitted (Program.okOr e value >>= k) post w := by
  cases value with
  | none => exact hnone rfl
  | some a => exact hsome a rfl

theorem wp_liftExcept {result : Except ε α} {k : α → Async ε β}
    {post : Exit ε β → World → Prop}
    (herror : ∀ e, result = .error e → post (.error e) w)
    (hok : ∀ a, result = .ok a → wp Input.Admitted (k a) post w) :
    wp Input.Admitted (Program.liftExcept result >>= k) post w := by
  cases result with
  | error e => exact herror e rfl
  | ok a => exact hok a rfl

end Rules

/-- The active users with a role in a department, by display name. -/
def candidates (deps : Deps) (db : Db) (role : Role)
    (departmentId : Uuid) : List User :=
  (db.users.rows.filter fun u =>
    u.role == role && u.departmentId == some departmentId &&
      u.isActive).insertionSort
    fun a b => deps.collation a.displayName b.displayName = true

/-- Whom `resolveApproverUserId` finds. -/
def approverOf (deps : Deps) (db : Db) (requester : User) :
    ApproverResolution → Except ApprovalsError Uuid
  | .static userId => .ok userId
  | .managerOfRequester =>
      requester.managerUserId.elim (.error .requesterHasNoManager) .ok
  | .roleInDepartment role =>
      requester.departmentId.elim (.error .requesterHasNoDepartment)
        fun departmentId =>
        ((candidates deps db role departmentId).head?.map User.id).elim
          (.error (.noUserWithRoleInDepartment role)) .ok

/-- When an approval opened now expires, or `none` where `expiresAt` panics. -/
def expiryOf (now : Timestamp) : Option Int64 → Option (Option Timestamp)
  | none => some none
  | some secs => (Approvals.deadline now secs).map some

/-- The approver and the deadline an approval step is opened with, or the way in
which opening it fails. -/
def termsFor (deps : Deps) (c : Core) (requester : User)
    (resolution : ApproverResolution) (timeoutSeconds : Option Int64) :
    Exit ApiError (Uuid × Option Timestamp) :=
  match approverOf deps c.db requester resolution with
  | .error e => .error (.ofApprovals e)
  | .ok approverUserId =>
      match expiryOf c.now timeoutSeconds with
      | none => .panicked
      | some expiresAt =>
          if (c.db.users.find? approverUserId).isSome then
            .ok (approverUserId, expiresAt)
          else .error .internal

def approvalTerms (deps : Deps) (c : Core) (requesterUserId : Uuid)
    (resolution : ApproverResolution) (timeoutSeconds : Option Int64) :
    Exit ApiError (Uuid × Option Timestamp) :=
  match c.db.users.find? requesterUserId with
  | none => .error .internal
  | some requester => termsFor deps c requester resolution timeoutSeconds

/-- What a connector is asked to file, and which one is asked. -/
def ticketOrder (deps : Deps) (definition : WorkflowDefinition) (db : Db)
    (instanceId requesterUserId : Uuid) (answers : Answers) :
    Option (TargetSystem × TicketConnector × JsonValue) := do
  let targetSystem ← definition.targetSystem
  let mapping ← definition.fieldMapping
  let connector ← deps.connectors targetSystem
  let requester ← db.users.find? requesterUserId
  let row ← db.instances.find? instanceId
  let item ← db.items.find? row.catalogItemId
  let payload ← (renderFieldMapping deps.oneOff mapping
    { answers := .object answers
      requesterEmail := requester.email
      requesterDisplayName := requester.displayName
      instanceId := instanceId.toString
      catalogItemName := item.name }).toOption
  return (targetSystem, connector, payload)

/-- The row an accepted ticket ends up with. -/
def sentTicket (id workflowInstanceId : Uuid) (targetSystem : TargetSystem)
    (payload : JsonValue) (result : DispatchResult) : Ticket where
  id := id
  workflowInstanceId := workflowInstanceId
  targetSystem := targetSystem
  renderedPayloadJson := payload
  externalTicketId := some result.externalTicketId
  externalTicketUrl := result.externalTicketUrl
  dispatchStatus := .sent
  lastError := none

/-- The row a refused ticket ends up with. -/
def failedTicket (id workflowInstanceId : Uuid) (targetSystem : TargetSystem)
    (payload : JsonValue) (error : String) : Ticket where
  id := id
  workflowInstanceId := workflowInstanceId
  targetSystem := targetSystem
  renderedPayloadJson := payload
  externalTicketId := none
  externalTicketUrl := none
  dispatchStatus := .failed
  lastError := some error

/-- A connector was called, and a row was inserted for the call. -/
def Core.filed (c : Core) (tickets : Table Ticket.id)
    (dispatch : Dispatch) : Core :=
  { c with
    db := c.db.withTickets tickets
    dispatches := dispatch :: c.dispatches }

/-- A row was inserted into `pending_approvals`. -/
def Core.opened (c : Core) (approvals : Table PendingApproval.id) : Core :=
  { c with db := c.db.withApprovals approvals }

/-- `save_progress` on the row of an instance. -/
def Core.save (c : Core) (instanceId : Uuid) (stepId : String)
    (answers : Answers) (status : InstanceStatus) : Core :=
  { c with
    db := c.db.updateInstance instanceId stepId (.object answers) status c.now }

/-- The effect of `dispatchTicket`.  A row that has no room for the answer of
the connector stays as it was inserted. -/
inductive Dispatched (deps : Deps) (definition : WorkflowDefinition)
    (instanceId requesterUserId : Uuid) (answers : Answers) (stepId : String)
    (c : Core) : Exit ApiError Unit → Core → Prop
  | unsent
      (horder : ticketOrder deps definition c.db instanceId
        requesterUserId answers = none) :
      Dispatched deps definition instanceId requesterUserId answers stepId c
        (.error .internal) c
  | sent {targetSystem : TargetSystem} {connector : TicketConnector}
      {payload : JsonValue} {result stored : DispatchResult} {ticketId : Uuid}
      {tickets : Table Ticket.id}
      (horder : ticketOrder deps definition c.db instanceId
        requesterUserId answers = some (targetSystem, connector, payload))
      (hresult : connector c.dispatches.length payload = .ok result)
      (hstored : result.stored = some stored)
      (hinsert : c.db.tickets.insert?
        (sentTicket ticketId instanceId targetSystem payload stored) =
          some tickets) :
      Dispatched deps definition instanceId requesterUserId answers stepId
        c (.ok ())
        (c.filed tickets ⟨instanceId, stepId, targetSystem, payload,
          .ok result⟩)
  | refused {targetSystem : TargetSystem} {connector : TicketConnector}
      {payload : JsonValue} {err : ConnectorError} {stored : String}
      {ticketId : Uuid} {tickets : Table Ticket.id}
      (horder : ticketOrder deps definition c.db instanceId
        requesterUserId answers = some (targetSystem, connector, payload))
      (hresult : connector c.dispatches.length payload = .error err)
      (hstored : textColumn err.message = some stored)
      (hinsert : c.db.tickets.insert?
        (failedTicket ticketId instanceId targetSystem payload stored) =
          some tickets) :
      Dispatched deps definition instanceId requesterUserId answers stepId c
        (.error (.ofConnector err))
        (c.filed tickets ⟨instanceId, stepId, targetSystem, payload,
          .error err⟩)
  | unrecorded {targetSystem : TargetSystem} {connector : TicketConnector}
      {payload : JsonValue} {answer : Except ConnectorError DispatchResult}
      {ticketId : Uuid} {tickets : Table Ticket.id}
      (horder : ticketOrder deps definition c.db instanceId
        requesterUserId answers = some (targetSystem, connector, payload))
      (hanswer : connector c.dispatches.length payload = answer)
      (hroom : ¬ Recordable answer)
      (hinsert : c.db.tickets.insert?
        (pendingTicket ticketId instanceId targetSystem payload) =
          some tickets) :
      Dispatched deps definition instanceId requesterUserId answers stepId c
        (.error .internal)
        (c.filed tickets ⟨instanceId, stepId, targetSystem, payload, answer⟩)

/-- The status saved at an outcome that neither opens an approval nor files a
ticket. -/
def settledStatus : Outcome → Option InstanceStatus
  | .awaitingAnswer _ => some .inProgress
  | .finished outcome => some (Orchestrator.endStatus outcome)
  | _ => none

/-- The effect of driving an instance from an answer of the engine to the next
point that needs external input, to completion or to a failure. -/
inductive Driven (deps : Deps) (definition : WorkflowDefinition)
    (instanceId requesterUserId : Uuid) (answers : Answers) :
    Except EngineError (String × Outcome) → Core →
      Exit ApiError WorkflowInstance → Core → Prop
  | stuck {e : EngineError} {c : Core} :
      Driven deps definition instanceId requesterUserId answers (.error e) c
        (.error (.ofEngine e)) c
  | settled {stepId : String} {outcome : Outcome} {c : Core}
      {status : InstanceStatus} {row : WorkflowInstance}
      (hstatus : settledStatus outcome = some status)
      (hrow : (c.save instanceId stepId answers status).db.instances.find?
        instanceId = some row) :
      Driven deps definition instanceId requesterUserId answers
        (.ok (stepId, outcome))
        c (.ok row) (c.save instanceId stepId answers status)
  | refused {stepId : String} {resolution : ApproverResolution}
      {timeoutSeconds : Option Int64} {c : Core} {e : ApiError}
      (hterms : approvalTerms deps c requesterUserId resolution timeoutSeconds =
        .error e) :
      Driven deps definition instanceId requesterUserId answers
        (.ok (stepId, .awaitingApproval resolution timeoutSeconds)) c
          (.error e) c
  | panicked {stepId : String} {resolution : ApproverResolution}
      {timeoutSeconds : Option Int64} {c : Core}
      (hterms : approvalTerms deps c requesterUserId resolution timeoutSeconds =
        .panicked) :
      Driven deps definition instanceId requesterUserId answers
        (.ok (stepId, .awaitingApproval resolution timeoutSeconds)) c
          .panicked c
  | opened {stepId : String} {resolution : ApproverResolution}
      {timeoutSeconds : Option Int64} {c : Core} {approverUserId : Uuid}
      {expiresAt : Option Timestamp} {approvalId : Uuid}
      {approvals : Table PendingApproval.id} {row : WorkflowInstance}
      (hterms : approvalTerms deps c requesterUserId resolution timeoutSeconds =
        .ok (approverUserId, expiresAt))
      (hinsert : c.db.approvals.insert?
        (openApproval approvalId instanceId stepId approverUserId expiresAt) =
          some approvals)
      (hrow : ((c.opened approvals).save instanceId stepId answers
        .awaitingApproval).db.instances.find? instanceId = some row) :
      Driven deps definition instanceId requesterUserId answers
        (.ok (stepId, .awaitingApproval resolution timeoutSeconds)) c (.ok row)
        ((c.opened approvals).save instanceId stepId answers .awaitingApproval)
  | failed {stepId : String} {err : ApiError} {c c' : Core}
      (hdispatch : Dispatched deps definition instanceId requesterUserId
        answers stepId c (.error err) c') :
      Driven deps definition instanceId requesterUserId answers
        (.ok (stepId, .readyToSubmitTicket)) c (.error err)
        (c'.save instanceId stepId answers .failed)
  | advanced {stepId : String} {c c' c'' : Core}
      {x : Exit ApiError WorkflowInstance}
      (hdispatch : Dispatched deps definition instanceId requesterUserId
        answers stepId c (.ok ()) c')
      (hrest : Driven deps definition instanceId requesterUserId answers
        (Engine.resumeAfterTicketDispatch definition.graph stepId answers)
          c' x c'') :
      Driven deps definition instanceId requesterUserId answers
        (.ok (stepId, .readyToSubmitTicket)) c x c''

theorem Core.find?_save (c : Core) (id : Uuid) (stepId : String)
    (answers : Answers) (status : InstanceStatus) (id' : Uuid) :
    (c.save id stepId answers status).db.instances.find? id' =
      if id' = id then
        (c.db.instances.find? id').map
          (Db.progressed stepId (.object answers) status c.now)
      else c.db.instances.find? id' :=
  Db.find?_updateInstance ..

namespace Repositories

theorem Tickets.create_wp {instanceId : Uuid} {targetSystem : TargetSystem}
    {payload : JsonValue} {post : Exit DbError Ticket → World → Prop}
    {w : World}
    (hrow : (w.db.instances.find? instanceId).isSome)
    (h : ∀ thread id tickets,
      w.db.tickets.insert? (pendingTicket id instanceId targetSystem payload) =
        some tickets →
      post (.ok (pendingTicket id instanceId targetSystem payload))
        (w.commit thread (w.db.withTickets tickets) [])) :
    wp Input.Admitted (create instanceId targetSystem payload) post w := by
  rw [create, wp_bind]
  refine execute_ok_wp fun i hi => ?_
  obtain ⟨tickets, hinsert⟩ := Table.exists_insert?
    (pendingTicket i.uuid instanceId targetSystem payload) hi.2.2.2
  have hdb : w.db.insertTicket i.uuid instanceId targetSystem payload =
      some (w.db.withTickets tickets) := by
    rw [Db.insertTicket, if_pos hrow]
    exact congrArg (Option.map w.db.withTickets) hinsert
  refine ⟨i.uuid, w.db.withTickets tickets, [], by simp [hdb], ?_⟩
  refine (wp_bind _ _ _ _).mpr (select_wp ?_)
  have hfound : tickets.find? i.uuid = some _ := Table.find?_inserted hinsert
  simpa [World.commit, Db.withTickets, hfound, Program.onOk, Program.okOr,
    Exit.ofOption] using h i.thread i.uuid tickets hinsert

/-- Recording an answer, if the row has room for it. -/
theorem Tickets.markSent_wp {id : Uuid} {result : DispatchResult}
    {post : Exit DbError Unit → World → Prop} {w : World}
    (hnone : result.stored = none → post (.error .sqlx) w)
    (hsome : ∀ thread stored, result.stored = some stored → post (.ok ())
      (w.commit thread (w.db.withTickets
        (w.db.tickets.modify id (Ticket.sent stored) fun _ => rfl)) [])) :
    wp Input.Admitted
      (markSent id result.externalTicketId result.externalTicketUrl)
      post w := by
  refine execute_wp (fun i _ h => hnone ?_) fun i a db events _ h => ?_
  · rw [Db.markSent_eq, Option.map_map, Option.map_eq_none_iff] at h
    exact h
  · rw [Db.markSent_eq, Option.map_map, Option.map_eq_some_iff] at h
    obtain ⟨stored, hstored, heq⟩ := h
    cases heq
    exact hsome i.thread stored hstored

theorem Tickets.markFailed_wp {id : Uuid} {error : String}
    {post : Exit DbError Unit → World → Prop} {w : World}
    (hnone : textColumn error = none → post (.error .sqlx) w)
    (hsome : ∀ thread stored, textColumn error = some stored → post (.ok ())
      (w.commit thread (w.db.withTickets
        (w.db.tickets.modify id (Ticket.refused stored) fun _ => rfl)) [])) :
    wp Input.Admitted (markFailed id error) post w := by
  refine execute_wp (fun i _ h => hnone ?_) fun i a db events _ h => ?_
  · rw [Db.markFailed_eq, Option.map_map, Option.map_eq_none_iff] at h
    exact h
  · rw [Db.markFailed_eq, Option.map_map, Option.map_eq_some_iff] at h
    obtain ⟨stored, hstored, heq⟩ := h
    cases heq
    exact hsome i.thread stored hstored

theorem Approvals.create_wp {instanceId : Uuid} {stepId : String}
    {approverUserId : Uuid} {expiresAt : Option Timestamp}
    {post : Exit DbError PendingApproval → World → Prop} {w : World}
    (hrow : (w.db.instances.find? instanceId).isSome)
    (hunknown : (w.db.users.find? approverUserId).isSome = false →
      post (.error .sqlx) w)
    (h : ∀ thread id approvals, (w.db.users.find? approverUserId).isSome →
      w.db.approvals.insert?
        (openApproval id instanceId stepId approverUserId expiresAt) =
        some approvals →
      post (.ok (openApproval id instanceId stepId approverUserId expiresAt))
        (w.commit thread (w.db.withApprovals approvals)
          [.approvalCreated
            (openApproval id instanceId stepId approverUserId expiresAt)])) :
    wp Input.Admitted (create instanceId stepId approverUserId expiresAt)
      post w := by
  rw [create, wp_bind]
  by_cases huser : (w.db.users.find? approverUserId).isSome
  · refine execute_ok_wp fun i hi => ?_
    obtain ⟨approvals, hinsert⟩ := Table.exists_insert?
      (openApproval i.uuid instanceId stepId approverUserId expiresAt) hi.2.2.1
    have hdb : w.db.insertApproval i.uuid instanceId stepId approverUserId
        expiresAt =
        some (openApproval i.uuid instanceId stepId approverUserId expiresAt,
          w.db.withApprovals approvals) := by
      rw [Db.insertApproval, if_pos (by simp [hrow, huser])]
      exact congrArg (Option.map fun approvals =>
        (openApproval i.uuid instanceId stepId approverUserId expiresAt,
          w.db.withApprovals approvals)) hinsert
    refine ⟨i.uuid, w.db.withApprovals approvals, _, by simp [hdb]; rfl, ?_⟩
    refine (wp_bind _ _ _ _).mpr (select_wp ?_)
    have hfound : approvals.find? i.uuid = some _ :=
      Table.find?_inserted hinsert
    simpa [World.commit, Db.withApprovals, hfound, Program.onOk, Program.okOr,
      Exit.ofOption] using h i.thread i.uuid approvals huser hinsert
  · have hdb : ∀ id, w.db.insertApproval id instanceId stepId approverUserId
        expiresAt = none := fun id => by simp [Db.insertApproval, huser]
    refine execute_wp (fun i _ _ => hunknown (by simpa using huser))
      (fun i a db events _ hsome => ?_)
    simp [hdb] at hsome

theorem Instances.saveProgress_wp {instanceId : Uuid} {stepId : String}
    {answers : Answers} {status : InstanceStatus}
    {post : Exit DbError (Option WorkflowInstance) → World → Prop} {w : World}
    (h : ∀ w', w'.core = w.core.save instanceId stepId answers status →
      post (.ok (w'.db.instances.find? instanceId)) w') :
    wp Input.Admitted (saveProgress instanceId stepId (.object answers) status)
      post w := by
  rw [saveProgress, wp_bind]
  refine execute_ok_wp fun i _ => ⟨(), _, _, rfl, select_wp ?_⟩
  exact h _ (World.core_commit (by simp [Event.expiryFailure?]))

end Repositories

namespace Orchestrator

theorem saveProgress_wp {instanceId : Uuid} {stepId : String}
    {answers : Answers} {status : InstanceStatus}
    {post : Exit ApiError WorkflowInstance → World → Prop} {w : World}
    (hrow : (w.db.instances.find? instanceId).isSome)
    (h : ∀ w' row, w'.core = w.core.save instanceId stepId answers status →
      w'.db.instances.find? instanceId = some row → post (.ok row) w') :
    wp Input.Admitted (saveProgress instanceId stepId answers status)
      post w := by
  rw [saveProgress, wp_bind, db, wp_mapError]
  refine Repositories.Instances.saveProgress_wp fun w' hw' => ?_
  have hsome : (w'.db.instances.find? instanceId).isSome := by
    rw [← World.core_db, hw', Core.find?_save, if_pos rfl, Option.isSome_map]
    exact hrow
  obtain ⟨row, hfound⟩ := Option.isSome_iff_exists.mp hsome
  rw [hfound]
  exact h w' row hw' hfound

theorem dispatchTicket_wp {deps : Deps} {definition : WorkflowDefinition}
    {instanceId requesterUserId : Uuid} {answers : Answers} {stepId : String}
    {w : World} :
    wp Input.Admitted
      (dispatchTicket deps definition instanceId stepId requesterUserId answers)
      (fun x w' => Dispatched deps definition instanceId requesterUserId
        answers stepId w.core x w'.core) w := by
  unfold dispatchTicket
  refine wp_okOr (fun h => .unsent (by simp [ticketOrder, h]))
    fun target htarget => ?_
  refine wp_okOr (fun h => .unsent (by simp [ticketOrder, h]))
    fun mapping hmapping => ?_
  refine wp_okOr (fun h => .unsent (by simp [ticketOrder, htarget, h]))
    fun connector hconnector => ?_
  refine wp_read (wp_okOr (fun h => .unsent ?_) fun requester hrequester => ?_)
  · simp [ticketOrder, World.core, h]
  refine wp_read (wp_okOr (fun h => .unsent ?_) fun row hrow => ?_)
  · simp [ticketOrder, World.core, h]
  refine wp_read (wp_okOr (fun h => .unsent ?_) fun item hitem => ?_)
  · simp [ticketOrder, World.core, hrow, h]
  generalize hrendered : renderFieldMapping deps.oneOff mapping
    { answers := .object answers
      requesterEmail := requester.email
      requesterDisplayName := requester.displayName
      instanceId := instanceId.toString
      catalogItemName := item.name } = rendered
  have horder : ticketOrder deps definition w.core.db instanceId requesterUserId
      answers = rendered.toOption.map fun payload =>
        (target, connector, payload) := by
    simp [ticketOrder, World.core, htarget, hmapping, hconnector,
      hrequester, hrow, hitem, hrendered, Option.map_eq_bind]
  refine wp_liftExcept (fun e he => ?_) fun payload hpayload => ?_
  · rw [hrendered] at he
    cases rendered with
    | error err =>
        cases he
        exact .unsent horder
    | ok payload => cases he
  rw [hrendered] at hpayload
  cases rendered with
  | error err => cases hpayload
  | ok payload =>
  cases hpayload
  rw [wp_bind, db, wp_mapError]
  refine Repositories.Tickets.create_wp (by rw [hrow]; rfl)
    fun thread id tickets hinsert => ?_
  simp only [Exit.mapError, Program.onOk]
  rw [wp_bind, callConnector]
  refine (wp_atomic _ _ _).mpr fun i hi => ?_
  cases hresult : connector w.dispatches.length payload with
  | ok result =>
      simp only [World.commit, hresult, Program.onOk]
      rw [db, wp_mapError]
      refine Repositories.Tickets.markSent_wp (fun hnone => ?_)
        fun thread stored hstored => ?_
      · exact .unrecorded horder hresult (by simp [Recordable, hnone]) hinsert
      · rw [World.core_commit (by simp)]
        exact .sent horder hresult hstored
          (Table.insert?_modify hinsert (Ticket.sent stored) fun _ => rfl)
  | error err =>
      simp only [World.commit, hresult, Program.onOk]
      rw [wp_bind, db, wp_mapError]
      refine Repositories.Tickets.markFailed_wp (fun hnone => ?_)
        fun thread stored hstored => (wp_throw _ _ _).mpr ?_
      · exact .unrecorded horder hresult (by simp [Recordable, hnone]) hinsert
      · rw [World.core_commit (by simp)]
        exact .refused horder hresult hstored
          (Table.insert?_modify hinsert (Ticket.refused stored) fun _ => rfl)

end Orchestrator

namespace Approvals

theorem resolveApproverUserId_wp {deps : Deps} {requester : User}
    {resolution : ApproverResolution}
    {post : Exit ApprovalsError Uuid → World → Prop} {w : World}
    (h : post (.ofExcept (approverOf deps w.db requester resolution)) w) :
    wp Input.Admitted (resolveApproverUserId deps requester resolution)
      post w := by
  cases resolution with
  | static userId => exact h
  | managerOfRequester =>
      cases hmanager : requester.managerUserId <;>
      · simp only [approverOf, hmanager] at h
        simp only [resolveApproverUserId, hmanager]
        exact h
  | roleInDepartment role =>
      cases hdepartment : requester.departmentId with
      | none =>
          simp only [approverOf, hdepartment] at h
          simp only [resolveApproverUserId, hdepartment]
          exact h
      | some departmentId =>
          simp only [approverOf, hdepartment, Option.elim_some] at h
          simp only [resolveApproverUserId, hdepartment]
          refine (wp_bind _ _ _ _).mpr (wp_read ?_)
          change post (.ofOption
            _ ((candidates deps w.db role departmentId).head?.map User.id)) w
          cases hhead : (candidates deps w.db role departmentId).head? <;>
            simpa [hhead, Exit.ofExcept, Exit.ofOption] using h

theorem expiresAt_wp {timeoutSeconds : Option Int64}
    {post : Exit ApprovalsError (Option Timestamp) → World → Prop} {w : World}
    (hnone : expiryOf w.now timeoutSeconds = none → post .panicked w)
    (hsome : ∀ t, expiryOf w.now timeoutSeconds = some t → post (.ok t) w) :
    wp Input.Admitted (expiresAt timeoutSeconds) post w := by
  cases timeoutSeconds with
  | none => exact hsome none rfl
  | some secs =>
      rw [expiresAt, wp_bind, utcNow]
      refine (wp_atomic _ _ _).mpr fun i hi => ?_
      cases hdeadline : deadline w.now secs with
      | none =>
          simp only [Program.onOk, hdeadline, wp_panic]
          exact hnone (by simp [expiryOf, hdeadline])
      | some t =>
          simp only [Program.onOk, hdeadline, wp_pure]
          exact hsome t (by simp [expiryOf, hdeadline])

theorem notifyNewApproval_wp {approval : PendingApproval} {requester : User}
    {post : Exit ApprovalsError Unit → World → Prop} {w : World}
    (h : ∀ w', w'.core = w.core → post (.ok ()) w') :
    wp Input.Admitted (notifyNewApproval approval requester) post w := by
  have hnotify : ∀ notification,
      wp Input.Admitted (note (.notified notification))
      post w := fun notification =>
    note_wp fun thread => h _ (World.core_record rfl)
  unfold notifyNewApproval
  refine wp_read ?_
  cases w.db.users.find? approval.approverUserId with
  | none => exact h w rfl
  | some approver =>
      refine wp_read ?_
      cases w.db.instances.find? approval.workflowInstanceId with
      | none => exact wp_read (hnotify _)
      | some row =>
          refine wp_read ?_
          exact wp_read (hnotify _)

/-- Opening an approval either leaves everything as it is or adds one row. -/
theorem createForInstance_wp {deps : Deps} {instanceId requesterUserId : Uuid}
    {stepId : String} {requester : User} {resolution : ApproverResolution}
    {timeoutSeconds : Option Int64} {w : World}
    {post : Exit ApiError PendingApproval → World → Prop}
    (hrow : (w.db.instances.find? instanceId).isSome)
    (hrequester : w.db.users.find? requesterUserId = some requester)
    (hrefused : ∀ e, approvalTerms deps w.core requesterUserId resolution
      timeoutSeconds = .error e → post (.error e) w)
    (hpanicked : approvalTerms deps w.core requesterUserId resolution
      timeoutSeconds = .panicked → post .panicked w)
    (hopened : ∀ approverUserId expiresAt id approvals w',
      approvalTerms deps w.core requesterUserId resolution timeoutSeconds =
        .ok (approverUserId, expiresAt) →
      w.db.approvals.insert?
        (openApproval id instanceId stepId approverUserId expiresAt) =
        some approvals →
      w'.core = w.core.opened approvals →
      post
        (.ok (openApproval id instanceId stepId approverUserId expiresAt)) w') :
    wp Input.Admitted (Orchestrator.approvals <|
      createForInstance deps instanceId stepId requester resolution
        timeoutSeconds)
      post w := by
  have hterms : approvalTerms deps w.core requesterUserId resolution
      timeoutSeconds =
      termsFor deps w.core requester resolution timeoutSeconds := by
    simp [approvalTerms, World.core, hrequester]
  rw [hterms] at hrefused hpanicked hopened
  rw [Orchestrator.approvals, wp_mapError, createForInstance, wp_bind]
  refine resolveApproverUserId_wp ?_
  cases happrover : approverOf deps w.db requester resolution with
  | error e => exact hrefused _ (by simp [termsFor, World.core, happrover])
  | ok approverUserId =>
      refine (wp_bind _ _ _ _).mpr ?_
      refine expiresAt_wp (fun hnone => hpanicked ?_) fun t ht => ?_
      · simp [termsFor, happrover, World.core, hnone]
      · refine (wp_bind _ _ _ _).mpr ?_
        rw [db, wp_mapError]
        refine Repositories.Approvals.create_wp hrow (fun hunknown => ?_)
          fun thread id approvals hknown hinsert => ?_
        · refine hrefused _ ?_
          simp [termsFor, happrover, World.core, ht, hunknown,
            ApiError.ofApprovals, ApiError.ofDb]
        · refine (wp_bind _ _ _ _).mpr (notifyNewApproval_wp fun w' hw' => ?_)
          refine hopened approverUserId t id approvals w' ?_ hinsert ?_
          · simp [termsFor, happrover, World.core, ht, hknown]
          · rw [hw', World.core_commit (by simp [Event.expiryFailure?])]
            rfl

end Approvals

theorem Dispatched.instances {deps : Deps} {definition : WorkflowDefinition}
    {instanceId requesterUserId : Uuid} {answers : Answers} {stepId : String}
    {c c' : Core} {x : Exit ApiError Unit}
    (h : Dispatched deps definition instanceId requesterUserId answers
      stepId c x c') :
    c'.db.instances = c.db.instances := by
  cases h <;> rfl

theorem Dispatched.not_panicked {deps : Deps} {definition : WorkflowDefinition}
    {instanceId requesterUserId : Uuid} {answers : Answers} {stepId : String}
    {c c' : Core}
    (h : Dispatched deps definition instanceId requesterUserId answers stepId c
      .panicked c') : False := by
  cases h

/-- Run alone, `applyOutcome` has the effect `Driven` describes. -/
theorem Orchestrator.applyOutcome_wp {deps : Deps}
    {definition : WorkflowDefinition} {instanceId requesterUserId : Uuid}
    {answers : Answers} {rounds : Nat} {stepId : String} {outcome : Outcome}
    {w : World} (hrow : (w.db.instances.find? instanceId).isSome) :
    wp Input.Admitted
      (applyOutcome deps definition instanceId requesterUserId answers
        rounds stepId outcome)
      (fun x w' => Driven deps definition instanceId requesterUserId answers
        (.ok (stepId, outcome)) w.core x w'.core) w := by
  induction rounds generalizing stepId outcome w with
  | zero => trivial
  | succ rounds ih =>
      have hsettle : ∀ status, settledStatus outcome = some status →
          wp Input.Admitted (saveProgress instanceId stepId answers status)
            (fun x w' => Driven deps definition instanceId
              requesterUserId answers
              (.ok (stepId, outcome)) w.core x w'.core) w := by
        intro status hstatus
        refine saveProgress_wp hrow fun w' row hw' hfound => ?_
        rw [hw']
        exact .settled hstatus (by rw [← hw']; exact hfound)
      cases outcome with
      | awaitingAnswer fieldKey => exact hsettle .inProgress rfl
      | finished endOutcome => exact hsettle (endStatus endOutcome) rfl
      | awaitingApproval resolution timeoutSeconds =>
          refine wp_read (wp_okOr (fun hnone => .refused ?_)
            fun requester hrequester => ?_)
          · simp [approvalTerms, World.core, hnone]
          refine (wp_bind _ _ _ _).mpr ?_
          refine Approvals.createForInstance_wp hrow hrequester
            (fun e he => .refused he) .panicked ?_
          intro approverUserId expiresAt id approvals w' hterms hinsert hw'
          refine saveProgress_wp ?_ fun w'' row hw'' hfound => ?_
          · change (w'.core.db.instances.find? instanceId).isSome
            rw [hw']
            exact hrow
          · rw [hw'', hw']
            refine .opened hterms hinsert ?_
            rw [← hw', ← hw'']
            exact hfound
      | readyToSubmitTicket =>
          refine (wp_bind _ _ _ _).mpr ((wp_attempt _ _ _).mpr ?_)
          refine wp_mono ?_ dispatchTicket_wp
          intro x w' hdispatch
          have hrow' : (w'.db.instances.find? instanceId).isSome := by
            change (w'.core.db.instances.find? instanceId).isSome
            rw [hdispatch.instances]
            exact hrow
          cases x with
          | ok value =>
              refine wp_liftExcept (fun e he => ?_) fun result hresult => ?_
              · cases hresume : Engine.resumeAfterTicketDispatch
                    definition.graph stepId answers with
                | error err =>
                    rw [hresume] at he
                    cases he
                    exact .advanced hdispatch (by rw [hresume]; exact .stuck)
                | ok result => simp [hresume, Except.mapError] at he
              · cases hresume : Engine.resumeAfterTicketDispatch
                    definition.graph stepId answers with
                | error err => simp [hresume, Except.mapError] at hresult
                | ok result' =>
                    rw [hresume] at hresult
                    cases hresult
                    refine wp_mono (fun x w'' hrest => .advanced hdispatch ?_)
                      (ih hrow')
                    rw [hresume]
                    exact hrest
          | error err =>
              refine (wp_bind _ _ _ _).mpr ?_
              rw [db, wp_mapError]
              refine Repositories.Instances.saveProgress_wp fun w'' hw'' => ?_
              refine (wp_throw _ _ _).mpr ?_
              rw [hw'']
              exact .failed hdispatch
          | panicked => exact hdispatch.not_panicked.elim

end Servcat
