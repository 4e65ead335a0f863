/-
What a connector says against a ticket it refuses reaches the staff
and nobody else.
-/
import Servcat.Atomic.Alike
import Servcat.Portal
import Servcat.Serial.Effects

namespace Servcat

open Atomic Keyed

/-- Without the error of the connector. -/
def Ticket.veiled (ticket : Ticket) : Ticket :=
  { ticket with lastError := none }

def Dispatch.veiled (dispatch : Dispatch) : Dispatch :=
  { dispatch with result := dispatch.result.mapError fun _ => .config "" }

/-- The state with other tickets, and other calls of the connectors. -/
def World.withFilings (w : World) (tickets : Table Ticket.id)
    (dispatches : List Dispatch) : World :=
  { w with db := w.db.withTickets tickets, dispatches := dispatches }

/-- States that differ in the errors of the connectors only. -/
inductive World.Veils (w : World) : World → Prop
  | mk {tickets : Table Ticket.id} {dispatches : List Dispatch}
      (htickets : tickets.rows.map Ticket.veiled =
        w.db.tickets.rows.map Ticket.veiled)
      (hdispatches : dispatches.map Dispatch.veiled =
        w.dispatches.map Dispatch.veiled) :
      Veils w (w.withFilings tickets dispatches)

theorem World.Veils.refl (w : World) : w.Veils w :=
  .mk (w := w) (rfl : w.db.tickets.rows.map Ticket.veiled = _) rfl

/-- The connectors file and refuse the same tickets, with other words. -/
def Deps.reworded (deps : Deps)
    (reword : TargetSystem → Nat → JsonValue → ConnectorError →
      ConnectorError) :
    Deps :=
  { deps with
    connectors :=
      fun target => (deps.connectors target).map fun connector n payload =>
      (connector n payload).mapError (reword target n payload) }

/-- The tickets have room for the same errors. -/
def Deps.FitAlike (deps : Deps)
    (reword : TargetSystem → Nat → JsonValue → ConnectorError →
      ConnectorError) :
    Prop :=
  ∀ target connector, deps.connectors target = some connector →
    ∀ n payload err, connector n payload = .error err →
      (textColumn (reword target n payload err).message).isSome =
        (textColumn err.message).isSome

/-- Programs that cannot be told apart while the errors are veiled. -/
abbrev Indistinct {ε α : Type} (p q : Async ε α) : Prop :=
  Alike World.Veils (Exit.Agree Eq) p q

namespace Indistinct

variable {ε ε' α β : Type}

theorem pure (a : α) : Indistinct (ε := ε) (Pure.pure a) (Pure.pure a) :=
  Alike.pure rfl

theorem bind {p q : Async ε α} {k k' : α → Async ε β} (h : Indistinct p q)
    (hk : ∀ a, Indistinct (k a) (k' a)) : Indistinct (p >>= k) (q >>= k') :=
  Alike.bind h fun a _ ha => ha ▸ hk a

/-- A value that both programs require. -/
theorem okOr (e : ε) (value : Option α) {k k' : α → Async ε β}
    (hk : ∀ a, value = some a → Indistinct (k a) (k' a)) :
    Indistinct (Program.okOr e value >>= k) (Program.okOr e value >>= k') := by
  cases value with
  | none => exact .throw e
  | some a => exact hk a rfl

theorem attempt {p q : Async ε α} (h : Indistinct p q) :
    Indistinct (p.attempt : Async ε' (Except ε α)) q.attempt := by
  refine Alike.mono (fun x y hxy => ?_) (Alike.attempt h)
  cases hxy with
  | ok hV =>
      rcases hV with ⟨a, _, rfl, rfl, rfl⟩ | ⟨e, rfl, rfl⟩ <;> exact .ok rfl
  | error e => exact .error e
  | panicked => exact .panicked

/-- A query that does not look at the tickets. -/
theorem select {f : World → α}
    (h : ∀ w tickets dispatches, f (w.withFilings tickets dispatches) = f w) :
    Indistinct (Servcat.select f) (Servcat.select f) := by
  refine Alike.atomic fun i w w' hw => ?_
  cases hw with
  | mk htickets hdispatches =>
      cases i.fault with
      | none => exact ⟨.mk htickets hdispatches, .ok (h w _ _).symm⟩
      | lostRequest | lostReply => exact ⟨.mk htickets hdispatches, .error _⟩

/-- Statements with the same result, which leave the same tables but for
the errors. -/
theorem executed {f f' : Input → World → Option (α × Db × List Event)}
    (h : ∀ i w tickets dispatches,
      tickets.rows.map Ticket.veiled = w.db.tickets.rows.map Ticket.veiled →
      (f i w = none ∧ f' i (w.withFilings tickets dispatches) = none) ∨
        ∃ a db tickets' events, f i w = some (a, db, events) ∧
          f' i (w.withFilings tickets dispatches) =
            some (a, db.withTickets tickets', events) ∧
          tickets'.rows.map Ticket.veiled = db.tickets.rows.map Ticket.veiled) :
    Indistinct (Servcat.execute f) (Servcat.execute f') := by
  refine Alike.atomic fun i w w' hw => ?_
  cases hw with
  | @mk tickets dispatches htickets hdispatches =>
      rcases h i w tickets dispatches htickets with
        ⟨hf, hf'⟩ | ⟨a, db, tickets', events, hf, hf', hafter⟩
      · rw [hf, hf']
        exact ⟨.mk htickets hdispatches, .error _⟩
      · rw [hf, hf']
        have hcommit : (w.commit i.thread db events).Veils
            ((w.withFilings tickets dispatches).commit i.thread
              (db.withTickets tickets') events) :=
          .mk (w := w.commit i.thread db events) hafter hdispatches
        cases hfault : i.fault with
        | none => exact ⟨hcommit, .ok rfl⟩
        | lostRequest => exact ⟨.mk htickets hdispatches, .error _⟩
        | lostReply => exact ⟨hcommit, .error _⟩

/-- A statement that neither looks at the tickets nor writes them. -/
theorem execute {f : Input → World → Option (α × Db × List Event)}
    (h : ∀ i w tickets dispatches, f i (w.withFilings tickets dispatches) =
      (f i w).map fun (a, db, events) => (a, db.withTickets tickets, events)) :
    Indistinct (Servcat.execute f) (Servcat.execute f) := by
  refine executed fun i w tickets dispatches htickets => ?_
  cases hf : f i w with
  | none => exact .inl ⟨rfl, by rw [h, hf]; rfl⟩
  | some result =>
      obtain ⟨a, db, events⟩ := result
      have hself := h i w w.db.tickets w.dispatches
      rw [show w.withFilings w.db.tickets w.dispatches =
        w from rfl, hf] at hself
      have hdb : db = db.withTickets w.db.tickets := by simpa using hself
      refine .inr ⟨a, db, tickets, events, rfl, by rw [h, hf]; rfl, ?_⟩
      rw [htickets, hdb]
      rfl

theorem note (event : Event) :
    Indistinct (Servcat.note (ε := ε) event) (Servcat.note event) := by
  refine Alike.atomic fun i w w' hw => ?_
  cases hw with
  | mk htickets hdispatches =>
      exact ⟨.mk (w := w.record i.thread event) htickets hdispatches, .ok rfl⟩

end Indistinct

theorem veiled_eq_of_find? {tickets tickets' : Table Ticket.id}
    (h : tickets'.rows.map Ticket.veiled = tickets.rows.map Ticket.veiled)
    (id : Uuid) :
    (tickets'.find? id).map Ticket.veiled =
      (tickets.find? id).map Ticket.veiled := by
  have hfind : ∀ t : Table Ticket.id, (t.find? id).map Ticket.veiled =
      (t.rows.map Ticket.veiled).find? fun row : Ticket => row.id = id :=
    fun t => by
    rw [List.find?_map]
    rfl
  rw [hfind, hfind, h]

theorem insert?_of_veiled {tickets tickets' : Table Ticket.id}
    (h : tickets'.rows.map Ticket.veiled = tickets.rows.map Ticket.veiled)
    (row : Ticket) :
    (tickets.insert? row = none ∧ tickets'.insert? row = none) ∨
      ∃ t t', tickets.insert? row = some t ∧ tickets'.insert? row = some t' ∧
        t'.rows.map Ticket.veiled = t.rows.map Ticket.veiled := by
  have hkeys : tickets'.rows.map Ticket.id = tickets.rows.map Ticket.id := by
    have hid : ∀ t : Table Ticket.id,
        t.rows.map Ticket.id = (t.rows.map Ticket.veiled).map Ticket.id :=
      fun t => by
      rw [List.map_map]
      rfl
    rw [hid, hid, h]
  unfold Table.insert?
  by_cases hmem : Ticket.id row ∈ tickets.rows.map Ticket.id
  · exact .inl ⟨dif_pos hmem, dif_pos (hkeys ▸ hmem)⟩
  · refine .inr ⟨_, _, dif_neg hmem, dif_neg (hkeys ▸ hmem), ?_⟩
    simp [h]

/-- Updates that are the same but for the error. -/
theorem veiled_modify {tickets tickets' : Table Ticket.id}
    (h : tickets'.rows.map Ticket.veiled = tickets.rows.map Ticket.veiled)
    (id : Uuid) {f f' g : Ticket → Ticket} (hf : ∀ row, (f row).id = row.id)
    (hf' : ∀ row, (f' row).id = row.id)
    (hg : ∀ row, (f row).veiled = g row.veiled)
    (hg' : ∀ row, (f' row).veiled = g row.veiled) :
    (tickets'.modify id f' hf').rows.map Ticket.veiled =
      (tickets.modify id f hf).rows.map Ticket.veiled := by
  have hmap : ∀ (t : Table Ticket.id) (k : Ticket → Ticket)
      (hk : ∀ row, (k row).id = row.id),
      (∀ row, (k row).veiled = g row.veiled) →
        (t.modify id k hk).rows.map Ticket.veiled =
          (t.rows.map Ticket.veiled).map fun row =>
            if row.id = id then g row else row := by
    intro t k hk hveiled
    simp only [Table.modify, List.map_map]
    refine List.map_congr_left fun row _ => ?_
    simp only [Function.comp_apply]
    split
    · rename_i hid
      rw [hveiled, if_pos (show row.veiled.id = id from hid)]
    · rename_i hid
      rw [if_neg (show ¬ row.veiled.id = id from hid)]
  rw [hmap tickets' f' hf' hg', hmap tickets f hf hg, h]

namespace Indistinct

variable {ε α β : Type} {deps : Deps}
  {reword : TargetSystem → Nat → JsonValue → ConnectorError → ConnectorError}

/-- `UPDATE`s of the same ticket. -/
theorem rewriteTicket (id : Uuid) (f f' g : Ticket → Ticket)
    (hf : ∀ row, (f row).id = row.id) (hf' : ∀ row, (f' row).id = row.id)
    (hg : ∀ row, (f row).veiled = g row.veiled)
    (hg' : ∀ row, (f' row).veiled = g row.veiled)
    {update update' : Db → Option Db}
    (hupdate : ∀ db,
      update db = some (db.withTickets (db.tickets.modify id f hf)))
    (hupdate' : ∀ db,
      update' db = some (db.withTickets (db.tickets.modify id f' hf'))) :
    Indistinct
      (Servcat.execute fun _ w => (update w.db).map fun db => ((), db, []))
      (Servcat.execute fun _ w => (update' w.db).map
        fun db => ((), db, [])) := by
  apply executed
  intro i w tickets dispatches htickets
  have hmodify := veiled_modify htickets id hf hf' hg hg'
  simp only [hupdate, hupdate', Option.map_some]
  exact .inr ⟨(), _, tickets.modify id f' hf', [], rfl, rfl, hmodify⟩

/-- `UPDATE`s that are both refused. -/
theorem refusedTicket {update update' : Db → Option Db}
    (hupdate : ∀ db, update db = none) (hupdate' : ∀ db, update' db = none) :
    Indistinct
      (Servcat.execute fun _ w => (update w.db).map fun db => ((), db, []))
      (Servcat.execute fun _ w => (update' w.db).map
        fun db => ((), db, [])) := by
  apply executed
  intro i w tickets dispatches _
  rw [hupdate, hupdate']
  exact .inl ⟨rfl, rfl⟩

theorem markSent (id : Uuid) (result : DispatchResult) :
    Indistinct
      (Repositories.Tickets.markSent id result.externalTicketId
        result.externalTicketUrl)
      (Repositories.Tickets.markSent id result.externalTicketId
        result.externalTicketUrl) := by
  unfold Repositories.Tickets.markSent
  cases hstored : result.stored with
  | none =>
      have hupdate : ∀ db : Db,
          db.markSent id result.externalTicketId result.externalTicketUrl =
            none := by
        intro db
        rw [Db.markSent_eq, hstored, Option.map_none]
      exact refusedTicket hupdate hupdate
  | some stored =>
      have hupdate : ∀ db : Db,
          db.markSent id result.externalTicketId result.externalTicketUrl =
            some (db.withTickets
              (db.tickets.modify id (Ticket.sent stored) fun _ => rfl)) := by
        intro db
        rw [Db.markSent_eq, hstored, Option.map_some]
      exact rewriteTicket id (.sent stored) (.sent stored) (.sent stored)
        (fun _ => rfl) (fun _ => rfl) (fun _ => rfl)
        (fun _ => rfl) hupdate hupdate

/-- Two errors for which there is room in both tickets, or in neither. -/
theorem markFailed (id : Uuid) {error error' : String}
    (hfit : (textColumn error').isSome = (textColumn error).isSome) :
    Indistinct (Repositories.Tickets.markFailed id error)
      (Repositories.Tickets.markFailed id error') := by
  unfold Repositories.Tickets.markFailed
  cases hstored : textColumn error with
  | none =>
      rw [hstored, Option.isSome_none] at hfit
      have hstored' :=
        Option.not_isSome_iff_eq_none.mp (Bool.eq_false_iff.mp hfit)
      have hupdate : ∀ db : Db, db.markFailed id error = none := by
        intro db
        rw [Db.markFailed_eq, hstored, Option.map_none]
      have hupdate' : ∀ db : Db, db.markFailed id error' = none := by
        intro db
        rw [Db.markFailed_eq, hstored', Option.map_none]
      exact refusedTicket hupdate hupdate'
  | some stored =>
      rw [hstored, Option.isSome_some] at hfit
      obtain ⟨stored', hstored'⟩ := Option.isSome_iff_exists.mp hfit
      have hupdate : ∀ db : Db, db.markFailed id error = some (db.withTickets
          (db.tickets.modify id (Ticket.refused stored) fun _ => rfl)) := by
        intro db
        rw [Db.markFailed_eq, hstored, Option.map_some]
      have hupdate' : ∀ db : Db, db.markFailed id error' = some (db.withTickets
          (db.tickets.modify id (Ticket.refused stored') fun _ => rfl)) := by
        intro db
        rw [Db.markFailed_eq, hstored', Option.map_some]
      exact rewriteTicket id (.refused stored) (.refused stored')
        (fun ticket =>
          { ticket with dispatchStatus := .failed, lastError := none })
        (fun _ => rfl) (fun _ => rfl) (fun _ => rfl) (fun _ => rfl)
          hupdate hupdate'

theorem insertTicket (instanceId : Uuid) (target : TargetSystem)
    (payload : JsonValue) :
    Indistinct
      (Servcat.execute fun i w =>
        (w.db.insertTicket i.uuid instanceId target payload).map
        fun db => (i.uuid, db, []))
      (Servcat.execute fun i w =>
        (w.db.insertTicket i.uuid instanceId target payload).map
        fun db => (i.uuid, db, [])) := by
  refine executed fun i w tickets dispatches htickets => ?_
  by_cases hinstance : (w.db.instances.find? instanceId).isSome = true
  · rcases insert?_of_veiled htickets
      { id := i.uuid, workflowInstanceId := instanceId, targetSystem := target
        renderedPayloadJson := payload, externalTicketId := none,
        externalTicketUrl := none
        dispatchStatus := .pending, lastError := none } with
      ⟨hnone, hnone'⟩ | ⟨t, t', hsome, hsome', hafter⟩
    · refine .inl ⟨?_, ?_⟩
      · simp [Db.insertTicket, hinstance, hnone]
      · simp [Db.insertTicket, World.withFilings, Db.withTickets,
          hinstance, hnone']
    · refine .inr ⟨i.uuid, w.db.withTickets t, t', [], ?_, ?_, hafter⟩
      · simp [Db.insertTicket, Db.withTickets, hinstance, hsome]
      · simp [Db.insertTicket, World.withFilings, Db.withTickets,
          hinstance, hsome']
  · exact .inl ⟨by simp [Db.insertTicket, hinstance],
      by simp [Db.insertTicket, World.withFilings, Db.withTickets, hinstance]⟩

/-- The same ticket is filed, of which only the error need differ. -/
theorem createTicket (instanceId : Uuid) (target : TargetSystem)
    (payload : JsonValue) :
    Alike World.Veils (Exit.Agree fun t t' => t'.id = t.id)
      (Repositories.Tickets.create instanceId target payload)
      (Repositories.Tickets.create instanceId target payload) := by
  refine Alike.bind (insertTicket instanceId target payload) fun id _ hid => ?_
  · subst hid
    refine Alike.bind (V := fun t t' => t'.map Ticket.veiled = t.map
      Ticket.veiled) (Alike.atomic fun i w w' hw => ?_) fun t t' ht => ?_
    · cases hw with
      | mk htickets hdispatches =>
          cases i.fault with
          | none =>
              exact ⟨.mk htickets hdispatches,
                .ok (veiled_eq_of_find? htickets id)⟩
          | lostRequest | lostReply =>
              exact ⟨.mk htickets hdispatches, .error _⟩
    · cases t with
      | none =>
          obtain rfl : t' = none := Option.map_eq_none_iff.mp ht
          exact .throw _
      | some t =>
          obtain ⟨t', rfl, hveiled⟩ := Option.map_eq_some_iff.mp ht
          have hid : t'.veiled.id = t.veiled.id := by rw [hveiled]
          exact .ok hid

/-- A call in other words. -/
theorem callConnector (connector : TicketConnector)
    (reword : Nat → JsonValue → ConnectorError → ConnectorError)
    (instanceId : Uuid) (stepId : String) (target : TargetSystem)
    (payload : JsonValue) :
    Alike World.Veils
      (Exit.Agree fun r r' => ∃ n, r = connector n payload ∧
        r' = r.mapError (reword n payload))
      (Orchestrator.callConnector connector instanceId stepId target payload)
      (Orchestrator.callConnector
        (fun n payload => (connector n payload).mapError (reword n payload))
          instanceId stepId
        target payload) := by
  refine Alike.atomic fun i w w' hw => ?_
  cases hw with
  | @mk tickets dispatches htickets hdispatches =>
      have hlength : dispatches.length = w.dispatches.length := by
        simpa using congrArg List.length hdispatches
      refine ⟨.mk htickets ?_, .ok ⟨dispatches.length, ?_, ?_⟩⟩
      · simp only [List.map_cons, hdispatches, World.withFilings, hlength]
        cases connector w.dispatches.length payload <;> rfl
      · rw [hlength]
      · simp only [World.withFilings, hlength]

/-- `?` on a statement. -/
theorem db {p q : Async DbError α} (h : Indistinct p q) :
    Indistinct (Orchestrator.db p) (Orchestrator.db q) :=
  Alike.mapError _ h

theorem getUser (id : Uuid) :
    Indistinct (Repositories.Users.getById id)
      (Repositories.Users.getById id) :=
  select fun _ _ _ => rfl

theorem getItem (id : Uuid) :
    Indistinct (Repositories.Catalog.getById id)
      (Repositories.Catalog.getById id) :=
  select fun _ _ _ => rfl

theorem getDefinition (id : Uuid) :
    Indistinct (Repositories.WorkflowDefinitions.getById id)
      (Repositories.WorkflowDefinitions.getById id) :=
  select fun _ _ _ => rfl

theorem getInstance (id : Uuid) :
    Indistinct (Repositories.Instances.getById id)
      (Repositories.Instances.getById id) :=
  select fun _ _ _ => rfl

theorem getApproval (id : Uuid) :
    Indistinct (Repositories.Approvals.getById id)
      (Repositories.Approvals.getById id) :=
  select fun _ _ _ => rfl

theorem getSettings :
    Indistinct Repositories.OrgSettings.get Repositories.OrgSettings.get :=
  select fun _ _ _ => rfl

theorem load (id : Uuid) (fieldKey : Option String) :
    Indistinct (Repositories.Instances.load id fieldKey)
      (Repositories.Instances.load id fieldKey) := by
  refine Alike.atomic fun i w w' hw => ?_
  cases hw with
  | @mk tickets dispatches htickets hdispatches =>
      have hfind : (w.withFilings tickets dispatches).db.instances.find? id =
          w.db.instances.find? id := rfl
      simp only [hfind]
      have hsame : w.Veils (w.withFilings tickets dispatches) :=
        .mk htickets hdispatches
      cases i.fault with
      | none =>
          cases w.db.instances.find? id with
          | none => exact ⟨hsame, .ok rfl⟩
          | some row =>
              exact ⟨.mk (w := w.record i.thread (.began { row, fieldKey }))
                htickets hdispatches, .ok rfl⟩
      | lostRequest | lostReply => exact ⟨hsame, .error _⟩

theorem dispatchTicket (hfit : deps.FitAlike reword)
    (definition : WorkflowDefinition) (instanceId : Uuid) (stepId : String)
    (requesterUserId : Uuid) (answers : Answers) :
    Indistinct
      (Orchestrator.dispatchTicket deps definition instanceId stepId
        requesterUserId answers)
      (Orchestrator.dispatchTicket (deps.reworded reword) definition
        instanceId stepId requesterUserId answers) := by
  refine okOr _ _ fun target htarget => okOr _ _ fun mapping hmapping => ?_
  cases hconnector : deps.connectors target with
  | none =>
      simp only [Deps.reworded, hconnector]
      exact .throw _
  | some connector =>
      simp only [Deps.reworded, hconnector, Option.map_some]
      have hsame : ∀ n payload err, connector n payload = .error err →
          (textColumn (reword target n payload err).message).isSome =
            (textColumn err.message).isSome := hfit target connector hconnector
      refine Alike.bind (V := fun c c' => c = connector ∧
        c' = fun n payload => (connector n payload).mapError
          (reword target n payload))
        (.ok ⟨rfl, rfl⟩) fun _ _ hreword => ?_
      rcases hreword with ⟨rfl, rfl⟩
      refine bind (db (getUser requesterUserId)) fun requester =>
        okOr _ _ fun requester _ => ?_
      refine bind (db (getInstance instanceId)) fun row =>
        okOr _ _ fun row _ => ?_
      refine bind (db (getItem row.catalogItemId)) fun item =>
        okOr _ _ fun item _ => ?_
      refine bind (Alike.liftExcept _) fun payload => ?_
      refine Alike.bind (Alike.mapError
        _ (createTicket instanceId target payload)) fun t t' ht => ?_
      refine Alike.bind (callConnector _ (reword target) instanceId
        stepId target payload) fun r r' hr => ?_
      obtain ⟨n, hanswer, rfl⟩ := hr
      cases r with
      | ok result =>
          rw [show t'.id = t.id from ht]
          exact db (markSent t.id result)
      | error err =>
          rw [show t'.id = t.id from ht]
          exact bind (db (markFailed t.id (hsame n payload err hanswer.symm)))
            fun _ => .throw _

theorem createInstance (definitionId itemId requesterId : Uuid)
    (stepId : String) :
    Indistinct
      (Repositories.Instances.create definitionId itemId requesterId stepId)
      (Repositories.Instances.create definitionId itemId requesterId
        stepId) := by
  refine bind (execute fun i w tickets dispatches => ?_) fun id =>
    bind (load id none) fun row => Alike.okOr _ row
  by_cases hkeys : ((w.db.definitions.find? definitionId).isSome &&
      (w.db.items.find? itemId).isSome &&
        (w.db.users.find? requesterId).isSome) = true
  · simp [Db.insertInstance, World.withFilings, Db.withTickets, hkeys,
      Function.comp_def]
  · simp [Db.insertInstance, World.withFilings, Db.withTickets, hkeys]

theorem saveProgress (instanceId : Uuid) (stepId : String) (answers : JsonValue)
    (status : InstanceStatus) :
    Indistinct
      (Repositories.Instances.saveProgress instanceId stepId answers status)
      (Repositories.Instances.saveProgress instanceId stepId answers status) :=
  bind (execute fun _ _ _ _ => rfl) fun _ => getInstance instanceId

theorem createApproval (instanceId : Uuid) (stepId : String)
    (approverUserId : Uuid) (expiresAt : Option Timestamp) :
    Indistinct
      (Repositories.Approvals.create instanceId stepId approverUserId expiresAt)
      (Repositories.Approvals.create instanceId stepId approverUserId
        expiresAt) := by
  refine bind (execute fun i w tickets dispatches => ?_) fun id =>
    bind (getApproval id) fun row => Alike.okOr _ row
  by_cases hkeys : ((w.db.instances.find? instanceId).isSome &&
      (w.db.users.find? approverUserId).isSome) = true
  · simp [Db.insertApproval, World.withFilings, Db.withTickets, hkeys,
      Function.comp_def]
  · simp [Db.insertApproval, World.withFilings, Db.withTickets, hkeys]

theorem decideApproval (id : Uuid) (status : ApprovalStatus)
    (comment : Option String) :
    Indistinct (Repositories.Approvals.decide id status comment)
      (Repositories.Approvals.decide id status comment) :=
  execute fun _ _ _ _ => rfl

theorem approvalsDb {p q : Async DbError α} (h : Indistinct p q) :
    Indistinct (Approvals.db p) (Approvals.db q) :=
  Alike.mapError _ h

theorem expiresAt (timeoutSeconds : Option Int64) :
    Indistinct (Approvals.expiresAt timeoutSeconds)
      (Approvals.expiresAt timeoutSeconds) := by
  cases timeoutSeconds with
  | none => exact pure none
  | some secs =>
      refine bind (Alike.atomic fun i w w' hw => ?_) fun now => ?_
      · cases hw with
        | mk htickets hdispatches => exact ⟨.mk htickets hdispatches, .ok rfl⟩
      · cases Approvals.deadline now secs with
        | none => exact .exit .panicked
        | some t => exact pure (some t)

theorem notifyNewApproval (approval : PendingApproval) (requester : User) :
    Indistinct (Approvals.notifyNewApproval approval requester)
      (Approvals.notifyNewApproval approval requester) := by
  refine bind (approvalsDb (getUser _)) fun approver => ?_
  cases approver with
  | none => exact pure ()
  | some approver =>
      refine bind (approvalsDb (getInstance _)) fun row => ?_
      cases row with
      | none =>
          exact bind (pure _) fun _ =>
            bind (approvalsDb getSettings) fun _ => note _
      | some row =>
          exact bind (approvalsDb (getItem _)) fun item =>
            bind (pure _) fun _ =>
              bind (approvalsDb getSettings) fun _ => note _

theorem createForInstance (deps : Deps)
    (reword : TargetSystem → Nat → JsonValue → ConnectorError → ConnectorError)
    (instanceId : Uuid) (stepId : String) (requester : User)
    (resolution : ApproverResolution) (timeoutSeconds : Option Int64) :
    Indistinct
      (Approvals.createForInstance deps instanceId stepId requester resolution
        timeoutSeconds)
      (Approvals.createForInstance (deps.reworded reword) instanceId
        stepId requester resolution timeoutSeconds) := by
  refine bind ?_ fun approverUserId =>
    bind (expiresAt timeoutSeconds) fun expiresAt =>
    bind (approvalsDb (createApproval _ _ _ _)) fun approval =>
      bind (notifyNewApproval approval requester) fun _ => pure approval
  cases resolution with
  | static userId => exact pure userId
  | managerOfRequester => exact Alike.okOr _ _
  | roleInDepartment role =>
      exact okOr _ _ fun departmentId _ =>
        bind (approvalsDb (select fun _ _ _ => rfl)) fun candidates =>
          Alike.okOr _ _

theorem saved (instanceId : Uuid) (stepId : String) (answers : Answers)
    (status : InstanceStatus) :
    Indistinct (Orchestrator.saveProgress instanceId stepId answers status)
      (Orchestrator.saveProgress instanceId stepId answers status) :=
  bind (db (saveProgress instanceId stepId _ status)) fun row =>
    Alike.okOr _ row

/-- Round by round. -/
theorem applyOutcome (hfit : deps.FitAlike reword)
    (definition : WorkflowDefinition) (instanceId requesterUserId : Uuid)
    (answers : Answers) (rounds : Nat) (stepId : String) (outcome : Outcome) :
    Indistinct
      (Orchestrator.applyOutcome deps definition instanceId requesterUserId
        answers rounds stepId outcome)
      (Orchestrator.applyOutcome (deps.reworded reword) definition instanceId
        requesterUserId answers rounds stepId outcome) := by
  induction rounds generalizing stepId outcome with
  | zero => trivial
  | succ rounds ih =>
      cases outcome with
      | awaitingAnswer => exact saved instanceId stepId answers .inProgress
      | awaitingApproval resolution timeoutSeconds =>
          refine bind (db (getUser requesterUserId)) fun requester => okOr _ _
            fun requester _ => ?_
          exact bind (Alike.mapError _
            (createForInstance deps reword instanceId stepId requester
              resolution
              timeoutSeconds)) fun _ =>
                saved instanceId stepId answers .awaitingApproval
      | readyToSubmitTicket =>
          refine bind (attempt (dispatchTicket hfit definition instanceId stepId
            requesterUserId answers)) fun dispatched => ?_
          cases dispatched with
          | error err =>
              exact bind (db (saveProgress instanceId stepId _ .failed))
                fun _ => .throw err
          | ok =>
              exact bind (Alike.liftExcept _) fun next => ih next.1 next.2
      | finished endOutcome =>
          exact saved instanceId stepId answers
            (Orchestrator.endStatus endOutcome)

section Requests

variable (hfit : deps.FitAlike reword) (rounds : Nat)
include hfit

theorem startInstance (catalogItemId : Uuid) (requester : User) :
    Indistinct (Orchestrator.startInstance deps rounds catalogItemId requester)
      (Orchestrator.startInstance (deps.reworded reword) rounds catalogItemId
        requester) := by
  refine bind (db (getItem catalogItemId)) fun item => okOr _ _ fun item _ => ?_
  split
  · exact .throw _
  · refine bind (db (getDefinition _)) fun definition =>
      okOr _ _ fun definition _ => ?_
    refine bind (Alike.liftExcept _) fun next =>
      bind (db (createInstance _ _ _ _)) fun row => ?_
    exact applyOutcome hfit definition row.id requester.id _ rounds
      next.1 next.2

theorem submitAnswer (instanceId : Uuid) (requester : User) (fieldKey : String)
    (value : JsonValue) :
    Indistinct (Orchestrator.submitAnswer deps rounds instanceId requester
      fieldKey value)
      (Orchestrator.submitAnswer (deps.reworded reword) rounds instanceId
        requester fieldKey value) := by
  refine bind (db (load instanceId _)) fun row => okOr _ _ fun row _ => ?_
  split
  · exact .throw _
  split
  · exact .throw _
  refine bind (db (getDefinition _)) fun definition =>
    okOr _ _ fun definition _ => ?_
  exact bind (Alike.liftExcept _) fun next =>
    applyOutcome hfit definition row.id requester.id _ rounds next.1 next.2

theorem resumeAfterApproval (instanceId : Uuid) (stepId : String)
    (decision : ApprovalDecision) :
    Indistinct
      (Orchestrator.resumeAfterApproval deps rounds instanceId stepId decision)
      (Orchestrator.resumeAfterApproval (deps.reworded reword) rounds
        instanceId stepId decision) := by
  refine bind (db (load instanceId none)) fun row => okOr _ _ fun row _ => ?_
  refine bind (db (getDefinition _)) fun definition =>
    okOr _ _ fun definition _ => ?_
  exact bind (Alike.liftExcept _) fun next =>
    applyOutcome hfit definition row.id row.requesterUserId _ rounds
      next.1 next.2

theorem decide (approvalId userId : Uuid) (decision : ApprovalDecision)
    (comment : Option String) :
    Indistinct (Server.decide deps rounds approvalId userId decision comment)
      (Server.decide (deps.reworded reword) rounds approvalId userId decision
        comment) := by
  refine bind (Alike.mapError _ ?_) fun approval => bind (note _) fun _ =>
    resumeAfterApproval hfit rounds _ _ decision
  refine bind (approvalsDb (getApproval approvalId)) fun found =>
    okOr _ _ fun approval _ => ?_
  split
  · exact .throw _
  split
  · exact .throw _
  refine bind (approvalsDb (decideApproval _ _ _)) fun flipped => ?_
  split
  · exact bind (approvalsDb (getApproval approvalId)) fun found =>
      Alike.okOr _ found
  · exact .throw _

theorem handleExpired (approval : PendingApproval) :
    Indistinct (Server.handleExpired deps rounds approval)
      (Server.handleExpired (deps.reworded reword) rounds approval) := by
  refine bind (note _) fun _ =>
    bind (attempt (resumeAfterApproval hfit rounds _ _ .reject))
      fun result => ?_
  cases result with
  | ok => exact pure ()
  | error err => exact note _

/-- Approval by approval. -/
theorem pollOnce :
    Indistinct (Approvals.pollOnce (Server.handleExpired deps rounds))
      (Approvals.pollOnce (Server.handleExpired (deps.reworded reword)
        rounds)) := by
  refine bind (select fun _ _ _ => rfl) fun expired => ?_
  induction expired with
  | nil => exact pure ()
  | cons approval rest ih =>
      refine bind (decideApproval _ _ _) fun flipped => ?_
      cases flipped with
      | false => exact ih
      | true => exact bind (handleExpired hfit rounds approval) fun _ => ih

end Requests

section Pages

variable (pages : PageDeps) (user : User)

theorem layout (activeNav : String) :
    Indistinct (Web.Layout.load user activeNav)
      (Web.Layout.load user activeNav) :=
  bind (db getSettings) fun _ => pure _

theorem listForRequester (id : Uuid) :
    Indistinct (Repositories.Instances.listForRequester pages.createdAt id)
      (Repositories.Instances.listForRequester pages.createdAt id) :=
  select fun _ _ _ => rfl

theorem listPendingForApprover (id : Uuid) :
    Indistinct
      (Repositories.Approvals.listPendingForApprover pages.createdAt id)
      (Repositories.Approvals.listPendingForApprover pages.createdAt id) :=
  select fun _ _ _ => rfl

theorem getOne (id : Uuid) :
    Indistinct (Routes.Instances.getOne user id)
      (Routes.Instances.getOne user id) := by
  refine bind (db (getInstance id)) fun found => okOr _ _ fun row _ => ?_
  split
  · exact pure row
  · exact .throw _

theorem approvalRows (pending : List PendingApproval) :
    Indistinct (Web.Approvals.approvalRows pages pending)
      (Web.Approvals.approvalRows pages pending) := by
  induction pending with
  | nil => exact pure []
  | cons approval pending ih =>
      refine bind (bind (db (getInstance _)) fun found => ?_) fun row =>
        bind ih fun rows => pure _
      cases found with
      | none => exact pure none
      | some row =>
          exact bind (db (getItem _)) fun item =>
            bind (db (getUser _)) fun _ => pure _

theorem itemDetail (rounds : Nat) (id : Uuid) :
    Indistinct (Web.CatalogPage.itemDetail rounds user id)
      (Web.CatalogPage.itemDetail rounds user id) := by
  refine bind (layout user _) fun layout => bind (db (getItem id)) fun found =>
    okOr _ _ fun item _ => bind (db (getDefinition _)) fun found =>
      okOr _ _ fun definition _ => ?_
  split
  · exact pure _
  · trivial

theorem answerPage (hfit : deps.FitAlike reword) (rounds : Nat) (id : Uuid)
    (form : Web.AnswerForm) :
    Indistinct (Web.submitAnswer deps rounds user id form)
      (Web.submitAnswer (deps.reworded reword) rounds user id form) :=
  bind (db (getInstance id)) fun _ => okOr _ _ fun _ _ =>
    bind (db (getDefinition _)) fun _ =>
    okOr _ _ fun _ _ => bind (submitAnswer hfit rounds id user _ _)
      fun _ => pure _

theorem decidePage (hfit : deps.FitAlike reword) (rounds : Nat) (id : Uuid)
    (form : Web.DecideForm) :
    Indistinct (Web.Approvals.decide deps rounds user id form)
      (Web.Approvals.decide (deps.reworded reword) rounds user id form) :=
  okOr _ _ fun _ _ => bind (decide hfit rounds id user.id _ _) fun _ => pure _

end Pages

end Indistinct

/-- The same ticket is the newest. -/
theorem getByInstanceId_alike (createdAt : Uuid → Timestamp)
    (instanceId : Uuid) :
    Alike World.Veils
      (Exit.Agree fun t t' => t'.map Ticket.veiled = t.map Ticket.veiled)
      (Repositories.Tickets.getByInstanceId createdAt instanceId)
      (Repositories.Tickets.getByInstanceId createdAt instanceId) := by
  have hnewest : ∀ t : Table Ticket.id,
      (((t.rows.filter fun row =>
        row.workflowInstanceId == instanceId).insertionSort
        fun a b => createdAt b.id ≤ createdAt a.id).head?).map Ticket.veiled =
      (((t.rows.map Ticket.veiled).filter fun row =>
        row.workflowInstanceId == instanceId).insertionSort
          fun a b => createdAt b.id ≤ createdAt a.id).head? := by
    intro t
    rw [← List.head?_map, List.filter_map]
    refine congrArg List.head? ?_
    exact List.map_insertionSort _ _ _ _ fun a _ b _ => Iff.rfl
  refine Alike.atomic fun i w w' hw => ?_
  cases hw with
  | @mk tickets dispatches htickets hdispatches =>
      cases i.fault with
      | none =>
          refine ⟨.mk htickets hdispatches,
            .ok ((hnewest tickets).trans
              (Eq.trans ?_ (hnewest w.db.tickets).symm))⟩
          rw [htickets]
      | lostRequest | lostReply => exact ⟨.mk htickets hdispatches, .error _⟩

/-- Without the error. -/
def Web.TicketNote.veiled : TicketNote → TicketNote
  | .failed _ => .failed none
  | note => note

def Web.RequestDetailPage.veiled
    (page : RequestDetailPage) : RequestDetailPage :=
  { page with ticket := page.ticket.map TicketNote.veiled }

theorem Web.veiled_ticketNote (ticketError : Option String) (ticket : Ticket) :
    (ticketNote ticketError ticket).veiled = ticketNote none ticket.veiled := by
  obtain ⟨_, _, _, _, externalTicketId, externalTicketUrl, status, _⟩ := ticket
  unfold ticketNote
  by_cases hfailed : status = .failed
  · simp [Ticket.veiled, hfailed, TicketNote.veiled]
  · cases externalTicketId <;> cases externalTicketUrl <;>
      simp [Ticket.veiled, hfailed, TicketNote.veiled]

theorem Web.map_veiled_ticketNote (ticketError : Option String)
    (ticket : Option Ticket) :
    (ticket.map (ticketNote ticketError)).map TicketNote.veiled =
      (ticket.map Ticket.veiled).map (ticketNote none) := by
  cases ticket with
  | none => rfl
  | some ticket => exact congrArg some (veiled_ticketNote ticketError ticket)

/-- Without the error, the note is the same for a veiled ticket. -/
theorem Web.map_ticketNote (ticket : Option Ticket) :
    ticket.map (ticketNote none) = (ticket.map Ticket.veiled).map
      (ticketNote none) := by
  cases ticket <;> rfl

def PortalReply.veiled : PortalReply → PortalReply
  | .requestPage page => .requestPage page.veiled
  | reply => reply

/-- The page of a request shows the staff what the connector said. -/
def PortalRequest.showsErrors : PortalRequest → Bool
  | .requestPage user _ => user.role.isStaff
  | _ => false

/-- Replies that differ at most in what the staff is shown. -/
def PortalRequest.SameReply (request : PortalRequest)
    (reply reply' : PortalReply) : Prop :=
  reply'.veiled = reply.veiled ∧ (request.showsErrors = false → reply' = reply)

namespace Indistinct

variable {deps : Deps}
  {reword : TargetSystem → Nat → JsonValue → ConnectorError → ConnectorError}

theorem showRequest (pages : PageDeps) (user : User) (id : Uuid) :
    Alike World.Veils
      (Exit.Agree fun t t' => t'.render.veiled = t.render.veiled ∧
        (user.role.isStaff = false → t'.render = t.render))
      (Web.Requests.showRequest pages user id)
        (Web.Requests.showRequest pages user id) := by
  refine Alike.bind (layout user _) fun layout _ hlayout => ?_
  subst hlayout
  refine Alike.bind (db (getInstance id)) fun found _ hfound => ?_
  subst hfound
  refine Alike.bind (Alike.okOr _ found) fun row _ hrow => ?_
  subst hrow
  split
  · refine Alike.bind (db (getItem _)) fun item _ hitem => ?_
    subst hitem
    refine Alike.bind (Alike.okOr _ item) fun item _ hitem => ?_
    subst hitem
    refine Alike.bind (db (getDefinition _)) fun definition _ hdefinition => ?_
    subst hdefinition
    refine Alike.bind (Alike.okOr _ definition)
      fun definition _ hdefinition => ?_
    subst hdefinition
    refine Alike.bind (Alike.mapError
      _ (getByInstanceId_alike pages.createdAt row.id))
      fun ticket ticket' hticket => .pure ⟨?_, fun hstaff => ?_⟩
    · simp only [Web.RequestDetailTemplate.render, Web.RequestDetailPage.veiled,
        Web.map_veiled_ticketNote, hticket]
    · simp only [Web.RequestDetailTemplate.render, hstaff, Bool.false_eq_true,
        ↓reduceIte]
      rw [Web.map_ticketNote ticket', Web.map_ticketNote ticket, hticket]
  · exact .throw _

/-- Everything the portal serves, with the connectors in other words. -/
theorem serve (hfit : deps.FitAlike reword) (pages : PageDeps)
    (request : PortalRequest) (rounds : Nat) :
    Alike World.Veils (Exit.Agree request.SameReply)
      (PortalRequest.serve deps pages (request, rounds))
      (PortalRequest.serve (deps.reworded reword) pages (request, rounds)) := by
  have hsame : ∀ {p q : Async ApiError PortalReply}, Indistinct p q →
      Alike World.Veils (Exit.Agree request.SameReply) p q :=
    Alike.mono fun x y hxy => by
      cases hxy with
      | ok ha => exact .ok (ha ▸ ⟨rfl, fun _ => rfl⟩)
      | error e => exact .error e
      | panicked => exact .panicked
  cases request with
  | start user catalogItemId =>
      exact hsame (bind (startInstance hfit rounds catalogItemId user)
        fun _ => pure _)
  | listInstances user =>
      exact hsame (bind (db (listForRequester pages user.id)) fun _ => pure _)
  | getInstance user id => exact hsame (bind (getOne user id) fun _ => pure _)
  | submitAnswer user id fieldKey value =>
      exact hsame (bind (submitAnswer hfit rounds id user fieldKey value)
        fun _ => pure _)
  | listApprovals user =>
      exact hsame (bind (db (listPendingForApprover pages user.id))
        fun _ => pure _)
  | decide user id decision comment =>
      exact hsame (bind (decide hfit rounds id user.id decision comment)
        fun _ => pure _)
  | dashboardPage user =>
      exact hsame <| bind (bind (layout user _) fun _ =>
        bind (db (listForRequester pages user.id)) fun _ =>
          bind (db (listPendingForApprover pages user.id)) fun _ => pure _)
            fun _ => pure _
  | catalogPage user =>
      exact hsame <| bind (bind (layout user _) fun _ =>
        bind (db (select fun _ _ _ => rfl)) fun _ => pure _) fun _ => pure _
  | itemPage user id =>
      exact hsame (bind (itemDetail user rounds id) fun _ => pure _)
  | startPage user id =>
      exact hsame <| bind (bind (startInstance hfit rounds id user)
        fun _ => pure _) fun _ => pure _
  | requestsPage user =>
      exact hsame <| bind (bind (layout user _) fun _ =>
        bind (db (listForRequester pages user.id)) fun _ => pure _)
          fun _ => pure _
  | requestPage user id =>
      refine Alike.bind (showRequest pages user id) fun t t' ht =>
        .pure ⟨?_, fun h => ?_⟩
      · exact congrArg PortalReply.requestPage ht.1
      · exact congrArg PortalReply.requestPage (ht.2 h)
  | answerPage user id form =>
      exact hsame (bind (answerPage user hfit rounds id form) fun _ => pure _)
  | approvalsPage user =>
      exact hsame <| bind (bind (layout user _) fun _ =>
        bind (db (listPendingForApprover pages user.id)) fun pending =>
          bind (approvalRows pages pending) fun _ => pure _) fun _ => pure _
  | decidePage user id form =>
      exact hsame (bind (decidePage user hfit rounds id form) fun _ => pure _)
  | poll => exact hsame (bind (db (pollOnce hfit rounds)) fun _ => pure _)

end Indistinct

/-- The portal of two deployments whose connectors file and refuse the
same tickets. -/
def rewordedTwins {deps : Deps}
    {reword : TargetSystem → Nat → JsonValue → ConnectorError → ConnectorError}
    (hfit : deps.FitAlike reword) (pages : PageDeps) :
    Twins (portal deps pages) (portal (deps.reworded reword) pages) where
  rel := World.Veils
  same l := Exit.Agree l.1.SameReply
  input _ _ h := h
  drift := by
    intro w v _ hw hdrift
    cases hw with
    | @mk tickets dispatches htickets hdispatches =>
        refine ⟨v.withFilings tickets dispatches, ?_, .mk ?_ ?_⟩
        · exact ⟨hdrift.now, hdrift.definitions, hdrift.instances,
            hdrift.approvals, rfl, rfl, hdrift.log⟩
        · rw [htickets, hdrift.tickets]
        · rw [hdispatches, hdrift.dispatches]
  code l := Indistinct.serve hfit pages l.1 l.2

namespace Refused

/-- The target system is down. -/
def deps : Deps :=
  { Sample.deps with
    connectors := fun _ => some
      fun _ _ => .error (.transport "10.0.0.7: connection refused") }

/-- A request fails, and its requester looks at it. -/
def viewed :
    Option (Config Input World (PortalRequest × Nat) ApiError PortalReply) :=
  (portal deps Sample.pages).play .free ⟨Sample.world Sample.ticketOnly, []⟩ <|
    Sample.visit 0 100 13 (.start Sample.requester Sample.item.id) ++
      Sample.visit 1 200 5 (.requestPage Sample.requester (Sample.id 102))

/-- The target system says something shorter. -/
theorem deps_fitAlike :
    deps.FitAlike fun _ _ _ _ => .config "expired token" := by
  intro target connector hconnector n payload err herr
  obtain rfl : connector = fun _ _ =>
      .error (.transport "10.0.0.7: connection refused") :=
    (Option.some.inj hconnector).symm
  cases herr
  show (textColumn (ConnectorError.config "expired token").message).isSome =
    (textColumn (ConnectorError.transport
      "10.0.0.7: connection refused").message).isSome
  decide

end Refused

/-- However requests are interleaved, and whatever the connectors say against
the tickets they refuse, nobody but the staff is answered anything else. -/
theorem connector_errors_confined {deps : Deps}
    {reword : TargetSystem → Nat → JsonValue → ConnectorError → ConnectorError}
    (hfit : deps.FitAlike reword) (pages : PageDeps) {w w' : World}
    (hw : w.Veils w')
    {c : Config Input World (PortalRequest × Nat) ApiError PortalReply}
    (hreach : Reaches (portal deps pages) .free ⟨w, []⟩ c) :
    ∃ c', Reaches (portal (deps.reworded reword) pages) .free ⟨w', []⟩ c' ∧
      c.state.Veils c'.state ∧
      ∀ (n : Nat) (request : PortalRequest) (rounds : Nat)
        (x : Exit ApiError PortalReply),
        c.threads[n]? = some ((request, rounds), .exit x) →
        ∃ x', c'.threads[n]? = some ((request, rounds), .exit x') ∧
          x'.map PortalReply.veiled = x.map PortalReply.veiled ∧
          (request.showsErrors = false → x' = x) := by
  obtain ⟨c', hreach', hat⟩ :=
    (Twins.at_nil (W := rewordedTwins hfit pages) hw).reaches hreach
  refine ⟨c', hreach', hat.state, fun n request rounds x hn => ?_⟩
  obtain ⟨x', hn', hsame⟩ := hat.answer hn
  refine ⟨x', hn', ?_⟩
  cases hsame with
  | ok h =>
      exact ⟨congrArg Exit.ok h.1, fun hshows => congrArg Exit.ok (h.2 hshows)⟩
  | error e => exact ⟨rfl, fun _ => rfl⟩
  | panicked => exact ⟨rfl, fun _ => rfl⟩

open Refused in
theorem connector_errors_confined_refused :
    let c := viewed.get (by decide)
    ∃ c' page, Reaches (portal
        (deps.reworded fun _ _ _ _ => .config "expired token") Sample.pages)
        .free ⟨Sample.world Sample.ticketOnly, []⟩ c' ∧
      c.state.Veils c'.state ∧
      c'.threads[1]? = some ((.requestPage Sample.requester (Sample.id 102), 9),
        .exit (.ok (.requestPage page))) ∧
      page.ticket = some (.failed none) := by
  intro c
  obtain ⟨c', hreach, hveils, hanswers⟩ :=
    connector_errors_confined deps_fitAlike Sample.pages
      (World.Veils.refl (Sample.world Sample.ticketOnly))
      (System.play_reaches (Option.some_get
      (by decide : viewed.isSome = true)).symm)
  obtain ⟨x, hn, -, hsame⟩ :=
    hanswers 1 (.requestPage Sample.requester (Sample.id 102)) 9 _ rfl
  rw [hsame rfl] at hn
  exact ⟨c', _, hreach, hveils, hn, rfl⟩

end Servcat
