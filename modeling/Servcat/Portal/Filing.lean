/-
The table of tickets is a journal of what the connectors were asked: however
requests interleave and whatever fails, each call has a row of its own, which
records nothing but that call, and what a row says about its call is final.
-/
import Servcat.Atomic.Auxiliary
import Servcat.Portal.Serving
import Servcat.Serial.Effects

namespace Servcat

open Atomic Keyed

namespace Dispatch

/-- The row that is inserted before the call. -/
def openTicket (d : Dispatch) (id : Uuid) : Ticket :=
  pendingTicket id d.instanceId d.targetSystem d.payload

/-- The row that records how the call went, if it has room for that. -/
def closedTicket (d : Dispatch) (id : Uuid) : Option Ticket :=
  match d.result with
  | .ok result =>
      result.stored.map (sentTicket id d.instanceId d.targetSystem d.payload)
  | .error err =>
      (textColumn err.message).map
        (failedTicket id d.instanceId d.targetSystem d.payload)

end Dispatch

/-- The row was inserted for this call, and says nothing or how
the call went. -/
def Ticket.Records (ticket : Ticket) (d : Dispatch) : Prop :=
  ticket = d.openTicket ticket.id ∨ d.closedTicket ticket.id = some ticket

/-- How far a request is with a ticket. -/
inductive Filing where
  | idle
  /-- The row has been inserted. -/
  | opened (ticket : Ticket)
  /-- The connector has answered. -/
  | called (ticketId : Uuid) (d : Dispatch)

/-- What one step of thread `n` may do to tickets. -/
inductive Files (n : Nat) : Filing → World → Filing → World → Prop
  | apart {φ : Filing} {w w' : World} (htickets : w'.db.tickets = w.db.tickets)
      (hdispatches : w'.dispatches = w.dispatches) : Files n φ w φ w'
  | opens {φ : Filing} {w : World} (id instanceId : Uuid)
      (target : TargetSystem) (payload : JsonValue) {tickets : Table Ticket.id}
      (hinsert : w.db.tickets.insert?
        (pendingTicket id instanceId target payload) =
        some tickets) :
      Files n φ w (.opened (pendingTicket id instanceId target payload))
        (w.commit n (w.db.withTickets tickets) [])
  | calls {w : World} {id : Uuid} (d : Dispatch) :
      Files n (.opened (d.openTicket id)) w (.called id d)
        { w with dispatches := d :: w.dispatches }
  | closes {w : World} {id : Uuid} {d : Dispatch} {f : Ticket → Ticket}
      (hkey : ∀ row, (f row).id = row.id)
      (hf : d.closedTicket id = some (f (d.openTicket id))) :
      Files n (.called id d) w .idle
        (w.commit n (w.db.withTickets (w.db.tickets.modify id f hkey)) [])

/-- The automaton of thread `n`. -/
abbrev filings (n : Nat) : Automaton Input World Filing :=
  ⟨fun _ i _ => i.thread = n, Files n⟩

/-- The program files tickets as it should. -/
abbrev Filed {ε α : Type} (n : Nat) (p : Async ε α) : Prop :=
  Within (filings n) (fun _ => True) p

section Rules

variable {ε α β : Type} {n : Nat}

theorem filings_looks : Looks (filings n) fun _ => True :=
  fun φ _ _ _ _ => ⟨φ, .apart rfl rfl, trivial⟩

/-- Programs that write neither tickets nor the list of calls. -/
theorem Filed.of_leaves {still : World → World → Prop}
    (hstill : ∀ w w', still w w' → w'.db.tickets = w.db.tickets ∧
      w'.dispatches = w.dispatches) {p : Async ε α} (hp : Leaves still p) :
    Filed n p := by
  refine Within.of_leaves (fun φ i w w' _ _ h => ?_) hp
  obtain ⟨htickets, hdispatches⟩ := hstill w w' h
  exact ⟨φ, .apart htickets hdispatches, trivial⟩

theorem Filed.logsOnly {p : Async ε α}
    (hp : Leaves World.LogsOnly p) : Filed n p :=
  of_leaves (fun _ _ ⟨_, h⟩ => by rw [h]; exact ⟨rfl, rfl⟩) hp

theorem Filed.instancesOnly {p : Async ε α}
    (hp : Leaves World.InstancesOnly p) :
    Filed n p :=
  of_leaves (fun _ _ ⟨_, _, h⟩ => by rw [h]; exact ⟨rfl, rfl⟩) hp

theorem Filed.approvalsOnly {p : Async ε α}
    (hp : Leaves World.ApprovalsOnly p) :
    Filed n p :=
  of_leaves (fun _ _ ⟨_, _, h⟩ => by rw [h]; exact ⟨rfl, rfl⟩) hp

theorem Filed.read {f : World → α} {g : DbError → ε} {k : α → Async ε β}
    (hk : ∀ a, Filed n (k a)) : Filed n ((Servcat.select f).mapError g >>= k) :=
  read_within filings_looks hk

/-- A statement that writes tickets. -/
theorem execute_files {f : Input → World → Option (α × Db × List Event)}
    {post : Exit DbError α → Filing → Prop} {φ : Filing}
    (hfault : ∀ ψ, post (.error .sqlx) ψ)
    (h : ∀ i w a db events, f i w = some (a, db, events) →
      ∃ φ', Files n φ w φ' (w.commit n db events) ∧ post (.ok a) φ') :
    Follows (filings n) post (execute f) φ := by
  refine (follows_atomic _ _).mpr fun i w hi => ?_
  obtain rfl : i.thread = n := hi
  cases hf : f i w with
  | none => exact ⟨φ, .apart rfl rfl, hfault φ⟩
  | some result =>
      obtain ⟨a, db, events⟩ := result
      obtain ⟨φ', hfiles, hpost⟩ := h i w a db events hf
      cases i.fault with
      | none => exact ⟨φ', hfiles, hpost⟩
      | lostRequest => exact ⟨φ, .apart rfl rfl, hfault φ⟩
      | lostReply => exact ⟨φ', hfiles, hfault φ'⟩

end Rules

section Programs

variable {n : Nat} {deps : Deps}

/-- A row is inserted, and its key handed over. -/
theorem createTicket_follows (instanceId : Uuid) (target : TargetSystem)
    (payload : JsonValue) (φ : Filing) :
    Follows (filings n)
      (fun x ψ => ∀ ticket, x = .ok ticket →
        ψ = .opened (pendingTicket ticket.id instanceId target payload))
      (Repositories.Tickets.create instanceId target payload) φ := by
  rw [Repositories.Tickets.create, follows_bind]
  refine execute_files (fun ψ ticket h => by cases h)
    fun i w id db events hsome => ?_
  obtain ⟨db', hinsert, heq⟩ := Option.map_eq_some_iff.mp hsome
  cases heq
  obtain ⟨tickets, htickets, rfl⟩ := Db.insertTicket_inserts hinsert
  refine ⟨_, .opens i.uuid instanceId target payload htickets, ?_⟩
  refine (follows_bind _ _ _ _).mpr ((follows_atomic _ _).mpr fun j v _ => ?_)
  cases j.fault with
  | lostRequest | lostReply =>
      exact ⟨_, .apart rfl rfl, fun ticket h => by cases h⟩
  | none =>
      refine ⟨_, .apart rfl rfl, fun ticket h => ?_⟩
      cases hfound : v.db.tickets.find? i.uuid with
      | none => simp [hfound, Exit.ofOption] at h
      | some row =>
          have hticket : row = ticket := by
            simpa [hfound, Program.onOk, Program.okOr, Exit.ofOption] using h
          rw [← hticket, Table.key_of_find? hfound]

/-- What the connector has answered is recorded, if the row has room for it. -/
theorem markSent_follows {id : Uuid} {d : Dispatch} {result : DispatchResult}
    (hresult : d.result = .ok result) :
    Follows (filings n) (fun _ _ => True)
      (Repositories.Tickets.markSent id result.externalTicketId
        result.externalTicketUrl) (.called id d) := by
  refine execute_files (fun _ => trivial) fun i w a db events hsome => ?_
  rw [Db.markSent_eq, Option.map_map] at hsome
  obtain ⟨stored, hstored, heq⟩ := Option.map_eq_some_iff.mp hsome
  cases heq
  refine ⟨_, .closes _ ?_, trivial⟩
  rw [Dispatch.closedTicket, hresult]
  exact congrArg (Option.map _) hstored

theorem markFailed_follows {id : Uuid} {d : Dispatch} {err : ConnectorError}
    (hresult : d.result = .error err) :
    Follows (filings n) (fun _ _ => True)
      (Repositories.Tickets.markFailed id err.message) (.called id d) := by
  refine execute_files (fun _ => trivial) fun i w a db events hsome => ?_
  rw [Db.markFailed_eq, Option.map_map] at hsome
  obtain ⟨stored, hstored, heq⟩ := Option.map_eq_some_iff.mp hsome
  cases heq
  refine ⟨_, .closes _ ?_, trivial⟩
  rw [Dispatch.closedTicket, hresult]
  exact congrArg (Option.map _) hstored

/-- The call of the connector and what is recorded of it. -/
theorem dispatchTicket_filed (definition : WorkflowDefinition)
    (instanceId : Uuid) (stepId : String) (requesterUserId : Uuid)
    (answers : Answers) :
    Filed n (Orchestrator.dispatchTicket deps definition instanceId stepId
      requesterUserId answers) := by
  unfold Orchestrator.dispatchTicket
  refine .okOr fun target => .okOr fun mapping => .okOr fun connector => ?_
  refine Filed.read fun requester => .okOr fun requester => ?_
  refine Filed.read fun row => .okOr fun row => ?_
  refine Filed.read fun item => .okOr fun item =>
    .bind (.exit _) fun payload => ?_
  intro φ _
  rw [follows_bind, Orchestrator.db, follows_mapError]
  refine (createTicket_follows instanceId target payload φ).mono
    fun x ψ hx => ?_
  cases x with
  | error | panicked => trivial
  | ok ticket =>
      obtain rfl := hx ticket rfl
      refine (follows_bind _ _ _ _).mpr
        ((follows_atomic _ _).mpr fun i w _ => ?_)
      refine ⟨_, .calls ⟨instanceId, stepId, target, payload, _⟩, ?_⟩
      cases hresult : connector w.dispatches.length payload with
      | ok result =>
          exact (follows_mapError _ _ _ _).mpr (markSent_follows rfl)
      | error err =>
          refine (follows_bind _ _ _ _).mpr ((follows_mapError _ _ _ _).mpr ?_)
          refine (markFailed_follows rfl).mono fun x ψ _ => ?_
          cases x <;> trivial

theorem applyOutcome_filed (definition : WorkflowDefinition)
    (instanceId requesterUserId : Uuid) (answers : Answers) (rounds : Nat)
    (stepId : String) (outcome : Outcome) :
    Filed n
      (Orchestrator.applyOutcome deps definition instanceId requesterUserId
      answers rounds stepId outcome) := by
  have hwrite : ∀ stepId answersJson status, Filed n
      (Orchestrator.db <|
        Repositories.Instances.saveProgress instanceId stepId answersJson
          status) :=
    fun _ _ _ =>
      (Filed.instancesOnly (Repositories.Instances.saveProgress_leaves
        _ _ _ _)).mapError
  have hsave : ∀ stepId status, Filed n
      (Orchestrator.saveProgress instanceId stepId answers status) := fun _ _ =>
    (hwrite _ _ _).bind fun saved => .exit _
  induction rounds generalizing stepId outcome with
  | zero => exact .spin
  | succ rounds ih =>
      cases outcome with
      | awaitingAnswer => exact hsave stepId _
      | finished endOutcome => exact hsave stepId _
      | awaitingApproval resolution timeoutSeconds =>
          refine Filed.read fun requester => .okOr fun requester => ?_
          have hcreate :=
            Approvals.createForInstance_leaves deps instanceId stepId
              requester resolution timeoutSeconds
          exact (Filed.approvalsOnly hcreate).mapError.bind fun _ =>
            hsave stepId _
      | readyToSubmitTicket =>
          have hdispatch : Filed n (Orchestrator.dispatchTicket deps definition
              instanceId stepId requesterUserId answers) :=
            dispatchTicket_filed definition instanceId stepId
              requesterUserId answers
          refine hdispatch.attempt.bind fun dispatched => ?_
          cases dispatched with
          | error err => exact (hwrite _ _ _).bind fun _ => .exit _
          | ok => exact .liftExcept fun next => ih next.1 next.2

theorem load_filed (id : Uuid) (fieldKey : Option String) :
    Filed n (Orchestrator.db (Repositories.Instances.load id fieldKey)) :=
  (Filed.logsOnly (Repositories.Instances.load_leaves id fieldKey)).mapError

theorem startInstance_filed (rounds : Nat) (catalogItemId : Uuid)
    (requester : User) :
    Filed n
      (Orchestrator.startInstance deps rounds catalogItemId requester) := by
  refine Filed.read fun item => .okOr fun item => ?_
  split
  · exact .exit _
  refine Filed.read fun definition => .okOr fun definition => ?_
  refine .liftExcept fun ⟨stepId, outcome⟩ => ?_
  have hcreate := Repositories.Instances.create_leaves definition.id item.id
    requester.id stepId
  refine (Filed.instancesOnly hcreate).mapError.bind fun row => ?_
  exact applyOutcome_filed definition row.id requester.id _ rounds
    stepId outcome

theorem submitAnswer_filed (rounds : Nat) (instanceId : Uuid) (requester : User)
    (fieldKey : String) (value : JsonValue) :
    Filed n (Orchestrator.submitAnswer deps rounds instanceId requester fieldKey
      value) := by
  refine .bind (load_filed _ _) fun row => .okOr fun row => ?_
  split
  · exact .exit _
  split
  · exact .exit _
  refine Filed.read fun definition => .okOr fun definition =>
    .liftExcept fun next => ?_
  exact applyOutcome_filed definition row.id requester.id _ rounds next.1 next.2

theorem resumeAfterApproval_filed (rounds : Nat) (instanceId : Uuid)
    (stepId : String) (decision : ApprovalDecision) :
    Filed n (Orchestrator.resumeAfterApproval deps rounds instanceId stepId
      decision) := by
  refine .bind (load_filed _ _) fun row => .okOr fun row => ?_
  refine Filed.read fun definition => .okOr fun definition =>
    .liftExcept fun next => ?_
  exact applyOutcome_filed definition row.id row.requesterUserId _ rounds
    next.1 next.2

theorem serve_filed (pages : PageDeps) (request : PortalRequest × Nat) :
    Filed n (PortalRequest.serve deps pages request) := by
  have hflip : ∀ id status comment,
      Filed n (Repositories.Approvals.decide id status comment) := fun _ _ _ =>
    Filed.approvalsOnly (Repositories.Approvals.decide_leaves _ _ _)
  apply serve_within filings_looks
  · exact startInstance_filed
  · intro rounds id user fieldKey value _
    exact submitAnswer_filed rounds id user fieldKey value
  · intro rounds id userId decision comment _
    refine decide_within filings_looks hflip
      (fun _ => Filed.logsOnly (note_leaves _)) ?_
    intro instanceId stepId
    exact resumeAfterApproval_filed rounds instanceId stepId decision
  · intro _ rounds
    refine pollOnce_within filings_looks hflip
      (fun _ => Filed.logsOnly (note_leaves _)) ?_
    intro instanceId stepId
    exact resumeAfterApproval_filed rounds instanceId stepId .reject

end Programs

/-- The calls of the connectors, newest first, each with the row that was
inserted for it. -/
structure World.Journal (w : World)
    (filed : List (Dispatch × Uuid)) : Prop where
  calls : filed.map Prod.fst = w.dispatches
  once : (filed.map Prod.snd).Nodup
  recorded : ∀ entry ∈ filed, ∃ ticket,
    w.db.tickets.find? entry.2 = some ticket ∧ ticket.Records entry.1
  /-- A row without a call says nothing. -/
  uncalled : ∀ id ticket, w.db.tickets.find? id = some ticket →
    id ∉ filed.map Prod.snd → ∃ instanceId target payload,
      ticket = pendingTicket id instanceId target payload

/-- The same row later: it is closed at most once. -/
def Ticket.Becomes (ticket ticket' : Ticket) : Prop :=
  ticket' = ticket ∨ ∃ d : Dispatch, ticket = d.openTicket ticket.id ∧
    d.closedTicket ticket.id = some ticket'

/-- What no thread reads: which call each row was inserted for, and by
which thread. -/
structure Books where
  filed : List (Dispatch × Uuid)
  owner : Uuid → Nat

/-- What thread `n` relies on while it files a ticket. -/
def Filing.Owns (n : Nat) (w : World) (books : Books) : Filing → Prop
  | .idle => True
  | .opened ticket => w.db.tickets.find? ticket.id = some ticket ∧
      ticket.id ∉ books.filed.map Prod.snd ∧ books.owner ticket.id = n
  | .called id d => w.db.tickets.find? id = some (d.openTicket id) ∧
      (d, id) ∈ books.filed ∧ books.owner id = n

/-- A row that is closed says so, and is otherwise what it was. -/
theorem Dispatch.closedTicket_data {d : Dispatch} {id : Uuid} {ticket : Ticket}
    (h : d.closedTicket id = some ticket) :
    ticket.id = id ∧ ticket.dispatchStatus ≠ .pending ∧
      ticket.workflowInstanceId = d.instanceId ∧
      ticket.targetSystem = d.targetSystem ∧
      ticket.renderedPayloadJson = d.payload := by
  unfold closedTicket at h
  split at h
  · obtain ⟨stored, -, rfl⟩ := Option.map_eq_some_iff.mp h
    exact ⟨rfl, by simp [sentTicket], rfl, rfl, rfl⟩
  · obtain ⟨stored, -, rfl⟩ := Option.map_eq_some_iff.mp h
    exact ⟨rfl, by simp [failedTicket], rfl, rfl, rfl⟩

theorem Ticket.Becomes.trans {t t' t'' : Ticket} (h : t.Becomes t')
    (h' : t'.Becomes t'') : t.Becomes t'' := by
  rcases h with rfl | ⟨d, hopen, hclosed⟩
  · exact h'
  · rcases h' with rfl | ⟨d', hopen', -⟩
    · exact .inr ⟨d, hopen, hclosed⟩
    · obtain ⟨-, hsettled, -⟩ := Dispatch.closedTicket_data hclosed
      refine absurd ?_ hsettled
      rw [hopen']
      rfl

/-- No row is lost, and none is closed twice. -/
def World.KeepsTickets (w w' : World) : Prop :=
  ∀ id ticket, w.db.tickets.find? id = some ticket →
    ∃ ticket', w'.db.tickets.find? id = some ticket' ∧ ticket.Becomes ticket'

theorem World.KeepsTickets.refl (w : World) : w.KeepsTickets w :=
  fun _ ticket h => ⟨ticket, h, .inl rfl⟩

theorem World.KeepsTickets.trans {w w' w'' : World} (h : w.KeepsTickets w')
    (h' : w'.KeepsTickets w'') : w.KeepsTickets w'' := by
  intro id ticket hticket
  obtain ⟨ticket', hticket', hbecomes⟩ := h id ticket hticket
  obtain ⟨ticket'', hticket'', hbecomes'⟩ := h' id ticket' hticket'
  exact ⟨ticket'', hticket'', hbecomes.trans hbecomes'⟩

section Steps

variable {w w' : World} {books : Books} {n m : Nat} {ψ : Filing}

theorem World.Journal.apart {filed : List (Dispatch × Uuid)}
    (h : w.Journal filed) (htickets : w'.db.tickets = w.db.tickets)
    (hdispatches : w'.dispatches = w.dispatches) :
    w'.Journal filed where
  calls := h.calls.trans hdispatches.symm
  once := h.once
  recorded := by
    rw [htickets]
    exact h.recorded
  uncalled := by
    rw [htickets]
    exact h.uncalled

theorem Filing.Owns.apart (h : ψ.Owns n w books)
    (htickets : w'.db.tickets = w.db.tickets) :
    ψ.Owns n w' books := by
  cases ψ with
  | idle => trivial
  | opened ticket => exact ⟨by rw [htickets]; exact h.1, h.2⟩
  | called id d => exact ⟨by rw [htickets]; exact h.1, h.2⟩

/-- A row is inserted. -/
theorem World.Journal.opens {filed : List (Dispatch × Uuid)}
    (h : w.Journal filed) {id instanceId : Uuid} {target : TargetSystem}
    {payload : JsonValue} {tickets : Table Ticket.id}
    (hinsert : w.db.tickets.insert?
      (pendingTicket id instanceId target payload) =
      some tickets) :
    (w.commit n (w.db.withTickets tickets) []).Journal filed where
  calls := h.calls
  once := h.once
  recorded entry hentry := by
    obtain ⟨ticket, hticket, hrecords⟩ := h.recorded entry hentry
    exact ⟨ticket, Table.find?_insert_of_some hinsert hticket, hrecords⟩
  uncalled id' ticket hticket hnot := by
    replace hticket : tickets.find? id' = some ticket := hticket
    rw [Table.find?_insert hinsert] at hticket
    split at hticket
    · rename_i hid
      cases hticket
      exact ⟨instanceId, target, payload, by rw [hid]; rfl⟩
    · exact h.uncalled id' ticket hticket hnot

/-- The row that is inserted is no one else's. -/
theorem Filing.Owns.opens (h : ψ.Owns m w books) {ticket : Ticket}
    {tickets : Table Ticket.id}
    (hinsert : w.db.tickets.insert? ticket = some tickets) :
    ψ.Owns m (w.commit n (w.db.withTickets tickets) [])
      { books with owner := Function.update books.owner ticket.id n } := by
  have hother : ∀ {id row}, w.db.tickets.find? id = some row →
      id ≠ ticket.id := by
    rintro id row hrow rfl
    cases hrow.symm.trans (Table.insert?_eq_some_iff.mp hinsert).1
  cases ψ with
  | idle => trivial
  | opened row =>
      refine ⟨Table.find?_insert_of_some hinsert h.1, h.2.1, ?_⟩
      exact (Function.update_of_ne (hother h.1) _ _).trans h.2.2
  | called id d =>
      refine ⟨Table.find?_insert_of_some hinsert h.1, h.2.1, ?_⟩
      exact (Function.update_of_ne (hother h.1) _ _).trans h.2.2

/-- The connector is called for a row that was opened. -/
theorem World.Journal.called {filed : List (Dispatch × Uuid)}
    (h : w.Journal filed) {id : Uuid} {d : Dispatch}
    (hticket : w.db.tickets.find? id = some (d.openTicket id))
    (hnot : id ∉ filed.map Prod.snd) :
    ({ w with dispatches := d :: w.dispatches } : World).Journal
      ((d, id) :: filed) where
  calls := by
    rw [List.map_cons, h.calls]
  once := List.nodup_cons.mpr ⟨hnot, h.once⟩
  recorded entry hentry := by
    rcases List.mem_cons.mp hentry with rfl | hentry
    · exact ⟨_, hticket, .inl rfl⟩
    · exact h.recorded entry hentry
  uncalled id' ticket hticket' hnot' :=
    h.uncalled id' ticket hticket' fun hmem =>
      hnot' (List.mem_cons_of_mem _ hmem)

/-- How the call went is recorded. -/
theorem World.Journal.closes {filed : List (Dispatch × Uuid)}
    (h : w.Journal filed) {id : Uuid} {d : Dispatch}
    (hticket : w.db.tickets.find? id = some (d.openTicket id))
    (hmem : (d, id) ∈ filed) {f : Ticket → Ticket}
    (hkey : ∀ row, (f row).id = row.id)
    (hf : d.closedTicket id = some (f (d.openTicket id))) :
    (w.commit n (w.db.withTickets (w.db.tickets.modify id f hkey)) []).Journal
      filed where
  calls := h.calls
  once := h.once
  recorded := by
    rintro ⟨d', id'⟩ hentry
    obtain ⟨ticket, hticket', hrecords⟩ := h.recorded _ hentry
    refine ⟨if id' = id then f (d.openTicket id) else ticket, ?_, ?_⟩
    · change (w.db.tickets.modify id f hkey).find? id' = _
      rw [Table.find?_modify]
      split
      · rename_i hid
        rw [hid, hticket, Option.map_some]
      · exact hticket'
    · split
      · rename_i hid
        subst hid
        have heq : (d', id') = (d, id') :=
          List.inj_on_of_nodup_map h.once hentry hmem rfl
        cases heq
        obtain ⟨hid, -⟩ := Dispatch.closedTicket_data hf
        exact .inr (hid.symm ▸ hf)
      · exact hrecords
  uncalled id' ticket hticket' hnot := by
    have hid : id' ≠ id := by
      rintro rfl
      exact hnot (List.mem_map_of_mem hmem)
    replace hticket' : (w.db.tickets.modify id f hkey).find? id' =
      some ticket := hticket'
    rw [Table.find?_modify, if_neg hid] at hticket'
    exact h.uncalled id' ticket hticket' hnot

end Steps

theorem World.KeepsTickets.of_eq {w w' : World}
    (htickets : w'.db.tickets = w.db.tickets) :
    w.KeepsTickets w' := by
  intro id ticket h
  exact ⟨ticket, by rw [htickets]; exact h, .inl rfl⟩

/-- One step of a thread: the journal is kept, and so is what the
others rely on. -/
theorem Files.keeps {n : Nat} {φ φ' : Filing} {w w' : World} {books : Books}
    (h : Files n φ w φ' w') (hw : w.Journal books.filed)
    (hφ : φ.Owns n w books) :
    ∃ books', w'.Journal books'.filed ∧ w.KeepsTickets w' ∧
      φ'.Owns n w' books' ∧
      ∀ m ψ, m ≠ n → Filing.Owns m w books ψ → ψ.Owns m w' books' := by
  cases h with
  | apart htickets hdispatches =>
      exact ⟨books, hw.apart htickets hdispatches, .of_eq htickets,
        hφ.apart htickets, fun m ψ _ hψ => hψ.apart htickets⟩
  | @opens _ _ id instanceId target payload tickets hinsert =>
      refine ⟨{ books with owner := Function.update books.owner id n },
        hw.opens hinsert,
        fun id' ticket h =>
          ⟨ticket, Table.find?_insert_of_some hinsert h, .inl rfl⟩,
        ⟨Table.find?_inserted hinsert, fun hmem => ?_, Function.update_self ..⟩,
        fun m ψ _ hψ => hψ.opens hinsert⟩
      obtain ⟨⟨d, id'⟩, hentry, rfl⟩ := List.mem_map.mp hmem
      obtain ⟨ticket, hticket, -⟩ := hw.recorded _ hentry
      cases hticket.symm.trans (Table.insert?_eq_some_iff.mp hinsert).1
  | @calls _ id d =>
      obtain ⟨hticket, hnot, howner⟩ := hφ
      refine ⟨{ books with filed := (d, id) :: books.filed },
        hw.called hticket hnot, .of_eq rfl,
        ⟨hticket, List.mem_cons_self, howner⟩, fun m ψ hm hψ => ?_⟩
      cases ψ with
      | idle => trivial
      | opened ticket =>
          refine ⟨hψ.1, fun hmem => ?_, hψ.2.2⟩
          rcases List.mem_cons.mp hmem with heq | hmem
          · refine hm (hψ.2.2.symm.trans (Eq.trans ?_ howner))
            exact congrArg books.owner heq
          · exact hψ.2.1 hmem
      | called id' d' => exact ⟨hψ.1, List.mem_cons_of_mem _ hψ.2.1, hψ.2.2⟩
  | @closes _ id d f hkey hf =>
      obtain ⟨hticket, hmem, howner⟩ := hφ
      have hfind : ∀ id',
          (w.commit n (w.db.withTickets (w.db.tickets.modify id f hkey))
          []).db.tickets.find? id' =
            if id' = id then (w.db.tickets.find? id').map f
            else w.db.tickets.find? id' :=
        fun id' => Table.find?_modify _ _ _ hkey id'
      refine ⟨books, hw.closes hticket hmem hkey hf,
        fun id' ticket h => ?_, trivial, fun m ψ hm hψ => ?_⟩
      · rw [hfind, h]
        split
        · rename_i hid
          subst hid
          obtain rfl := Option.some.inj (h.symm.trans hticket)
          exact ⟨_, rfl, .inr ⟨d, rfl, hf⟩⟩
        · exact ⟨ticket, rfl, .inl rfl⟩
      · have hkept : ∀ {id' : Uuid}, books.owner id' = m → ∀ {ticket : Ticket},
            w.db.tickets.find? id' = some ticket → (w.commit n
              (w.db.withTickets (w.db.tickets.modify id f hkey))
                []).db.tickets.find? id' =
                some ticket := by
          intro id' howner' ticket h
          rw [hfind, if_neg, h]
          rintro rfl
          exact hm (howner'.symm.trans howner)
        cases ψ with
        | idle => trivial
        | opened ticket => exact ⟨hkept hψ.2.2 hψ.1, hψ.2⟩
        | called id' d' => exact ⟨hkept hψ.2.2 hψ.1, hψ.2⟩

section Runs

variable (deps : Deps) (pages : PageDeps)

def ticketCover : Cover (portal deps pages) Filing where
  move := Files
  entry _ := .idle
  post _ _ _ := True
  follows _ request := serve_filed pages request .idle trivial

/-- Threads own the rows they have not closed yet. -/
def bookkeeping : Annotation (ticketCover deps pages) .free Books where
  inv w books := w.Journal books.filed
  holds n φ w books := φ.Owns n w books
  grow := World.KeepsTickets
  grow_refl := .refl
  grow_trans := .trans
  entry _ _ _ _ _ _ := trivial
  drift _ _ books hw hdrift :=
    ⟨books, hw.apart hdrift.tickets hdrift.dispatches, .of_eq hdrift.tickets,
      fun _ _ hφ => hφ.apart hdrift.tickets⟩
  step _ _ _ _ _ _ hw hφ hfiles _ := hfiles.keeps hw hφ

variable {deps pages}

/-- Whatever requests interleave and whatever fails, every call of a connector
has a row of its own that records nothing but this call, no other row says
anything, and a row that is no longer pending never changes. -/
theorem tickets_journal_calls {w : World} (hw : w.Initial)
    {c d : Config Input World (PortalRequest × Nat) ApiError PortalReply}
    (hc : Reaches (portal deps pages) .free ⟨w, []⟩ c)
    (hd : Reaches (portal deps pages) .free c d) :
    (∃ filed, c.state.Journal filed) ∧
      ∀ id ticket, c.state.db.tickets.find? id = some ticket →
        ∃ ticket', d.state.db.tickets.find? id = some ticket' ∧
          ticket'.workflowInstanceId = ticket.workflowInstanceId ∧
          ticket'.targetSystem = ticket.targetSystem ∧
          ticket'.renderedPayloadJson = ticket.renderedPayloadJson ∧
          (ticket.dispatchStatus ≠ .pending → ticket' = ticket) := by
  have hinitial : (bookkeeping deps pages).inv w ⟨[], fun _ => 0⟩ := by
    refine ⟨hw.dispatches.symm, List.nodup_nil, by simp,
      fun id ticket hticket => ?_⟩
    rw [hw.tickets] at hticket
    cases hticket
  have hnil := Annotation.at_nil hinitial
  obtain ⟨hat, -⟩ := hnil.reaches hc
  refine ⟨?_, fun id ticket hticket => ?_⟩
  · obtain ⟨books, hbooks⟩ := hat
    exact ⟨books.filed, hbooks.inv⟩
  obtain ⟨ticket', hticket', hbecomes⟩ := (hat.reaches hd).2 id ticket hticket
  refine ⟨ticket', hticket', ?_⟩
  rcases hbecomes with rfl | ⟨call, hopen, hclosed⟩
  · exact ⟨rfl, rfl, rfl, fun _ => rfl⟩
  · obtain ⟨-, -, hinstance, htarget, hpayload⟩ :=
      Dispatch.closedTicket_data hclosed
    rw [hinstance, htarget, hpayload, hopen]
    exact ⟨rfl, rfl, rfl, fun hsettled => absurd rfl hsettled⟩

end Runs

/-- A ticket is filed, and its requester looks at it. -/
def filedRun :
    Option (Config Input World (PortalRequest × Nat) ApiError PortalReply) :=
  (portal Sample.deps Sample.pages).play .free
    ⟨Sample.world Sample.ticketOnly, []⟩ <|
    Sample.visit 0 100 12 (.start Sample.requester Sample.item.id)

theorem tickets_journal_calls_filed :
    let c := filedRun.get (by decide)
    c.state.dispatches.length = 1 ∧ (∃ filed, c.state.Journal filed) ∧
      ∃ ticket, c.state.db.tickets.find? (Sample.id 107) = some ticket ∧
        ticket.dispatchStatus = .sent := by
  intro c
  have hc : Reaches (portal Sample.deps Sample.pages) .free
      ⟨Sample.world Sample.ticketOnly, []⟩ c :=
    System.play_reaches (Option.some_get
      (by decide : filedRun.isSome = true)).symm
  obtain ⟨hjournal, hkept⟩ := tickets_journal_calls (Sample.initial _) hc .refl
  obtain ⟨ticket, hticket, -, -, -, hsame⟩ := hkept (Sample.id 107) _ rfl
  have hsent : ticket.dispatchStatus = .sent := by
    rw [hsame (by decide)]
    rfl
  exact ⟨by decide, hjournal, ticket, hticket, hsent⟩

end Servcat
