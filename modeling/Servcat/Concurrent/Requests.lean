/-
Every request goes through the phases: each of its steps is a move, whatever
state the other requests have left for it.
-/
import Servcat.Atomic.Within
import Servcat.Concurrent.Phases
import Servcat.Orchestrator.Writes

namespace Servcat

open Atomic Keyed

/-- `Q` holds at the end of a request that succeeds. -/
def Ensures {ε α : Type} (Q : α → Phase → Prop) : Exit ε α → Phase → Prop
  | .ok a, φ => Q a φ
  | _, _ => True

/-- The program stays in phase `φ`, however it ends. -/
def Steady {ε α : Type} (n : Nat) (φ : Phase) (p : Async ε α) : Prop :=
  Follows (requests n) (fun _ ψ => ψ = φ) p φ

section Rules

variable {ε ε' α β : Type} {n : Nat} {φ : Phase} {Q : β → Phase → Prop}

/-- One step of thread `n`. -/
theorem follows_act {post : Exit ε β → Phase → Prop}
    {f : Input → World → Exit ε β × World}
    (h : ∀ i w,
      i.thread = n → ∃ φ', Move n φ w φ' (f i w).2 ∧ post (f i w).1 φ') :
    Follows (requests n) post (.atomic f) φ :=
  (follows_atomic f φ).mpr h

theorem select_follows {f : World → β}
    (h : ∀ w, ∃ φ', Sees w φ φ' ∧ Q (f w) φ') :
    Follows (requests n) (Ensures Q) (select f) φ := by
  apply follows_act
  intro i w _
  obtain ⟨φ', hsees, hQ⟩ := h w
  cases i.fault with
  | none => exact ⟨φ', .look hsees, hQ⟩
  | lostRequest | lostReply => exact ⟨φ, .look .nothing, trivial⟩

/-- A writing statement ends in the phase of its effect, unless it has none. -/
theorem execute_follows {f : Input → World → Option (β × Db × List Event)}
    (h : ∀ i w a db events, f i w = some (a, db, events) →
      ∃ φ', Move n φ w φ' (w.commit n db events) ∧ Q a φ') :
    Follows (requests n) (Ensures Q) (execute f) φ := by
  apply follows_act
  rintro i w rfl
  cases hf : f i w with
  | none => exact ⟨φ, .look .nothing, trivial⟩
  | some result =>
      obtain ⟨a, db, events⟩ := result
      obtain ⟨φ', hmove, hQ⟩ := h i w a db events hf
      cases i.fault with
      | none => exact ⟨φ', hmove, hQ⟩
      | lostRequest => exact ⟨φ, .look .nothing, trivial⟩
      | lostReply => exact ⟨φ', hmove, trivial⟩

theorem note_follows {event : Event} {φ' : Phase} {Q : Unit → Phase → Prop}
    (hmove : ∀ w, Move n φ w φ' (w.record n event)) (hQ : Q () φ') :
    Follows (requests n) (Ensures Q) (note event : Async ε Unit) φ := by
  apply follows_act
  rintro i w rfl
  exact ⟨φ', hmove w, hQ⟩

theorem ensures_bind {p : Async ε α} {k : α → Async ε β}
    (h : Follows (requests n)
      (Ensures fun a ψ => Follows (requests n) (Ensures Q) (k a) ψ) p φ) :
    Follows (requests n) (Ensures Q) (p >>= k) φ := by
  refine (follows_bind _ _ _ _).mpr (h.mono fun x ψ hx => ?_)
  cases x with
  | ok a => exact hx
  | error | panicked => trivial

theorem ensures_mapError {g : ε → ε'} {p : Async ε β}
    (h : Follows (requests n) (Ensures Q) p φ) :
    Follows (requests n) (Ensures Q) (p.mapError g) φ := by
  refine (follows_mapError _ _ _ _).mpr (h.mono fun x ψ hx => ?_)
  cases x with
  | ok a => exact hx
  | error | panicked => trivial

/-- Reading in front of the rest of a program. -/
theorem follows_read {f : World → α} {g : DbError → ε} {k : α → Async ε β}
    (h : ∀ w, ∃ φ',
      Sees w φ φ' ∧ Follows (requests n) (Ensures Q) (k (f w)) φ') :
    Follows (requests n) (Ensures Q) ((select f).mapError g >>= k) φ :=
  ensures_bind (ensures_mapError (select_follows h))

theorem follows_okOr {e : ε} {value : Option α} {k : α → Async ε β}
    (h : ∀ a, value = some a → Follows (requests n) (Ensures Q) (k a) φ) :
    Follows (requests n) (Ensures Q) (Program.okOr e value >>= k) φ := by
  cases value with
  | none => trivial
  | some a => exact h a rfl

theorem follows_liftExcept {result : Except ε α} {k : α → Async ε β}
    (h : ∀ a, result = .ok a → Follows (requests n) (Ensures Q) (k a) φ) :
    Follows (requests n) (Ensures Q) (Program.liftExcept result >>= k) φ := by
  cases result with
  | error e => trivial
  | ok a => exact h a rfl

namespace Steady

theorem ensures {p : Async ε β} (h : Steady n φ p) (hQ : ∀ a, Q a φ) :
    Follows (requests n) (Ensures Q) p φ := by
  refine Follows.mono (fun x ψ hx => ?_) h
  cases x with
  | ok a => exact hx ▸ hQ a
  | error | panicked => trivial

theorem before {p : Async ε α} {k : α → Async ε β} (h : Steady n φ p)
    (hk : ∀ a, Follows (requests n) (Ensures Q) (k a) φ) :
    Follows (requests n) (Ensures Q) (p >>= k) φ :=
  ensures_bind (h.ensures hk)

theorem bind {p : Async ε α} {k : α → Async ε β} (h : Steady n φ p)
    (hk : ∀ a, Steady n φ (k a)) : Steady n φ (p >>= k) := by
  refine (follows_bind _ _ _ _).mpr (Follows.mono (fun x ψ hx => ?_) h)
  subst hx
  cases x with
  | ok a => exact hk a
  | error | panicked => rfl

theorem exit (x : Exit ε α) : Steady n φ (.exit x) :=
  rfl

theorem mapError {g : ε → ε'} {p : Async ε α} (h : Steady n φ p) :
    Steady n φ (p.mapError g) :=
  (follows_mapError _ _ _ _).mpr h

theorem select (f : World → α) : Steady n φ (select f) := by
  apply follows_act
  intro i w _
  refine ⟨φ, ?_, rfl⟩
  cases i.fault <;> exact .look .nothing

theorem execute {f : Input → World → Option (α × Db × List Event)}
    (h : ∀ i w a db events, f i w = some (a, db, events) →
      Move n φ w φ (w.commit n db events)) : Steady n φ (execute f) := by
  apply follows_act
  rintro i w rfl
  refine ⟨φ, ?_, rfl⟩
  cases hf : f i w with
  | none => exact .look .nothing
  | some result =>
      obtain ⟨a, db, events⟩ := result
      cases i.fault with
      | none | lostReply => exact h i w a db events hf
      | lostRequest => exact .look .nothing

theorem note {event : Event} (h : event.Remark) :
    Steady n φ (note event : Async ε Unit) := by
  apply follows_act
  rintro i w rfl
  exact ⟨φ, .remark h, rfl⟩

/-- Nothing is written. -/
theorem readOnly {p : Async ε α} (h : ReadOnly p) : Steady n φ p := by
  refine Within.of_leaves (I := (· = φ)) (fun ψ i w w' hψ _ heq => ?_) h φ rfl
  subst heq
  exact ⟨ψ, .look .nothing, hψ⟩

/-- Only tickets are written. -/
theorem ticketsOnly {p : Async ε α}
    (h : Leaves World.TicketsOnly p) : Steady n φ p := by
  refine Within.of_leaves (I := (· = φ))
    (fun ψ i w w' hψ _ htickets => ?_) h φ rfl
  obtain ⟨tickets, rfl⟩ := htickets
  exact ⟨ψ, .tickets tickets, hψ⟩

theorem read {f : World → α} {g : DbError → ε} {k : α → Async ε β}
    (hk : ∀ a, Steady n φ (k a)) :
    Steady n φ ((Servcat.select f).mapError g >>= k) :=
  (select f).mapError.bind hk

theorem okOr {e : ε} {value : Option α} {k : α → Async ε β}
    (hk : ∀ a, Steady n φ (k a)) : Steady n φ (Program.okOr e value >>= k) :=
  Steady.bind (exit _) hk

theorem liftExcept {result : Except ε α} {k : α → Async ε β}
    (hk : ∀ a, Steady n φ (k a)) :
    Steady n φ (Program.liftExcept result >>= k) :=
  Steady.bind (exit _) hk

end Steady

end Rules

variable {n : Nat} {φ : Phase} {deps : Deps}

theorem Approvals.notifyNewApproval_steady {approval : PendingApproval}
    {requester : User} : Steady n φ (notifyNewApproval approval requester) := by
  refine .read fun approver => ?_
  cases approver with
  | none => exact .exit _
  | some approver =>
      refine .read fun row => ?_
      cases row with
      | none => exact .read fun settings => .note trivial
      | some row => exact .read fun item => .read fun settings => .note trivial

namespace Orchestrator

/-- Filing a ticket stays in its phase even when it fails. -/
theorem dispatchTicket_steady {t : Task} {stepId : String}
    {requesterUserId : Uuid} (hstage : φ.stage = .driving t)
    (h : t.Ahead stepId .readyToSubmitTicket) :
    Steady n φ (dispatchTicket deps t.definition t.row.id stepId requesterUserId
      t.answers) := by
  unfold dispatchTicket
  refine .okOr fun target => .okOr fun mapping => .okOr fun connector => ?_
  refine .read fun requester => .okOr fun requester => ?_
  refine .read fun row => .okOr fun row => .read fun item =>
    .okOr fun item => ?_
  refine .liftExcept fun payload => Steady.bind (Steady.mapError
    (.ticketsOnly (Repositories.Tickets.create_leaves _ _ _))) fun ticket => ?_
  refine Steady.bind ?_ fun result => ?_
  · exact follows_act fun i w _ => ⟨φ, .dispatch hstage rfl h, rfl⟩
  cases result with
  | ok result =>
      exact Steady.mapError (.ticketsOnly
        (Repositories.Tickets.markSent_leaves _ _))
  | error err =>
      exact Steady.bind (Steady.mapError (.ticketsOnly
        (Repositories.Tickets.markFailed_leaves _ _))) fun _ => .exit _

theorem saveProgress_follows {row : WorkflowInstance} {stepId : String}
    {answers : Answers} {status : InstanceStatus}
    (h : φ.stage.Saves row stepId answers status) :
    Follows (requests n) (Ensures fun _ ψ => ψ.stage = .saved row.id answers)
      (saveProgress row.id stepId answers status) φ := by
  refine ensures_bind (ensures_mapError ?_)
  refine ensures_bind (execute_follows fun i w a db events hsome => ?_)
  cases hsome
  refine ⟨_, .save h, ?_⟩
  refine Steady.ensures (.select _) fun saved => ?_
  cases saved with
  | none => trivial
  | some row' => rfl

/-- Opening an approval ends with its row inserted. -/
theorem createForInstance_follows {t : Task} {stepId : String}
    {requester : User} {resolution : ApproverResolution}
    {timeoutSeconds : Option Int64} (hstage : φ.stage = .driving t)
    (h : t.Ahead stepId (.awaitingApproval resolution timeoutSeconds)) :
    Follows (requests n) (Ensures fun _ ψ => ψ.stage = .opened t stepId)
      (approvals <| Approvals.createForInstance deps t.row.id stepId requester
        resolution timeoutSeconds) φ := by
  refine ensures_mapError ?_
  refine Steady.before (.readOnly
    (Approvals.resolveApproverUserId_readOnly _ _ _)) fun approverUserId => ?_
  refine Steady.before (.readOnly (Approvals.expiresAt_readOnly _))
    fun expiresAt => ?_
  refine ensures_bind (ensures_mapError ?_)
  refine ensures_bind (execute_follows fun i w a db events hsome => ?_)
  obtain ⟨⟨row, db'⟩, hinsert, heq⟩ := Option.map_eq_some_iff.mp hsome
  cases heq
  obtain ⟨rfl, approvals, happrovals, rfl⟩ := Db.insertApproval_inserts hinsert
  refine ⟨_, .openApproval hstage h rfl rfl happrovals, ?_⟩
  refine Steady.ensures (Steady.bind (.select _) fun found => .exit _)
    fun approval => ?_
  exact Steady.before Approvals.notifyNewApproval_steady fun _ => rfl

theorem applyOutcome_follows (t : Task) {requesterUserId : Uuid} {rounds : Nat}
    {stepId : String} {outcome : Outcome} (hstage : φ.stage = .driving t)
    (h : t.Ahead stepId outcome) :
    Follows (requests n)
      (Ensures fun _ ψ => ψ.stage = .saved t.row.id t.answers)
      (applyOutcome deps t.definition t.row.id requesterUserId t.answers
        rounds stepId outcome) φ := by
  induction rounds generalizing stepId outcome with
  | zero => trivial
  | succ rounds ih =>
      have hsettle : ∀ status, settledStatus outcome = some status →
          Follows (requests n) (Ensures fun _ ψ => ψ.stage = .saved t.row.id
            t.answers) (saveProgress t.row.id stepId t.answers status) φ :=
        fun status hstatus =>
          saveProgress_follows (by rw [hstage]; exact .settled h hstatus)
      cases outcome with
      | awaitingAnswer fieldKey => exact hsettle .inProgress rfl
      | finished endOutcome => exact hsettle (endStatus endOutcome) rfl
      | awaitingApproval resolution timeoutSeconds =>
          refine Steady.before (Steady.mapError (.select _)) fun requester => ?_
          refine follows_okOr fun requester _ => ensures_bind ?_
          refine (createForInstance_follows hstage h).mono fun x ψ hx => ?_
          cases x with
          | ok approval =>
              change ψ.stage = .opened t stepId at hx
              exact saveProgress_follows (by rw [hx]; exact .opened)
          | error | panicked => trivial
      | readyToSubmitTicket =>
          refine (follows_bind _ _ _ _).mpr ((follows_attempt _ _ _).mpr ?_)
          refine Follows.mono (fun x ψ hψ => ?_)
            (dispatchTicket_steady hstage h)
          subst hψ
          cases x with
          | ok value =>
              refine follows_liftExcept fun result hresult => ?_
              cases hresume : Engine.resumeAfterTicketDispatch
                  t.definition.graph stepId t.answers with
              | error err => simp [hresume, Except.mapError] at hresult
              | ok result' =>
                  rw [hresume] at hresult
                  cases hresult
                  exact ih (.next h hresume)
          | error err =>
              refine ensures_bind (ensures_mapError ?_)
              refine ensures_bind
                (execute_follows fun i w a db events hsome => ?_)
              cases hsome
              refine ⟨_, .save (by rw [hstage]; exact .failed h), ?_⟩
              exact Steady.ensures (.select _) fun _ => trivial
          | panicked => trivial

theorem load_follows {id : Uuid} {fieldKey : Option String}
    {Q : Option WorkflowInstance → Phase → Prop} (hnone : Q none φ)
    (hsome : ∀ row, row.id = id → ∃ stage, Loads φ ⟨row, fieldKey⟩ stage ∧
      Q (some row) { φ with stage }) :
    Follows (requests n) (Ensures Q)
      (Repositories.Instances.load id fieldKey) φ := by
  apply follows_act
  rintro i w rfl
  cases hrow : w.db.instances.find? id with
  | none => cases i.fault with
    | none => exact ⟨φ, .look .nothing, hnone⟩
    | lostRequest | lostReply => exact ⟨φ, .look .nothing, trivial⟩
  | some row =>
      obtain rfl := Table.key_of_find? hrow
      obtain ⟨stage, hloads, hQ⟩ := hsome row rfl
      cases i.fault with
      | none => exact ⟨_, .load hrow hloads, hQ⟩
      | lostRequest | lostReply => exact ⟨φ, .look .nothing, trivial⟩

/-- Reading the row a request works from, in front of the rest of it. -/
theorem follows_load {α : Type} {id : Uuid} {fieldKey : Option String}
    {Q : α → Phase → Prop} {k : Option WorkflowInstance → Async ApiError α}
    (hnone : Follows (requests n) (Ensures Q) (k none) φ)
    (hsome : ∀ row, row.id = id → ∃ stage, Loads φ ⟨row, fieldKey⟩ stage ∧
      Follows (requests n) (Ensures Q) (k (some row)) { φ with stage }) :
    Follows (requests n) (Ensures Q)
      (db (Repositories.Instances.load id fieldKey) >>= k) φ :=
  ensures_bind (ensures_mapError (load_follows hnone hsome))

/-- What `submitAnswer` and `resumeAfterApproval` do with the row
they have read. -/
theorem drive_follows (origin : Origin) (Q : Answers → Prop) {rounds : Nat}
    {row : WorkflowInstance} {requesterUserId : Uuid}
    (hstage : φ.stage = .loaded origin row)
    (hQ : ∀ graph answers result, origin.ask graph row = (answers, .ok result) →
      Q answers) :
    Follows (requests n)
      (Ensures fun _ ψ => ∃ answers,
        ψ.stage = .saved row.id answers ∧ Q answers)
      (db (Repositories.WorkflowDefinitions.getById
        row.workflowDefinitionId) >>=
        fun found => Program.okOr ApiError.internal found >>= fun definition =>
          engine (origin.ask definition.graph row).2 >>= fun r =>
            applyOutcome deps definition row.id requesterUserId
              (origin.ask definition.graph row).1 rounds r.1 r.2) φ := by
  refine follows_read fun w => ?_
  cases hfound : w.db.definitions.find? row.workflowDefinitionId with
  | none => exact ⟨φ, .nothing, trivial⟩
  | some definition =>
      cases hask : origin.ask definition.graph row with
      | mk answers result =>
      cases result with
      | error e =>
          refine ⟨φ, .nothing, follows_okOr fun _ heq => ?_⟩
          cases heq
          simp only [hask]
          trivial
      | ok r =>
          let t : Task :=
            { row, definition, answers, fieldKey := origin.fieldKey
              stepId := r.1, outcome := r.2 }
          refine ⟨_, .task t hstage rfl hfound hask,
            follows_okOr fun _ heq => ?_⟩
          cases heq
          simp only [hask]
          refine Follows.mono (fun x ψ hx => ?_)
            (applyOutcome_follows t rfl .here)
          cases x with
          | ok row' => exact ⟨answers, hx, hQ _ _ _ hask⟩
          | error | panicked => trivial

/-- A submission that succeeds has saved its answer. -/
theorem submitAnswer_follows {rounds : Nat} {instanceId : Uuid}
    {requester : User} {fieldKey : String} {value : JsonValue}
    (hstage : φ.stage = .quiet) :
    Follows (requests n)
      (Ensures fun _ ψ => ∃ answers, ψ.stage = .saved instanceId answers ∧
        answers.containsKey fieldKey = true)
      (submitAnswer deps rounds instanceId requester fieldKey value) φ := by
  refine follows_load trivial fun row hid => ?_
  subst hid
  by_cases hstatus : row.status = .inProgress
  · refine ⟨_, .submit fieldKey value hstage hstatus, ?_⟩
    refine follows_okOr fun _ heq => ?_
    cases heq
    split
    · trivial
    · rw [if_neg (not_not.mpr hstatus)]
      refine drive_follows (.submit fieldKey value) _ rfl
        fun graph answers result hask => ?_
      rw [(Engine.submitAnswer_ok hask).1, JsonMap.containsKey_insert]
      simp
  · refine ⟨_, .turnedAway hstage, follows_okOr fun _ heq => ?_⟩
    cases heq
    rw [if_pos hstatus]
    split <;> trivial

theorem resumeAfterApproval_follows {rounds : Nat} {approval : PendingApproval}
    {decision : ApprovalDecision}
    (hstage : φ.stage = .resuming approval decision) :
    Follows (requests n) (Ensures fun _ _ => True)
      (resumeAfterApproval deps rounds approval.workflowInstanceId
        approval.stepId decision) φ := by
  refine follows_load trivial fun row hid => ?_
  refine ⟨_, .resume hstage hid.symm, follows_okOr fun _ heq => ?_⟩
  cases heq
  refine Follows.mono (fun x ψ _ => ?_) (drive_follows
    (.resume approval decision) (fun _ => True) rfl fun _ _ _ _ => trivial)
  cases x <;> trivial

theorem startInstance_follows {rounds : Nat} {catalogItemId : Uuid}
    {requester : User} (hsubmits : φ.submits = false) :
    Follows (requests n) (Ensures fun _ _ => True)
      (startInstance deps rounds catalogItemId requester) φ := by
  refine Steady.before (Steady.mapError (.select _)) fun item => ?_
  refine follows_okOr fun item _ => ?_
  split
  · trivial
  refine follows_read fun w => ?_
  cases hfound : w.db.definitions.find? item.workflowDefinitionId with
  | none => exact ⟨φ, .nothing, trivial⟩
  | some definition =>
      refine ⟨_, .definition hsubmits hfound, follows_okOr fun _ heq => ?_⟩
      cases heq
      refine follows_liftExcept fun result hresult => ?_
      cases hstart : Engine.start definition.graph with
      | error e => simp [hstart, Except.mapError] at hresult
      | ok result' =>
      rw [hstart] at hresult
      cases hresult
      refine ensures_bind (ensures_mapError ?_)
      refine ensures_bind (execute_follows fun i w a db' events hsome => ?_)
      obtain ⟨db'', hinsert, heq⟩ := Option.map_eq_some_iff.mp hsome
      cases heq
      obtain ⟨instances, hinstances, rfl⟩ := Db.insertInstance_inserts hinsert
      refine ⟨_, .create rfl hstart hinstances, ?_⟩
      refine ensures_bind (load_follows trivial fun row hid => ?_)
      refine ⟨_, .start (by rw [hid]) hstart, ?_⟩
      let t : Task :=
        { row, definition, fieldKey := none, stepId := result.1
          outcome := result.2
          answers := answersMap row.answersJson }
      change Follows (requests n)
        _ (applyOutcome deps t.definition t.row.id requester.id
        t.answers rounds t.stepId t.outcome) _
      refine Follows.mono (fun x ψ _ => ?_) (applyOutcome_follows t rfl .here)
      cases x <;> trivial

end Orchestrator

/-- The guarded update of an approval the request has read. -/
theorem Approvals.flip_follows {approval : PendingApproval}
    {status : ApprovalStatus} {decision : ApprovalDecision} {user : Option Uuid}
    {comment : Option String} {Q : Bool → Phase → Prop}
    (hsubmits : φ.submits = false) (hknown : approval ∈ φ.known)
    (h : Verdict approval status decision user)
    (hflipped : Q true { φ with stage := .flipped approval decision user })
    (hmissed : Q false φ) :
    Follows (requests n) (Ensures Q)
      (Repositories.Approvals.decide approval.id status comment) φ := by
  refine execute_follows fun i w a db events hsome => ?_
  cases hsome
  by_cases hpending : w.db.isPending approval.id = true
  · rw [if_pos hpending, hpending]
    exact ⟨_, .flip hsubmits hknown hpending h, hflipped⟩
  · rw [if_neg hpending, Db.updateApproval_of_not_pending hpending,
      Bool.eq_false_iff.mpr hpending]
    exact ⟨φ, .look .nothing, hmissed⟩

namespace Server

/-- Calling `resumeAfterApproval` once the approval is settled. -/
theorem resume_follows {rounds : Nat} {approval approval' : PendingApproval}
    {decision : ApprovalDecision} {user : Option Uuid}
    (hstage : φ.stage = .flipped approval decision user)
    (hknown : approval' ∈ φ.known) (hid : approval'.id = approval.id) :
    Follows (requests n) (Ensures fun _ _ => True)
      (note (.resumed approval'.id decision user) >>= fun _ =>
        Orchestrator.resumeAfterApproval deps rounds
          approval'.workflowInstanceId approval'.stepId decision) φ := by
  exact ensures_bind (note_follows (fun _ => .resume hstage hknown hid)
    (Orchestrator.resumeAfterApproval_follows rfl))

/-- Deciding an approval that was pending, then resuming its instance. -/
theorem decide_follows {rounds : Nat} {approvalId userId : Uuid}
    {decision : ApprovalDecision} {comment : Option String}
    (hsubmits : φ.submits = false) :
    Follows (requests n) (Ensures fun _ _ => True)
      (decide deps rounds approvalId userId decision comment) φ := by
  refine ensures_bind (ensures_mapError (follows_read fun w => ?_))
  cases hfound : w.db.approvals.find? approvalId with
  | none => exact ⟨φ, .nothing, trivial⟩
  | some approval =>
  obtain rfl := Table.key_of_find? hfound
  refine ⟨_, .approval hfound, follows_okOr fun _ heq => ?_⟩
  cases heq
  split
  · trivial
  split
  · trivial
  rename_i huser _
  obtain rfl := not_not.mp huser
  refine ensures_bind (ensures_mapError (Approvals.flip_follows hsubmits
    List.mem_cons_self (.decided decision) ?_ trivial))
  refine follows_read fun w' => ?_
  cases hfound' : w'.db.approvals.find? approval.id with
  | none => exact ⟨_, .nothing, trivial⟩
  | some approval' =>
      exact ⟨_, .approval hfound', resume_follows rfl List.mem_cons_self
        (Table.key_of_find? hfound')⟩

theorem handleExpired_follows {rounds : Nat} {approval : PendingApproval}
    (hstage : φ.stage = .flipped approval .reject none)
    (hknown : approval ∈ φ.known) :
    Follows (requests n) (Ensures fun _ _ => True)
      (handleExpired deps rounds approval)
      φ := by
  refine ensures_bind (note_follows (fun _ => .resume hstage hknown rfl) ?_)
  refine (follows_bind _ _ _ _).mpr ((follows_attempt _ _ _).mpr ?_)
  refine Follows.mono (fun x ψ _ => ?_)
    (Orchestrator.resumeAfterApproval_follows rfl)
  cases x with
  | ok row => trivial
  | error err => exact Steady.ensures (.note trivial) fun _ => trivial
  | panicked => trivial

end Server

/-- The loop of the poller, over approvals it has read. -/
theorem Approvals.expireEach_follows {rounds : Nat}
    {rows : List PendingApproval} (hsubmits : φ.submits = false)
    (hknown : ∀ a ∈ rows, a ∈ φ.known) :
    Follows (requests n) (Ensures fun _ _ => True)
      (expireEach (Server.handleExpired deps rounds) rows) φ := by
  induction rows generalizing φ with
  | nil => trivial
  | cons approval rest ih =>
      have hrest : ∀ ψ,
          φ.Extends ψ → Follows (requests n) (Ensures fun _ _ => True)
          (expireEach (Server.handleExpired deps rounds) rest) ψ :=
        fun ψ hψ => ih (hψ.1.trans hsubmits)
          fun a ha => hψ.2 (hknown a (List.mem_cons_of_mem _ ha))
      have happroval := hknown _ List.mem_cons_self
      refine ensures_bind (flip_follows hsubmits happroval .expired ?_
        (hrest φ (.refl φ)))
      refine ensures_bind (Follows.mono (fun x ψ hx => ?_)
        (follows_extends (Server.handleExpired_follows rfl happroval)))
      cases x with
      | ok value => exact hrest ψ hx.2
      | error | panicked => trivial

theorem Approvals.pollOnce_follows {rounds : Nat}
    (hsubmits : φ.submits = false) :
    Follows (requests n) (Ensures fun _ _ => True)
      (pollOnce (Server.handleExpired deps rounds)) φ := by
  have hlisted : ∀ (w : World) (p : PendingApproval → Bool),
      ∀ a ∈ w.db.approvals.rows.filter p, a ∈ w.db.approvals.rows :=
    fun w p a ha => (List.mem_filter.mp ha).1
  exact ensures_bind (select_follows fun w => ⟨_, .approvals _ (hlisted w _),
    expireEach_follows hsubmits fun a ha => List.mem_append_left _ ha⟩)

/-- Does the request submit an answer? -/
def Request.isSubmit : Request → Bool
  | .submit .. => true
  | _ => false

/-- What a request that succeeded has done. -/
def Request.Done : Request → Phase → Prop
  | .submit instanceId _ fieldKey _, φ =>
      ∃ answers, φ.stage = .saved instanceId answers ∧
        answers.containsKey fieldKey = true
  | _, _ => True

theorem Request.serve_follows (request : Request × Nat) :
    Follows (requests n) (Ensures fun _ ψ => request.1.Done ψ)
      (serve deps request)
      { submits := request.1.isSubmit, known := [], stage := .quiet } := by
  obtain ⟨request, rounds⟩ := request
  cases request with
  | start catalogItemId requester =>
      exact ensures_bind ((Orchestrator.startInstance_follows rfl).mono
        fun _ _ h => h)
  | submit instanceId requester fieldKey value =>
      exact ensures_bind (Orchestrator.submitAnswer_follows rfl)
  | decide approvalId userId decision comment =>
      exact ensures_bind (Server.decide_follows rfl)
  | poll =>
      exact ensures_bind (ensures_mapError (Approvals.pollOnce_follows rfl))

/-- The phases of all requests. -/
def phases (deps : Deps) : Cover (system deps) Phase where
  move := Move
  entry request :=
    { submits := request.1.isSubmit, known := [], stage := .quiet }
  post request := Ensures fun _ ψ => request.1.Done ψ
  follows _ request := Request.serve_follows request

end Servcat
