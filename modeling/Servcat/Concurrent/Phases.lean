/-
The phases a request goes through, whatever other requests do in the meantime:
what it has read, and which of its statements has been carried out last.
-/
import Servcat.Serial.Views

namespace Servcat

open Atomic Keyed

/-- What a request works on once it has read the row of an instance and asked
the engine where to go. -/
structure Task extends Reading where
  definition : WorkflowDefinition
  answers : Answers
  stepId : String
  outcome : Outcome

/-- The answers of the engine a task comes to after zero or more tickets. -/
inductive Task.Ahead (t : Task) : String → Outcome → Prop
  | here : t.Ahead t.stepId t.outcome
  | next {stepId stepId' : String} {outcome outcome' : Outcome}
      (h : t.Ahead stepId outcome)
      (hresume : Engine.resumeAfterTicketDispatch t.definition.graph stepId
        t.answers = .ok (stepId', outcome')) :
      t.Ahead stepId' outcome'

/-- Why a request asks the engine about a row it has read. -/
inductive Origin where
  | submit (fieldKey : String) (value : JsonValue)
  | resume (approval : PendingApproval) (decision : ApprovalDecision)

/-- The key of the answer that is submitted. -/
def Origin.fieldKey : Origin → Option String
  | .submit fieldKey _ => some fieldKey
  | .resume .. => none

def Origin.ask (graph : WorkflowGraph) (row : WorkflowInstance) :
    Origin → Answers × Except EngineError (String × Outcome)
  | .submit fieldKey value =>
      Engine.submitAnswer graph row.currentStepId
        (Orchestrator.answersMap row.answersJson) fieldKey value
  | .resume approval decision =>
      (Orchestrator.answersMap row.answersJson,
        Engine.resumeAfterApproval graph approval.stepId
          (Orchestrator.answersMap row.answersJson) decision)

inductive Stage where
  /-- Nothing that matters has been read or written. -/
  | quiet
  /-- A start has read the definition. -/
  | defined (definition : WorkflowDefinition)
  /-- A start has inserted the row of the instance. -/
  | created (definition : WorkflowDefinition) (instanceId : Uuid)
  /-- The guarded update of an approval matched. -/
  | flipped (approval : PendingApproval) (decision : ApprovalDecision)
      (user : Option Uuid)
  /-- `resume_after_approval` has been called. -/
  | resuming (approval : PendingApproval) (decision : ApprovalDecision)
  /-- The row of the instance has been read. -/
  | loaded (origin : Origin) (row : WorkflowInstance)
  | driving (task : Task)
  /-- An approval has been inserted, but the row not yet saved. -/
  | opened (task : Task) (stepId : String)
  /-- The row has been saved with these answers. -/
  | saved (instanceId : Uuid) (answers : Answers)

/-- `submits` tells whether the request submits an answer, `known` lists the
approvals it has read. -/
structure Phase where
  submits : Bool
  known : List PendingApproval
  stage : Stage

/-- What reading may change. -/
inductive Sees (w : World) (φ : Phase) : Phase → Prop
  | nothing : Sees w φ φ
  | approvals (rows : List PendingApproval)
      (hrows : ∀ a ∈ rows, a ∈ w.db.approvals.rows) :
      Sees w φ { φ with known := rows ++ φ.known }
  | definition {id : Uuid} {definition : WorkflowDefinition}
      (hsubmits : φ.submits = false)
      (hdefinition : w.db.definitions.find? id = some definition) :
      Sees w φ { φ with stage := .defined definition }
  | task {origin : Origin} (t : Task) (hstage : φ.stage = .loaded origin t.row)
      (hfieldKey : t.fieldKey = origin.fieldKey)
      (hdefinition : w.db.definitions.find? t.row.workflowDefinitionId =
        some t.definition)
      (hask : origin.ask t.definition.graph t.row =
        (t.answers, .ok (t.stepId, t.outcome))) :
      Sees w φ { φ with stage := .driving t }

theorem Sees.approval {w : World} {φ : Phase} {id : Uuid}
    {approval : PendingApproval} (h : w.db.approvals.find? id = some approval) :
    Sees w φ { φ with known := approval :: φ.known } :=
  .approvals [approval] fun _ ha =>
    List.mem_singleton.mp ha ▸ Table.mem_of_find? h

/-- The stage after reading the row of the instance. -/
inductive Loads (φ : Phase) : Reading → Stage → Prop
  | turnedAway {reading : Reading} (hstage : φ.stage = .quiet) :
      Loads φ reading .quiet
  | submit {row : WorkflowInstance} (fieldKey : String) (value : JsonValue)
      (hstage : φ.stage = .quiet) (hstatus : row.status = .inProgress) :
      Loads φ ⟨row, some fieldKey⟩ (.loaded (.submit fieldKey value) row)
  | resume {row : WorkflowInstance} {approval : PendingApproval}
      {decision : ApprovalDecision}
      (hstage : φ.stage = .resuming approval decision)
      (hid : approval.workflowInstanceId = row.id) :
      Loads φ ⟨row, none⟩ (.loaded (.resume approval decision) row)
  | start {row : WorkflowInstance} {definition : WorkflowDefinition}
      {stepId : String} {outcome : Outcome}
      (hstage : φ.stage = .created definition row.id)
      (hstart : Engine.start definition.graph = .ok (stepId, outcome)) :
      Loads φ ⟨row, none⟩ (.driving
        { row, definition, stepId, outcome, fieldKey := none
          answers := Orchestrator.answersMap row.answersJson })

/-- What `save_progress` is called with. -/
inductive Stage.Saves : Stage → WorkflowInstance → String → Answers →
    InstanceStatus → Prop
  | settled {t : Task} {stepId : String} {outcome : Outcome}
      {status : InstanceStatus} (h : t.Ahead stepId outcome)
      (hstatus : settledStatus outcome = some status) :
      Saves (.driving t) t.row stepId t.answers status
  | failed {t : Task} {stepId : String}
      (h : t.Ahead stepId .readyToSubmitTicket) :
      Saves (.driving t) t.row stepId t.answers .failed
  | opened {t : Task} {stepId : String} :
      Saves (.opened t stepId) t.row stepId t.answers .awaitingApproval

/-- With which status an approval is settled, how its instance is resumed then,
and on whose decision. -/
inductive Verdict (approval : PendingApproval) :
    ApprovalStatus → ApprovalDecision → Option Uuid → Prop
  | decided (decision : ApprovalDecision) :
      Verdict approval (Approvals.statusOf decision) decision
        (some approval.approverUserId)
  | expired : Verdict approval .expired .reject none

/-- The statuses an instance may be resumed for with this decision. -/
def ApprovalDecision.Fits : ApprovalDecision → ApprovalStatus → Prop
  | .approve, status => status = .approved
  | .reject, status => status = .rejected ∨ status = .expired

theorem ApprovalDecision.Fits.ne_pending {decision : ApprovalDecision}
    {status : ApprovalStatus}
    (h : decision.Fits status) : status ≠ .pending := by
  rintro rfl
  cases decision with
  | approve => cases h
  | reject => rcases h with h | h <;> cases h

theorem Verdict.fits {approval : PendingApproval} {status : ApprovalStatus}
    {decision : ApprovalDecision} {user : Option Uuid}
    (h : Verdict approval status decision user) : decision.Fits status := by
  cases h with
  | decided decision => cases decision with
    | approve => exact rfl
    | reject => exact Or.inl rfl
  | expired => exact Or.inr rfl

/-- Entries of the log that concern nothing but the requester and
the operator. -/
def Event.Remark : Event → Prop
  | .notified _ | .expiryResumeFailed .. => True
  | _ => False

/-- What one step of thread `n` may do. -/
inductive Move (n : Nat) : Phase → World → Phase → World → Prop
  | look {φ φ' : Phase} {w : World} (h : Sees w φ φ') : Move n φ w φ' w
  | remark {φ : Phase} {w : World} {event : Event} (h : event.Remark) :
      Move n φ w φ (w.record n event)
  | create {φ : Phase} {w : World} {definition : WorkflowDefinition}
      {stepId : String} {outcome : Outcome}
      {id catalogItemId requesterUserId : Uuid}
      {instances : Table WorkflowInstance.id}
      (hstage : φ.stage = .defined definition)
      (hstart : Engine.start definition.graph = .ok (stepId, outcome))
      (hinsert : w.db.instances.insert?
        (newInstance id definition.id catalogItemId requesterUserId stepId) =
          some instances) :
      Move n φ w { φ with stage := .created definition id }
        (w.commit n { w.db with instances } [])
  | load {φ : Phase} {w : World} {reading : Reading} {stage : Stage}
      (hrow : w.db.instances.find? reading.row.id = some reading.row)
      (h : Loads φ reading stage) :
      Move n φ w { φ with stage } (w.record n (.began reading))
  | tickets {φ : Phase} {w : World} (tickets : Table Ticket.id) :
      Move n φ w φ (w.commit n (w.db.withTickets tickets) [])
  | dispatch {φ : Phase} {w : World} {t : Task} {d : Dispatch}
      (hstage : φ.stage = .driving t) (hid : d.instanceId = t.row.id)
      (h : t.Ahead d.stepId .readyToSubmitTicket) :
      Move n φ w φ { w with dispatches := d :: w.dispatches }
  | openApproval {φ : Phase} {w : World} {t : Task}
      {resolution : ApproverResolution} {timeoutSeconds : Option Int64}
      {approval : PendingApproval} {approvals : Table PendingApproval.id}
      (hstage : φ.stage = .driving t)
      (h : t.Ahead approval.stepId
      (.awaitingApproval resolution timeoutSeconds))
      (hid : approval.workflowInstanceId = t.row.id)
      (hpending : approval.status = .pending)
      (hinsert : w.db.approvals.insert? approval = some approvals) :
      Move n φ w { φ with stage := .opened t approval.stepId }
        (w.commit n (w.db.withApprovals approvals) [.approvalCreated approval])
  | save {φ : Phase} {w : World} {row : WorkflowInstance} {stepId : String}
      {answers : Answers} {status : InstanceStatus}
      (h : φ.stage.Saves row stepId answers status) :
      Move n φ w { φ with stage := .saved row.id answers }
        (w.commit n (w.db.updateInstance row.id stepId (.object answers)
          status w.now) [.saved row.id stepId (.object answers) status])
  | flip {φ : Phase} {w : World} {approval : PendingApproval}
      {status : ApprovalStatus} {decision : ApprovalDecision}
      {user : Option Uuid} {comment : Option String}
      (hsubmits : φ.submits = false) (hknown : approval ∈ φ.known)
      (hpending : w.db.isPending approval.id = true)
      (h : Verdict approval status decision user) :
      Move n φ w { φ with stage := .flipped approval decision user }
        (w.commit n (w.db.updateApproval approval.id status comment w.now)
          [.decided approval.id status])
  | resume {φ : Phase} {w : World} {approval approval' : PendingApproval}
      {decision : ApprovalDecision} {user : Option Uuid}
      (hstage : φ.stage = .flipped approval decision user)
      (hknown : approval' ∈ φ.known) (hid : approval'.id = approval.id) :
      Move n φ w { φ with stage := .resuming approval' decision }
        (w.record n (.resumed approval'.id decision user))

/-- The automaton of thread `n`. -/
abbrev requests (n : Nat) : Automaton Input World Phase :=
  ⟨fun _ i _ => i.thread = n, Move n⟩

/-- The same request, which may have read more approvals. -/
def Phase.Extends (φ ψ : Phase) : Prop :=
  ψ.submits = φ.submits ∧ φ.known ⊆ ψ.known

theorem Phase.Extends.refl (φ : Phase) : φ.Extends φ :=
  ⟨rfl, List.Subset.refl _⟩

theorem Phase.Extends.trans {φ ψ χ : Phase} (h : φ.Extends ψ)
    (h' : ψ.Extends χ) : φ.Extends χ :=
  ⟨h'.1.trans h.1, List.Subset.trans h.2 h'.2⟩

theorem Move.extends {n : Nat} {φ φ' : Phase} {w w' : World}
    (h : Move n φ w φ' w') : φ.Extends φ' := by
  cases h with
  | look h =>
      cases h with
      | approvals rows hrows => exact ⟨rfl, List.subset_append_right _ _⟩
      | _ => exact .refl _
  | _ => exact .refl _

theorem follows_extends {ε α : Type} {n : Nat} {φ : Phase}
    {post : Exit ε α → Phase → Prop} {p : Async ε α}
    (h : Follows (requests n) post p φ) :
    Follows (requests n) (fun x ψ => post x ψ ∧ φ.Extends ψ) p φ :=
  h.keeps (fun _ _ _ _ hmove hψ => hψ.trans (Move.extends hmove)) (.refl φ)

end Servcat
