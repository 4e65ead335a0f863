/-
How requests are served: a page that only shows something changes nothing, and
any other request starts an instance, answers a question or decides an approval,
and does nothing else besides.
-/
import Servcat.Atomic.Within
import Servcat.Orchestrator.Writes
import Servcat.Portal

namespace Servcat

open Atomic

namespace PortalRequest

/-- The user who only reads with this request. -/
def reader : PortalRequest → Option User
  | .listInstances user | .getInstance user _ | .listApprovals user
  | .dashboardPage user | .catalogPage user | .itemPage user _
  | .requestsPage user | .requestPage user _ | .approvalsPage user => some user
  | _ => none

/-- The user answers this question of the instance, through the API or
the web form. -/
inductive Submits : PortalRequest → Uuid → Uuid → String → JsonValue → Prop
  | api (user : User) (instanceId : Uuid) (fieldKey : String)
      (value : JsonValue) :
      Submits (.submitAnswer user instanceId fieldKey value) instanceId user.id
        fieldKey value
  | form (user : User) (instanceId : Uuid) (form : Web.AnswerForm)
      (inputType : Option InputType) :
      Submits (.answerPage user instanceId form) instanceId user.id
        form.fieldKey (coerceAnswer inputType form.value)

/-- The user decides this approval so, through the API or the web form. -/
inductive Decides :
    PortalRequest → Uuid → Uuid → ApprovalDecision → Option String → Prop
  | api (user : User) (id : Uuid) (decision : ApprovalDecision)
      (comment : Option String) :
      Decides (.decide user id decision comment) user.id id decision comment
  | form (user : User) (id : Uuid) {form : Web.DecideForm}
      {decision : ApprovalDecision} (h : form.parse = some decision) :
      Decides (.decidePage user id form) user.id id decision
        (form.comment.filter fun c => trim isWhitespace c ≠ "")

end PortalRequest

section Pages

variable {deps : Deps} {pages : PageDeps} {user : User}

/-- Reading in front of a program that changes nothing. -/
theorem read_readOnly {ε α β : Type} {f : World → α} {g : DbError → ε}
    {k : α → Async ε β} (hk : ∀ a, ReadOnly (k a)) :
    ReadOnly ((select f).mapError g >>= k) :=
  read_leaves (fun _ => rfl) hk

theorem layout_readOnly (activeNav : String) :
    ReadOnly (Web.Layout.load user activeNav) :=
  read_readOnly fun _ => .exit _

theorem getOne_readOnly (id : Uuid) :
    ReadOnly (Routes.Instances.getOne user id) := by
  apply read_readOnly
  intro found
  apply Leaves.okOr
  intro row
  split <;> exact .exit _

theorem listRequests_readOnly :
    ReadOnly (Web.Requests.listMine pages user) := by
  apply (layout_readOnly _).bind
  intro layout
  exact read_readOnly fun requests => .exit _

theorem showRequest_readOnly (id : Uuid) :
    ReadOnly (Web.Requests.showRequest pages user id) := by
  apply (layout_readOnly _).bind
  intro layout
  apply read_readOnly
  intro found
  apply Leaves.okOr
  intro row
  split
  · apply read_readOnly
    intro item
    apply Leaves.okOr
    intro item
    apply read_readOnly
    intro definition
    apply Leaves.okOr
    intro definition
    exact read_readOnly fun ticket => .exit _
  · exact .exit _

theorem approvalRow_readOnly (approval : PendingApproval) :
    ReadOnly (Web.Approvals.approvalRow pages approval) := by
  apply read_readOnly
  intro found
  cases found with
  | none => exact .exit _
  | some row =>
      apply read_readOnly
      intro item
      exact read_readOnly fun requester => .exit _

theorem approvalRows_readOnly (pending : List PendingApproval) :
    ReadOnly (Web.Approvals.approvalRows pages pending) := by
  induction pending with
  | nil => exact .exit _
  | cons approval pending ih =>
      apply (approvalRow_readOnly approval).bind
      intro row
      exact ih.bind fun rows => .exit _

theorem listApprovals_readOnly :
    ReadOnly (Web.Approvals.listMine pages user) := by
  apply (layout_readOnly _).bind
  intro layout
  apply read_readOnly
  intro pending
  exact (approvalRows_readOnly pending).bind fun approvals => .exit _

theorem showDashboard_readOnly :
    ReadOnly (Web.Dashboard.showDashboard pages user) := by
  apply (layout_readOnly _).bind
  intro layout
  apply read_readOnly
  intro requests
  exact read_readOnly fun pending => .exit _

theorem showCatalog_readOnly :
    ReadOnly (Web.CatalogPage.showCatalog deps pages user) := by
  apply (layout_readOnly _).bind
  intro layout
  exact read_readOnly fun items => .exit _

theorem itemDetail_readOnly (rounds : Nat) (id : Uuid) :
    ReadOnly (Web.CatalogPage.itemDetail rounds user id) := by
  apply (layout_readOnly _).bind
  intro layout
  apply read_readOnly
  intro found
  apply Leaves.okOr
  intro item
  apply read_readOnly
  intro definition
  apply Leaves.okOr
  intro definition
  split
  · exact .exit _
  · exact .spin

/-- Who only reads changes nothing. -/
theorem serve_readOnly {request : PortalRequest × Nat}
    (h : request.1.reader = some user) :
    ReadOnly (PortalRequest.serve deps pages request) := by
  obtain ⟨request, rounds⟩ := request
  cases request with
  | start | submitAnswer | decide | startPage | answerPage
  | decidePage | poll =>
      cases h
  | listInstances | listApprovals => exact read_readOnly fun rows => .exit _
  | getInstance user id => exact (getOne_readOnly id).bind fun row => .exit _
  | dashboardPage => exact showDashboard_readOnly.bind fun page => .exit _
  | catalogPage => exact showCatalog_readOnly.bind fun page => .exit _
  | itemPage user id =>
      exact (itemDetail_readOnly rounds id).bind fun page => .exit _
  | requestsPage => exact listRequests_readOnly.bind fun page => .exit _
  | requestPage user id =>
      exact (showRequest_readOnly id).bind fun page => .exit _
  | approvalsPage => exact listApprovals_readOnly.bind fun page => .exit _

end Pages

section Requests

variable {Φ : Type} {A : Automaton Input World Φ} {I : Φ → Prop} {deps : Deps}
  {pages : PageDeps}

/-- The automaton lets a thread look around. -/
def Looks (A : Automaton Input World Φ) (I : Φ → Prop) : Prop :=
  ∀ φ i w, I φ → A.enabled φ i w → ∃ φ', A.move φ w φ' w ∧ I φ'

theorem ReadOnly.within (hlooks : Looks A I) {ε α : Type} {p : Async ε α}
    (hp : ReadOnly p) : Within A I p := by
  refine .of_leaves (fun φ i w w' hφ hi heq => ?_) hp
  subst heq
  exact hlooks φ i w hφ hi

theorem read_within (hlooks : Looks A I) {ε α β : Type} {f : World → α}
    {g : DbError → ε} {k : α → Async ε β} (hk : ∀ a, Within A I (k a)) :
    Within A I ((select f).mapError g >>= k) :=
  (ReadOnly.within hlooks (select_leaves (fun _ => rfl) f).mapError).bind hk

/-- A decision flips the row, notes it, and resumes the instance. -/
theorem decide_within (hlooks : Looks A I) {rounds : Nat}
    {approvalId userId : Uuid} {decision : ApprovalDecision}
    {comment : Option String} (hflip : ∀ id status comment, Within A I
      (Repositories.Approvals.decide id status comment))
    (hnote : ∀ event, Within A I (note event : Async ApiError Unit))
    (hresume : ∀ instanceId stepId, Within A I
      (Orchestrator.resumeAfterApproval deps rounds instanceId stepId
        decision)) :
    Within A I
      (Server.decide deps rounds approvalId userId decision comment) := by
  refine .bind (.mapError ?_) fun approval =>
    (hnote _).bind fun _ => hresume _ _
  apply read_within hlooks
  intro found
  apply Within.okOr
  intro approval
  split
  · exact .exit _
  split
  · exact .exit _
  apply (hflip _ _ _).mapError.bind
  intro flipped
  split
  · exact read_within hlooks fun found => .exit _
  · exact .exit _

/-- A pass of the poller flips each row that is due, and resumes
its instance. -/
theorem pollOnce_within (hlooks : Looks A I) {rounds : Nat}
    (hflip : ∀ id status comment, Within A I
      (Repositories.Approvals.decide id status comment))
    (hnote : ∀ event, Within A I (note event : Async DbError Unit))
    (hresume : ∀ instanceId stepId, Within A I
      (Orchestrator.resumeAfterApproval deps rounds instanceId stepId
        .reject)) :
    Within A I (Approvals.pollOnce (Server.handleExpired deps rounds)) := by
  refine .bind (ReadOnly.within hlooks (select_leaves (fun _ => rfl) _))
    fun expired => ?_
  induction expired with
  | nil => exact .exit _
  | cons approval rest ih =>
      apply (hflip _ _ _).bind
      intro flipped
      cases flipped with
      | false => exact ih
      | true =>
          refine .bind ?_ fun _ => ih
          apply (hnote _).bind
          intro _
          apply (hresume _ _).attempt.bind
          intro result
          cases result with
          | ok row => exact .exit _
          | error err => exact hnote _

/-- What a request does is what these four do. -/
theorem serve_within (hlooks : Looks A I) {request : PortalRequest × Nat}
    (hstart : ∀ rounds id user, Within A I
      (Orchestrator.startInstance deps rounds id user))
    (hsubmit : ∀ rounds id user fieldKey value,
      request.1.Submits id (User.id user) fieldKey value → Within A I
        (Orchestrator.submitAnswer deps rounds id user fieldKey value))
    (hdecide : ∀ rounds id userId decision comment,
      request.1.Decides userId id decision comment → Within A I
        (Server.decide deps rounds id userId decision comment))
    (hpoll : request.1 = .poll → ∀ rounds, Within A I
      (Approvals.pollOnce (Server.handleExpired deps rounds))) :
    Within A I (PortalRequest.serve deps pages request) := by
  obtain ⟨request, rounds⟩ := request
  cases request with
  | start user id => exact (hstart rounds id user).bind fun row => .exit _
  | submitAnswer user id fieldKey value =>
      have h :=
        hsubmit rounds id user fieldKey value (.api user id fieldKey value)
      exact h.bind fun row => .exit _
  | decide user id decision comment =>
      have h := hdecide rounds id user.id decision comment
        (.api user id decision comment)
      exact h.bind fun row => .exit _
  | startPage user id =>
      exact ((hstart rounds id user).bind fun row => .exit _).bind
        fun path => .exit _
  | answerPage user id form =>
      refine .bind ?_ fun path => .exit _
      apply read_within hlooks
      intro found
      apply Within.okOr
      intro row
      apply read_within hlooks
      intro found
      apply Within.okOr
      intro definition
      exact (hsubmit rounds id user _ _ (.form user id form _)).bind
        fun row => .exit _
  | decidePage user id form =>
      refine .bind ?_ fun path => .exit _
      cases hform : form.parse with
      | none =>
          simp only [Web.Approvals.decide, hform]
          exact .exit _
      | some decision =>
          simp only [Web.Approvals.decide, hform]
          have h := hdecide rounds id user.id decision _ (.form user id hform)
          exact h.bind fun row => .exit _
  | poll => exact (hpoll rfl rounds).mapError.bind fun _ => .exit _
  | listInstances user | listApprovals user | getInstance user
  | dashboardPage user | catalogPage user | itemPage user | requestsPage user
  | requestPage user | approvalsPage user =>
      exact (serve_readOnly rfl).within hlooks

end Requests

end Servcat
