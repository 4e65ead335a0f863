/-
Operations that fail halfway.  Driving an instance derails when, after any
number of accepted tickets, the engine or the opening of an approval fails:
nothing is saved then.  A decision that derails strands its instance, and a
ticket filed on the way is forgotten.
-/
import Servcat.Serial.Consistency

namespace Servcat

open Atomic Keyed

/-- Driving from this answer of the engine fails after accepted tickets only.
`refuses` tells which approvals cannot be opened, and `accepts n` whether the
connector accepts the ticket when it has been called `n` times before. -/
inductive Derails (graph : WorkflowGraph) (answers : Answers)
    (refuses : ApproverResolution → Option Int64 → Prop)
    (accepts : Nat → Prop) : Nat → Except EngineError (String × Outcome) → Prop
  | engine {n : Nat} {e : EngineError} :
      Derails graph answers refuses accepts n (.error e)
  | approval {n : Nat} {stepId : String} {resolution : ApproverResolution}
      {timeoutSeconds : Option Int64}
      (hrefuses : refuses resolution timeoutSeconds) :
      Derails graph answers refuses accepts n
        (.ok (stepId, .awaitingApproval resolution timeoutSeconds))
  | ticket {n : Nat} {stepId : String} (haccepts : accepts n)
      (hrest : Derails graph answers refuses accepts (n + 1)
        (Engine.resumeAfterTicketDispatch graph stepId answers)) :
      Derails graph answers refuses accepts n
        (.ok (stepId, .readyToSubmitTicket))

/-- What an operation sets out to drive. -/
structure Drive where
  definition : WorkflowDefinition
  instanceId : Uuid
  requesterUserId : Uuid
  answers : Answers
  result : Except EngineError (String × Outcome)

/-- The ticket can be rendered, and its connector accepts it after `n` other
calls, under an id and a URL that the row of the ticket has room for. -/
def acceptsTicket (deps : Deps) (definition : WorkflowDefinition) (db : Db)
    (instanceId requesterUserId : Uuid) (answers : Answers) (n : Nat) : Prop :=
  ∃ targetSystem connector payload result,
    ticketOrder deps definition db instanceId requesterUserId answers =
      some (targetSystem, connector, payload) ∧
    connector n payload = .ok result ∧ result.stored.isSome

/-- Driving derails, where `refused` says which ways of not opening an approval
count. -/
def DerailsOn (refused : Exit ApiError (Uuid × Option Timestamp) → Prop)
    (deps : Deps) (definition : WorkflowDefinition)
    (instanceId requesterUserId : Uuid) (answers : Answers) (c : Core) :
    Nat → Except EngineError (String × Outcome) → Prop :=
  Derails definition.graph answers
    (fun resolution timeoutSeconds =>
      refused (approvalTerms deps c requesterUserId resolution timeoutSeconds))
    (acceptsTicket deps definition c.db instanceId requesterUserId answers)

/-- Resuming after a decision on this approval. -/
def resumption (c : Core) (approval : PendingApproval)
    (decision : ApprovalDecision) : Option Drive := do
  let row ← c.db.instances.find? approval.workflowInstanceId
  let definition ← c.db.definitions.find? row.workflowDefinitionId
  return {
    definition
    instanceId := approval.workflowInstanceId
    requesterUserId := row.requesterUserId
    answers := Orchestrator.answersMap row.answersJson
    result := Engine.resumeAfterApproval definition.graph approval.stepId
      (Orchestrator.answersMap row.answersJson) decision }

/-- What a submission or a decision drives, if its checks pass. -/
def Operation.drive? (c : Core) : Operation → Option Drive
  | .start .. => none
  | .submit instanceId requester fieldKey value => do
      let row ← c.db.instances.find? instanceId
      let definition ← c.db.definitions.find? row.workflowDefinitionId
      if row.requesterUserId = requester.id ∧ row.status = .inProgress then
        let (answers, result) :=
          Engine.submitAnswer definition.graph row.currentStepId
            (Orchestrator.answersMap row.answersJson) fieldKey value
        return {
          definition, instanceId, answers, result
          requesterUserId := requester.id }
      else none
  | .decide approvalId userId decision _ => do
      let approval ← c.db.approvals.find? approvalId
      if approval.approverUserId = userId ∧ approval.status = .pending then
        resumption c approval decision
      else none
  | .expire approval =>
      if c.db.isPending approval.id then resumption c approval .reject else none

/-- Someone can decide what the instance waits for. -/
def View.Attended (v : View) : Prop :=
  ∀ row, v.row = some row → row.status = .awaitingApproval →
    ∃ a ∈ v.approvals, a.status = .pending ∧ a.stepId = row.currentStepId

section Drives

variable {deps : Deps} {definition : WorkflowDefinition}
  {instanceId requesterUserId : Uuid} {answers : Answers}
  {result : Except EngineError (String × Outcome)} {c c' : Core}

theorem approvalTerms_congr (husers : c'.db.users = c.db.users)
    (hnow : c'.now = c.now) (requesterUserId : Uuid)
    (resolution : ApproverResolution) (timeoutSeconds : Option Int64) :
    approvalTerms deps c' requesterUserId resolution timeoutSeconds =
      approvalTerms deps c requesterUserId resolution timeoutSeconds := by
  have happrover : ∀ requester, approverOf deps c'.db requester resolution =
      approverOf deps c.db requester resolution := by
    intro requester
    cases resolution <;> simp only [approverOf, candidates, husers]
  simp only [approvalTerms, termsFor, husers, hnow, happrover]

theorem ticketOrder_congr (husers : c'.db.users = c.db.users)
    (hitems : c'.db.items = c.db.items)
    (hinstances : c'.db.instances = c.db.instances) :
    ticketOrder deps definition c'.db instanceId requesterUserId answers =
      ticketOrder deps definition c.db instanceId requesterUserId answers := by
  simp only [ticketOrder, husers, hitems, hinstances]

/-- Where a drive derails depends on nothing it changes. -/
theorem derailsOn_congr
    {refused : Exit ApiError (Uuid × Option Timestamp) → Prop}
    (husers : c'.db.users = c.db.users) (hitems : c'.db.items = c.db.items)
    (hinstances : c'.db.instances = c.db.instances) (hnow : c'.now = c.now) :
    DerailsOn refused deps definition instanceId requesterUserId answers c' =
      DerailsOn refused deps definition instanceId requesterUserId
        answers c := by
  have haccepts : acceptsTicket deps definition c'.db instanceId requesterUserId
      answers = acceptsTicket deps definition c.db instanceId requesterUserId
        answers := by
    funext n
    simp only [acceptsTicket, ticketOrder_congr husers hitems hinstances]
  unfold DerailsOn
  simp only [approvalTerms_congr husers hnow, haccepts]

/-- An accepted ticket was accepted by the connector and changes nothing that
decides where the drive goes from there. -/
theorem Dispatched.accepted {stepId : String}
    (h : Dispatched deps definition instanceId requesterUserId answers stepId c
      (.ok ()) c') :
    acceptsTicket deps definition c.db instanceId requesterUserId answers
        c.dispatches.length ∧
      (c'.view instanceId).row = (c.view instanceId).row ∧
      (∃ d, d.instanceId = instanceId ∧ (∃ r, d.result = .ok r) ∧
        c'.dispatches = d :: c.dispatches) ∧
      ∀ refused,
        DerailsOn refused deps definition instanceId requesterUserId answers
        c' = DerailsOn refused deps definition instanceId requesterUserId
          answers c := by
  cases h with
  | sent horder hresult hstored hinsert =>
      have hroom := Option.isSome_of_eq_some hstored
      exact ⟨⟨_, _, _, _, horder, hresult, hroom⟩, rfl, ⟨_, rfl, ⟨_, rfl⟩, rfl⟩,
        fun refused => derailsOn_congr rfl rfl rfl rfl⟩

theorem Dispatched.not_accepted {stepId : String} {e : ApiError}
    (h : Dispatched deps definition instanceId requesterUserId answers stepId c
      (.error e) c') :
    ¬ acceptsTicket deps definition c.db instanceId requesterUserId answers
        c.dispatches.length := by
  rintro ⟨targetSystem, connector, payload, r, horder, hresult, hstored⟩
  cases h with
  | unsent hnone =>
      rw [horder] at hnone
      cases hnone
  | refused horder' hresult' hstored' hinsert =>
      rw [horder] at horder'
      cases horder'
      rw [hresult] at hresult'
      cases hresult'
  | unrecorded horder' hanswer hroom hinsert =>
      rw [horder] at horder'
      cases horder'
      rw [← hanswer, hresult] at hroom
      exact hroom hstored

/-- A drive that does not derail saves the row: at an approval it leaves the
approval open, and when it fails it leaves the status `failed`. -/
theorem Driven.saved_or_derails {x : Exit ApiError WorkflowInstance}
    (h : Driven deps definition instanceId requesterUserId answers
      result c x c') :
    (∃ stepId status now,
      (c'.view instanceId).row = (c.view instanceId).row.map
        (Db.progressed stepId (.object answers) status now) ∧
      (status = .awaitingApproval → ∃ a ∈ (c'.view instanceId).approvals,
        a.status = .pending ∧ a.stepId = stepId) ∧
      ((∃ e, x = .error e) → status = .failed)) ∨
    (c'.view instanceId).row = (c.view instanceId).row ∧ (∀ row, x ≠ .ok row) ∧
      ∀ refused : Exit ApiError (Uuid × Option Timestamp) → Prop,
        (∀ e, x = .error e → refused (.error e)) →
        (x = .panicked → refused .panicked) →
        DerailsOn refused deps definition instanceId requesterUserId answers c
          c.dispatches.length result := by
  induction h with
  | stuck => exact Or.inr ⟨rfl, by simp, fun _ _ _ => .engine⟩
  | @settled stepId outcome c status row hstatus =>
      refine Or.inl ⟨stepId, status, c.now, by rw [Core.view_save],
        fun hawaiting => ?_, by simp⟩
      subst hawaiting
      rcases outcome with _ | _ | _ | ⟨_ | _ | _⟩ <;> cases hstatus
  | refused hterms =>
      exact Or.inr ⟨rfl, by simp, fun refused herror _ =>
        .approval (by rw [hterms]; exact herror _ rfl)⟩
  | panicked hterms =>
      exact Or.inr ⟨rfl, by simp, fun refused _ hpanicked =>
        .approval (by rw [hterms]; exact hpanicked rfl)⟩
  | @opened stepId _ _ c approverUserId expiresAt approvalId _ _ hterms
      hinsert =>
      refine Or.inl ⟨stepId, .awaitingApproval, c.now, ?_, fun _ => ?_, by simp⟩
      · rw [Core.view_save, Core.view_opened instanceId hinsert rfl]
        rfl
      · rw [Core.view_save, Core.view_opened instanceId hinsert rfl]
        exact ⟨_, List.mem_append_right _ (List.mem_singleton_self _), rfl, rfl⟩
  | @failed stepId err c c' hdispatch =>
      refine Or.inl ⟨stepId, .failed, c'.now, ?_, by simp, fun _ => rfl⟩
      rw [Core.view_save, hdispatch.aside.1]
  | @advanced stepId c c' c'' x hdispatch hrest ih =>
      obtain ⟨haccepts, hrow, ⟨d, -, -, hdispatches⟩, hderails⟩ :=
        hdispatch.accepted
      rcases ih with
        ⟨stepId', status, now, hsaved, hopened⟩ | ⟨hsame, hfails, hon⟩
      · exact Or.inl ⟨stepId', status, now, by rw [hsaved, hrow], hopened⟩
      · refine Or.inr ⟨hsame.trans hrow, hfails,
          fun refused herror hpanicked => ?_⟩
        have hrest := hon refused herror hpanicked
        rw [hderails, hdispatches] at hrest
        exact .ticket haccepts hrest

/-- A drive that derails returns an error and leaves the row as it is, also when
the connector accepted a ticket on the way. -/
theorem Driven.of_derails {x : Exit ApiError WorkflowInstance}
    (h : Driven deps definition instanceId requesterUserId answers
      result c x c')
    (hderails : DerailsOn (fun terms => ∃ e, terms = .error e) deps definition
      instanceId requesterUserId answers c c.dispatches.length result) :
    (∃ e, x = .error e) ∧
      (c'.view instanceId).row = (c.view instanceId).row := by
  induction h with
  | stuck => exact ⟨⟨_, rfl⟩, rfl⟩
  | settled hstatus => cases hderails <;> cases hstatus
  | refused => exact ⟨⟨_, rfl⟩, rfl⟩
  | panicked hterms =>
      cases hderails with
      | approval hrefuses =>
          obtain ⟨e, he⟩ := hrefuses
          rw [hterms] at he
          cases he
  | opened hterms =>
      cases hderails with
      | approval hrefuses =>
          obtain ⟨e, he⟩ := hrefuses
          rw [hterms] at he
          cases he
  | failed hdispatch =>
      cases hderails with
      | ticket haccepts => exact absurd haccepts hdispatch.not_accepted
  | advanced hdispatch hrest ih =>
      obtain ⟨-, hrow, ⟨d, -, -, hdispatches⟩, hsame⟩ := hdispatch.accepted
      cases hderails with
      | ticket haccepts hderails =>
          rw [← hrow]
          refine ih ?_
          rw [hsame, hdispatches]
          exact hderails

/-- A drive calls connectors only if it begins at a ticket step. -/
theorem Driven.dispatches {x : Exit ApiError WorkflowInstance}
    (h : Driven deps definition instanceId requesterUserId answers
      result c x c') :
    ∃ newer, c'.dispatches = newer ++ c.dispatches ∧
      (newer ≠ [] → ∃ stepId, result = .ok (stepId, .readyToSubmitTicket)) := by
  induction h with
  | stuck | settled | refused | panicked | opened => exact ⟨[], rfl, by simp⟩
  | failed hdispatch =>
      cases hdispatch with
      | unsent => exact ⟨[], rfl, by simp⟩
      | refused | unrecorded => exact ⟨[_], rfl, fun _ => ⟨_, rfl⟩⟩
  | advanced hdispatch hrest ih =>
      obtain ⟨-, -, ⟨d, -, -, hdispatches⟩, -⟩ := hdispatch.accepted
      obtain ⟨newer, hnewer, -⟩ := ih
      exact ⟨newer ++ [d], by simp [hnewer, hdispatches], fun _ => ⟨_, rfl⟩⟩

/-- A drive that derails after a ticket step had that ticket accepted. -/
theorem Driven.accepted_of_derails {x : Exit ApiError WorkflowInstance}
    {stepId : String}
    (h : Driven deps definition instanceId requesterUserId answers
      (.ok (stepId, .readyToSubmitTicket)) c x c')
    (hderails : DerailsOn (fun terms => ∃ e, terms = .error e) deps definition
      instanceId requesterUserId answers c c.dispatches.length
        (.ok (stepId, .readyToSubmitTicket))) :
    ∃ newer d, c'.dispatches = newer ++ d :: c.dispatches ∧
      d.instanceId = instanceId ∧ ∃ r, d.result = .ok r := by
  cases hderails with
  | ticket haccepts hrest =>
      cases h with
      | settled hstatus => cases hstatus
      | failed hdispatch => exact absurd haccepts hdispatch.not_accepted
      | advanced hdispatch hdriven =>
          obtain ⟨-, -, ⟨d, hid, hresult, hdispatches⟩, -⟩ := hdispatch.accepted
          obtain ⟨newer, hnewer, -⟩ := hdriven.dispatches
          exact ⟨newer, d, by rw [hnewer, hdispatches], hid, hresult⟩

end Drives

/-- The operation returned an error; an expiry logs it instead. -/
def Operation.Errs (c : Core) (x : Exit ApiError (Option WorkflowInstance))
    (c' : Core) : Operation → Prop
  | .expire approval =>
      ∃ e, c'.expiryFailures = (approval.id, e) :: c.expiryFailures
  | _ => ∃ e, x = .error e

/-- An operation drives its instance from `before` to `after`. -/
structure Drive.Within (deps : Deps) (d : Drive) (op : Operation) (c : Core)
    (x : Exit ApiError (Option WorkflowInstance)) (c' before after : Core)
    (y : Exit ApiError WorkflowInstance) : Prop where
  driven : Driven deps d.definition d.instanceId d.requesterUserId
    d.answers d.result before y after
  users : before.db.users = c.db.users
  items : before.db.items = c.db.items
  instances : before.db.instances = c.db.instances
  now : before.now = c.now
  dispatches : before.dispatches = c.dispatches
  view : c'.view d.instanceId = after.view d.instanceId
  others : ∀ id, id ≠ d.instanceId → c'.view id = c.view id
  calls : c'.dispatches = after.dispatches
  errs : op.Errs c x c' ↔ ∃ e, y = .error e

section Operations

variable {deps : Deps} {op : Operation} {d : Drive} {c c' before after : Core}
  {x : Exit ApiError (Option WorkflowInstance)}
  {y : Exit ApiError WorkflowInstance}

theorem exit_map_error {y : Exit ApiError WorkflowInstance} :
    (∃ e, y.map some = .error e) ↔ ∃ e, y = .error e := by
  cases y <;> simp [Exit.map]

theorem resumption_instanceId {approval : PendingApproval}
    {decision : ApprovalDecision}
    (hd : resumption c approval decision = some d) :
    d.instanceId = approval.workflowInstanceId := by
  obtain ⟨row, hrow, hd⟩ := Option.bind_eq_some_iff.mp hd
  obtain ⟨definition, hdefinition, hd⟩ := Option.bind_eq_some_iff.mp hd
  cases hd
  rfl

/-- Resuming after the approval was flipped drives what `resumption` says. -/
theorem Resumed.within {approval : PendingApproval} {status : ApprovalStatus}
    {comment : Option String} {decision : ApprovalDecision}
    (h : Resumed deps approval.workflowInstanceId approval.stepId decision
      (c.flipped approval.id status comment) y after)
    (hmem : approval ∈ c.db.approvals.rows)
    (hd : resumption c approval decision = some d)
    (hview : ∀ id, c'.view id = after.view id)
    (hcalls : c'.dispatches = after.dispatches)
    (herrs : after.expiryFailures = c.expiryFailures →
      (op.Errs c x c' ↔ ∃ e, y = .error e)) :
    d.Within deps op c x c' (c.flipped approval.id status comment) after y := by
  have hid := resumption_instanceId hd
  replace hd : resumption (c.flipped approval.id status comment) approval
    decision = some d := hd
  have hdriven : Driven deps d.definition d.instanceId
      d.requesterUserId d.answers
      d.result (c.flipped approval.id status comment) y after := by
    cases h with
    | unknown hrow => simp [resumption, hrow] at hd
    | undefined hrow hdefinition => simp [resumption, hrow, hdefinition] at hd
    | driven hrow hdefinition hdriven =>
        simp only [resumption, hrow, hdefinition, Option.bind_eq_bind,
          Option.bind_some, Option.pure_def, Option.some.injEq] at hd
        subst hd
        exact hdriven
  refine
    { driven := hdriven
      users := rfl
      items := rfl
      instances := rfl
      now := rfl
      dispatches := rfl
      view := hview _
      others := fun id hne => ?_
      calls := hcalls
      errs := herrs hdriven.expiryFailures }
  rw [hview, hdriven.touches.others id hne]
  exact (Core.touches_flipped hmem).others id (by rw [← hid]; exact hne)

theorem Operation.proceeds_of_drive?
    (hd : op.drive? c = some d) : op.Proceeds c := by
  cases op with
  | start catalogItemId requester => cases hd
  | submit instanceId requester fieldKey value =>
      obtain ⟨row, hrow, hd⟩ := Option.bind_eq_some_iff.mp hd
      obtain ⟨definition, hdefinition, hd⟩ := Option.bind_eq_some_iff.mp hd
      split at hd
      · rename_i hchecks
        exact ⟨row, definition, hrow, hchecks.1, hchecks.2, hdefinition⟩
      · cases hd
  | decide approvalId userId decision comment =>
      obtain ⟨approval, happroval, hd⟩ := Option.bind_eq_some_iff.mp hd
      split at hd
      · rename_i hchecks
        exact ⟨approval, happroval, hchecks⟩
      · cases hd
  | expire approval =>
      simp only [drive?] at hd
      split at hd
      · assumption
      · cases hd

/-- An operation that has something to drive drives it. -/
theorem Performed.drive (h : Performed deps op c x c') (hop : op.Listed c)
    (hd : op.drive? c = some d) :
    ∃ before after y, d.Within deps op c x c' before after y := by
  cases h with
  | declined hdeclined | skipped hdeclined =>
      exact absurd (Operation.proceeds_of_drive? hd) hdeclined
  | started => cases hd
  | submitted hrow hrequester hstatus hdefinition hengine hdriven =>
      simp only [Operation.drive?, hrow, hdefinition, hrequester,
        hstatus, hengine, Option.bind_eq_bind, Option.bind_some, and_self,
        ↓reduceIte, Option.pure_def, Option.some.injEq] at hd
      subst hd
      exact ⟨c, c', _, hdriven, rfl, rfl, rfl, rfl, rfl, rfl,
        hdriven.touches.others, rfl, exit_map_error⟩
  | decided happroval huser hpending hresumed =>
      simp only [Operation.drive?, happroval, huser, hpending,
        Option.bind_eq_bind, Option.bind_some, and_self, ↓reduceIte] at hd
      obtain rfl := Table.key_of_find? happroval
      exact ⟨_, c', _, hresumed.within (Table.mem_of_find? happroval) hd
        (fun _ => rfl) rfl fun _ => exit_map_error⟩
  | expired hpending hresumed =>
      simp only [Operation.drive?, hpending, ↓reduceIte] at hd
      refine ⟨_, c', _, hresumed.within hop hd (fun _ => rfl) rfl
        fun hsame => ?_⟩
      simp [Operation.Errs, hsame]
  | expiryFailed hpending hresumed =>
      simp only [Operation.drive?, hpending, ↓reduceIte] at hd
      refine ⟨_, _, _, hresumed.within hop hd (fun _ => rfl) rfl
        fun hsame => ?_⟩
      simp [Operation.Errs, hsame, Core.logged]
  | expiryPanicked hpending hresumed =>
      simp only [Operation.drive?, hpending, ↓reduceIte] at hd
      refine ⟨_, c', _, hresumed.within hop hd (fun _ => rfl) rfl
        fun hsame => ?_⟩
      simp [Operation.Errs, hsame]

/-- A decision on a pending approval has something to drive. -/
theorem Core.Consistent.resumption (hc : c.Consistent)
    {approval : PendingApproval} (hmem : approval ∈ c.db.approvals.rows)
    (decision : ApprovalDecision) :
    ∃ d, resumption c approval decision = some d ∧
      d.instanceId = approval.workflowInstanceId := by
  have hview : approval ∈ (c.view approval.workflowInstanceId).approvals :=
    List.mem_filter.mpr ⟨hmem, by simp⟩
  obtain ⟨row, hrow⟩ := (hc approval.workflowInstanceId).present
    (Or.inl (List.ne_nil_of_mem hview))
  obtain ⟨graph, hgraph, -⟩ := (hc _).of_row hrow
  obtain ⟨definition, hdefinition, -⟩ := Option.map_eq_some_iff.mp hgraph
  replace hrow : c.db.instances.find? approval.workflowInstanceId =
    some row := hrow
  simp [Servcat.resumption, hrow, hdefinition]

/-- Opening an approval fails, by an error or a panic. -/
def Unopened (terms : Exit ApiError (Uuid × Option Timestamp)) : Prop :=
  ∀ t, terms ≠ .ok t

/-- The resumption after this decision or expiry, if the operation is one, does
not derail. -/
def Operation.Resumes (deps : Deps) (c : Core) : Operation → Prop
  | .start .. | .submit .. => True
  | op => ∀ d, op.drive? c = some d → ¬ DerailsOn Unopened deps d.definition
      d.instanceId d.requesterUserId d.answers c c.dispatches.length d.result

theorem Drive.Within.derailsOn (h : d.Within deps op c x c' before after y)
    (refused : Exit ApiError (Uuid × Option Timestamp) → Prop) :
    DerailsOn refused deps d.definition d.instanceId d.requesterUserId
      d.answers before
        before.dispatches.length d.result ↔
      DerailsOn refused deps d.definition d.instanceId d.requesterUserId
        d.answers c c.dispatches.length d.result := by
  rw [derailsOn_congr h.users h.items h.instances h.now, h.dispatches]

theorem Drive.Within.row (h : d.Within deps op c x c' before after y) :
    (before.view d.instanceId).row = (c.view d.instanceId).row :=
  congrArg (fun instances => instances.find? d.instanceId) h.instances

theorem View.attended_of_saved {v v' : View} {stepId : String}
    {answers : Answers} {status : InstanceStatus} {now : Timestamp}
    (hrow : v'.row = v.row.map
      (Db.progressed stepId (.object answers) status now))
    (hopened : status = .awaitingApproval →
      ∃ a ∈ v'.approvals, a.status = .pending ∧
        a.stepId = stepId) : v'.Attended := by
  intro row hrow' hawaiting
  rw [hrow, Option.map_eq_some_iff] at hrow'
  obtain ⟨row, -, rfl⟩ := hrow'
  exact hopened hawaiting

/-- A drive leaves every instance attended, its own unless it derails. -/
theorem Drive.Within.attended (h : d.Within deps op c x c' before after y)
    (hc : ∀ id, (c.view id).Attended)
    (hderails : (c'.view d.instanceId).row = (c.view d.instanceId).row →
      DerailsOn Unopened deps d.definition d.instanceId d.requesterUserId
        d.answers c
        c.dispatches.length d.result → (c'.view d.instanceId).Attended)
          (id : Uuid) :
    (c'.view id).Attended := by
  by_cases hid : id = d.instanceId
  · subst hid
    rcases h.driven.saved_or_derails with
      ⟨stepId, status, now, hrow, hopened, -⟩ | ⟨hrow, -, hon⟩
    · rw [← h.view] at hrow hopened
      exact View.attended_of_saved hrow hopened
    · refine hderails (by rw [h.view, hrow, h.row])
        ((h.derailsOn Unopened).mp ?_)
      exact hon Unopened (fun e _ => by simp [Unopened]) fun _ =>
        by simp [Unopened]
  · rw [h.others id hid]
    exact hc id

/-- An operation that changes anything starts an instance or drives one. -/
theorem Performed.start_or_drive (h : Performed deps op c x c')
    (hc : c.Consistent) (hop : op.Listed c) :
    c' = c ∨ (∃ catalogItemId requester, op = .start catalogItemId requester) ∨
      ∃ d, op.drive? c = some d := by
  cases h with
  | declined | skipped => exact Or.inl rfl
  | started => exact Or.inr (Or.inl ⟨_, _, rfl⟩)
  | submitted hrow hrequester hstatus hdefinition =>
      refine Or.inr (Or.inr ?_)
      simp [Operation.drive?, hrow, hdefinition, hrequester, hstatus]
  | @decided _ _ decision _ approval _ _ _ happroval huser hpending =>
      obtain ⟨d, hd, -⟩ := hc.resumption (Table.mem_of_find? happroval) decision
      exact Or.inr
        (Or.inr ⟨d, by simp [Operation.drive?, happroval, huser, hpending, hd]⟩)
  | expired hpending | expiryFailed hpending | expiryPanicked hpending =>
      obtain ⟨d, hd, -⟩ := hc.resumption hop .reject
      exact Or.inr (Or.inr ⟨d, by simp [Operation.drive?, hpending, hd]⟩)

/-- A submission drives an instance in progress. -/
theorem Operation.row_of_submit {instanceId : Uuid} {requester : User}
    {fieldKey : String} {value : JsonValue}
    (hd : (Operation.submit instanceId requester fieldKey value).drive?
      c = some d) :
    ∃ row, (c.view d.instanceId).row = some row ∧ row.status = .inProgress := by
  obtain ⟨row, hrow, hd⟩ := Option.bind_eq_some_iff.mp hd
  obtain ⟨definition, hdefinition, hd⟩ := Option.bind_eq_some_iff.mp hd
  split at hd
  · rename_i hchecks
    cases hd
    exact ⟨row, hrow, hchecks.2⟩
  · cases hd

theorem View.attended_of_inProgress {v : View} {row : WorkflowInstance}
    (hrow : v.row = some row)
    (hstatus : row.status = .inProgress) : v.Attended := by
  intro row' hrow' hawaiting
  rw [hrow, Option.some.injEq] at hrow'
  rw [← hrow', hstatus] at hawaiting
  cases hawaiting

theorem Performed.attended (h : Performed deps op c x c') (hc : c.Consistent)
    (hop : op.Listed c) (hguard : op.Resumes deps c)
    (hatt : ∀ id, (c.view id).Attended)
    (id : Uuid) : (c'.view id).Attended := by
  rcases h.start_or_drive hc hop with
    rfl | ⟨catalogItemId, requester, rfl⟩ | ⟨d, hd⟩
  · exact hatt id
  · cases h with
    | declined => exact hatt id
    | @started _ _ _ _ _ _ instanceId _ _ _ _ _ _ _ hinsert hdriven =>
        by_cases hid : id = instanceId
        · subst hid
          rcases hdriven.saved_or_derails with
            ⟨stepId, status, now, hrow, hopened, -⟩ | ⟨hrow, -, -⟩
          · exact View.attended_of_saved hrow hopened
          · exact View.attended_of_inProgress
              (hrow.trans (Table.find?_inserted hinsert)) rfl
        · rw [hdriven.touches.others id hid,
            (Core.touches_created hinsert).others id hid]
          exact hatt id
  · obtain ⟨before, after, y, hwithin⟩ := h.drive hop hd
    refine hwithin.attended hatt (fun hsame hderails => ?_) id
    cases op with
    | start => cases hd
    | submit instanceId requester fieldKey value =>
        obtain ⟨row, hrow, hstatus⟩ := Operation.row_of_submit hd
        exact View.attended_of_inProgress (hsame.trans hrow) hstatus
    | decide | expire => exact absurd hderails (hguard d hd)

end Operations

variable {deps : Deps}

/-- Every decision and every expiry resumes its instance without derailing. -/
def resumesAlways (deps : Deps) (w : World) (op : Operation) : Prop :=
  op.Resumes deps w.core

theorem Serial.attended {w w' : World}
    (h : Serial deps (resumesAlways deps) w w') (hw : w.core.Consistent)
    (hatt : ∀ id, (w.core.view id).Attended) (id : Uuid) :
    (w'.core.view id).Attended := by
  induction h generalizing id with
  | refl => exact hatt id
  | tail hrun hstep ih =>
      cases hstep with
      | drift hdrift =>
          rw [hdrift.view]
          exact ih id
      | operation hguard hop =>
          exact hop.performed.attended (Serial.consistent hrun hw) hop.listed
            hguard ih id

/-- While no decision and no expiry derails, somebody can decide every instance
that awaits an approval. -/
theorem awaiting_instances_attended {w₀ w : World} (h₀ : w₀.Initial)
    (hrun : Serial deps (resumesAlways deps) w₀ w) :
    ∀ row ∈ w.db.instances.rows, row.status = .awaitingApproval →
      ∃ a ∈ w.db.approvals.rows, a.workflowInstanceId = row.id ∧
        a.status = .pending ∧ a.stepId = row.currentStepId := by
  intro row hrow hawaiting
  have hnone : ∀ id, (w₀.core.view id).Attended := by
    intro id row hrow
    simp [Core.view, World.core, h₀.instances] at hrow
  obtain ⟨a, ha, hpending, hstep⟩ :=
    hrun.attended h₀.consistent hnone row.id row
      (Table.find?_of_mem hrow) hawaiting
  obtain ⟨ha, hid⟩ := List.mem_filter.mp ha
  exact ⟨a, ha, of_decide_eq_true hid, hpending, hstep⟩

theorem awaiting_instances_attended_opened :
    let w := (Sample.run [.start Sample.item.id Sample.requester] 1
      (Sample.world Sample.approvalThenTicket)).get (by decide)
    w.db.instances.rows.map WorkflowInstance.status = [.awaitingApproval] ∧
    ∀ row ∈ w.db.instances.rows, row.status = .awaitingApproval →
      ∃ a ∈ w.db.approvals.rows, a.workflowInstanceId = row.id ∧
        a.status = .pending ∧ a.stepId = row.currentStepId :=
  ⟨by decide, awaiting_instances_attended
    (Sample.initial Sample.approvalThenTicket)
    (Sample.serial_of_run (by simp [resumesAlways, Operation.Resumes])
      (by simp [Operation.Admissible]) (Option.some_get _).symm)⟩

/-- The approver decides first, then the requester's manager. -/
def Sample.managerApproval : WorkflowGraph where
  entryStepId := "approve"
  steps :=
    [Sample.approval "approve" (.static Sample.approver.id) "confirm"
      "rejected",
      Sample.approval "confirm" .managerOfRequester "done" "rejected",
      Sample.finish "done" .completed, Sample.finish "rejected" .rejected]

/-- The requester has no manager.  The first approval is decided, the second
cannot be opened, and the instance still awaits the first. -/
theorem awaiting_instance_stranded :
    let w := (Sample.run [.start Sample.item.id Sample.requester,
      .decide (Sample.id 105) Sample.approver.id .approve none] 1
      (Sample.world Sample.managerApproval)).get (by decide)
    (Sample.world Sample.managerApproval).Initial ∧
    Sample.managerApproval.Resolves ∧
    Serial Sample.deps anyOperation (Sample.world Sample.managerApproval) w ∧
    ¬ ∀ row ∈ w.db.instances.rows, row.status = .awaitingApproval →
      ∃ a ∈ w.db.approvals.rows, a.workflowInstanceId = row.id ∧
        a.status = .pending ∧ a.stepId = row.currentStepId :=
  ⟨Sample.initial _, by decide,
    Sample.serial_of_run (by simp [anyOperation])
      (by simp [Operation.Admissible]) (Option.some_get _).symm,
    by decide⟩

/-- What `save_progress` stores. -/
def World.progress (w : World) (id : Uuid) :
    Option (InstanceStatus × String × JsonValue) :=
  (w.db.instances.find? id).map fun row =>
    (row.status, row.currentStepId, row.answersJson)

/-- The operation called a connector for the instance, which accepted. -/
def AcceptedCall (w w' : World) (id : Uuid) : Prop :=
  ∃ newer, w'.dispatches = newer ++ w.dispatches ∧
    ∃ d ∈ newer, d.instanceId = id ∧ ∃ r, d.result = .ok r

/-- The operation first files a ticket that is accepted and then meets an error
of the engine or an approval it cannot open. -/
def Operation.Forgets (deps : Deps) (c : Core) (op : Operation) : Prop :=
  ∃ d stepId, op.drive? c = some d ∧
    d.result = .ok (stepId, .readyToSubmitTicket) ∧
    DerailsOn (fun terms => ∃ e, terms = .error e) deps d.definition
      d.instanceId d.requesterUserId d.answers c c.dispatches.length d.result

theorem Operation.instanceId_of_drive? {op : Operation} {w : World} {d : Drive}
    (hd : op.drive? w.core = some d) :
    op.instanceId? w.db = some d.instanceId := by
  cases op with
  | start => cases hd
  | submit instanceId requester fieldKey value =>
      obtain ⟨row, hrow, hd⟩ := Option.bind_eq_some_iff.mp hd
      obtain ⟨definition, hdefinition, hd⟩ := Option.bind_eq_some_iff.mp hd
      split at hd
      · cases hd
        rfl
      · cases hd
  | decide approvalId userId decision comment =>
      obtain ⟨approval, happroval, hd⟩ := Option.bind_eq_some_iff.mp hd
      split at hd
      · rw [World.core_db] at happroval
        rw [resumption_instanceId hd, instanceId?, happroval]
        rfl
      · cases hd
  | expire approval =>
      simp only [drive?] at hd
      split at hd
      · rw [resumption_instanceId hd]
        rfl
      · cases hd

theorem View.Consistent.row_of_dispatch {v : View}
    {graphOf : Uuid → Option WorkflowGraph} (h : v.Consistent graphOf)
    {d : Dispatch} (hd : d ∈ v.dispatches) :
    ∃ row, v.row = some row :=
  h.exists_row fun hnone => List.ne_nil_of_mem hd hnone.2.2

/-- An operation that calls a connector for an instance finds its row, not
finished. -/
theorem AcceptedCall.active {w w' : World} {op : Operation}
    {x : Exit ApiError (Option WorkflowInstance)}
    (hop : op.Completes deps w x w') (hw : w.core.Consistent) {id : Uuid}
    (hcalled : AcceptedCall w w' id) {row : WorkflowInstance}
    (hrow : (w.core.view id).row = some row) :
    row.status.isTerminal = false := by
  obtain ⟨newer, hdispatches, d, hd, hid, -⟩ := hcalled
  by_contra hterminal
  have hsame :=
    congrArg View.dispatches (hop.performed.frozen hw hop.listed hrow
      (by simpa using hterminal))
  simp only [Core.view, World.core, hdispatches, List.filter_append,
    List.append_left_eq_self, List.filter_eq_nil_iff] at hsame
  exact hsame d hd (by simpa using hid)

theorem AcceptedCall.row {w w' : World} {op : Operation}
    {x : Exit ApiError (Option WorkflowInstance)}
    (hop : op.Completes deps w x w') (hw : w.core.Consistent) {id : Uuid}
    (hcalled : AcceptedCall w w' id) :
    ∃ row, (w'.core.view id).row = some row := by
  obtain ⟨newer, hdispatches, d, hd, hid, -⟩ := hcalled
  have hview : d ∈ (w'.core.view id).dispatches :=
    List.mem_filter.mpr ⟨by simp [World.core, hdispatches, hd],
      by simpa using hid⟩
  exact (hop.performed.consistent hw hop.listed id).row_of_dispatch hview

theorem AcceptedCall.calls_ne {w w' : World} {id : Uuid}
    (hcalled : AcceptedCall w w' id) {newer : List Dispatch}
    (hdispatches : w'.dispatches = newer ++ w.dispatches) :
    newer ≠ [] := by
  obtain ⟨newer', hdispatches', d, hd, -⟩ := hcalled
  rw [hdispatches, List.append_left_inj] at hdispatches'
  subst hdispatches'
  exact List.ne_nil_of_mem hd

/-- An operation that fails after an accepted ticket leaves a trace in the
row of its instance exactly when nothing but the refusal of a later ticket
made it fail. -/
theorem accepted_ticket_remembered_iff {w₀ w w' : World} (h₀ : w₀.Initial)
    (hrun : Serial deps anyOperation w₀ w) {op : Operation}
    {x : Exit ApiError (Option WorkflowInstance)}
    (hop : op.Completes deps w x w') {id : Uuid}
    (hid : op.instanceId? w.db = some id) :
    (op.Errs w.core x w'.core → AcceptedCall w w' id →
      w'.progress id ≠ w.progress id) ↔ ¬ op.Forgets deps w.core := by
  have hw : w.core.Consistent := hrun.consistent h₀.consistent
  have hperformed := hop.performed
  constructor
  · rintro hprogress ⟨d, stepId, hd, hready, hderails⟩
    obtain ⟨before, after, y, hwithin⟩ := hperformed.drive hop.listed hd
    have hsame := Operation.instanceId_of_drive? hd
    rw [hid, Option.some.injEq] at hsame
    subst hsame
    have hderails' := (hwithin.derailsOn _).mpr hderails
    have hdriven := hwithin.driven
    rw [hready] at hderails' hdriven
    obtain ⟨herror, hrow⟩ := hdriven.of_derails hderails'
    obtain ⟨newer, call, hcalls, hcall, hresult⟩ :=
      hdriven.accepted_of_derails hderails'
    refine hprogress (hwithin.errs.mpr herror)
      ⟨newer ++ [call], ?_, call, by simp, hcall, hresult⟩ ?_
    · change w'.core.dispatches = newer ++ [call] ++ w.core.dispatches
      rw [hwithin.calls, hcalls, hwithin.dispatches]
      simp
    · rw [← hwithin.view, hwithin.row] at hrow
      exact congrArg (Option.map fun row =>
        (row.status, row.currentStepId, row.answersJson)) hrow
  · intro hforgets herrs hcalled hprogress
    rcases hperformed.start_or_drive hw hop.listed with
      hsame | ⟨catalogItemId, requester, rfl⟩ | ⟨d, hd⟩
    · have hnone : w'.dispatches = [] ++ w.dispatches :=
        congrArg Core.dispatches hsame
      exact hcalled.calls_ne hnone rfl
    · cases hid
    · obtain ⟨before, after, y, hwithin⟩ := hperformed.drive hop.listed hd
      have hsame := Operation.instanceId_of_drive? hd
      rw [hid, Option.some.injEq] at hsame
      subst hsame
      rcases hwithin.driven.saved_or_derails with
        ⟨stepId, status, now, hrow, -, hfailed⟩ | ⟨-, -, hon⟩
      · have hstatus := hfailed (hwithin.errs.mp herrs)
        subst hstatus
        rw [← hwithin.view, hwithin.row] at hrow
        obtain ⟨row', hrow'⟩ := hcalled.row hop hw
        rw [hrow', eq_comm, Option.map_eq_some_iff] at hrow
        obtain ⟨row, hrow, rfl⟩ := hrow
        have hactive := hcalled.active hop hw hrow
        change (w'.core.view d.instanceId).row.map _ =
          (w.core.view d.instanceId).row.map _ at hprogress
        simp only [hrow, hrow', Option.map_some, Db.progressed,
          Option.some.injEq, Prod.mk.injEq] at hprogress
        rw [← hprogress.1] at hactive
        cases hactive
      · obtain ⟨newer, hcalls, hready⟩ := hwithin.driven.dispatches
        rw [← hwithin.calls, hwithin.dispatches] at hcalls
        obtain ⟨stepId, hready⟩ := hready (hcalled.calls_ne hcalls)
        obtain ⟨e, he⟩ := hwithin.errs.mp herrs
        refine hforgets ⟨d, stepId, hd, hready, (hwithin.derailsOn _).mp ?_⟩
        refine hon _ (fun e _ => ⟨e, rfl⟩) fun hpanicked => ?_
        rw [he] at hpanicked
        cases hpanicked

/-- A question, then a ticket, then the approval of the requester's manager. -/
def Sample.ticketThenManager : WorkflowGraph where
  entryStepId := "ask"
  steps :=
    [Sample.question "ask" "reason" "file", Sample.ticket "file" "confirm",
      Sample.approval "confirm" .managerOfRequester "done" "rejected",
      Sample.finish "done" .completed, Sample.finish "rejected" .rejected]

def Sample.asked : World :=
  (Sample.run [.start Sample.item.id Sample.requester] 1
    (Sample.world Sample.ticketThenManager)).get (by decide)

def Sample.answer : Operation :=
  .submit (Sample.id 102) Sample.requester "reason" (.string "broken")

/-- The exit of the submission and the state after it. -/
def Sample.answered : Exit ApiError (Option WorkflowInstance) × World :=
  (Sample.perform Sample.answer 200 Sample.asked).get (by decide)

theorem Sample.asked_serial :
    Serial Sample.deps anyOperation (Sample.world Sample.ticketThenManager)
      Sample.asked :=
  Sample.serial_of_run (by simp [anyOperation]) (by simp [Operation.Admissible])
    (Option.some_get _).symm

theorem Sample.answered_completes :
    Sample.answer.Completes Sample.deps Sample.asked Sample.answered.1
      Sample.answered.2 :=
  Sample.completes_of_perform trivial (Option.some_get _).symm

theorem accepted_ticket_remembered_iff_answered :
    (Sample.answer.Errs Sample.asked.core Sample.answered.1
      Sample.answered.2.core →
      AcceptedCall Sample.asked Sample.answered.2 (Sample.id 102) →
      Sample.answered.2.progress (Sample.id 102) ≠
        Sample.asked.progress (Sample.id 102)) ↔
      ¬ Sample.answer.Forgets Sample.deps Sample.asked.core :=
  accepted_ticket_remembered_iff (Sample.initial _) Sample.asked_serial
    Sample.answered_completes rfl

/-- The requester has no manager.  The submission files a ticket and fails,
nothing in the row shows it, and the same submission files the ticket again. -/
theorem accepted_ticket_forgotten :
    (Sample.world Sample.ticketThenManager).Initial ∧
    Sample.ticketThenManager.Resolves ∧
    Serial Sample.deps anyOperation (Sample.world Sample.ticketThenManager)
      Sample.asked ∧
    Sample.answer.Completes Sample.deps Sample.asked Sample.answered.1
      Sample.answered.2 ∧
    (∃ e, Sample.answered.1 = .error e) ∧
    AcceptedCall Sample.asked Sample.answered.2 (Sample.id 102) ∧
    Sample.answered.2.progress (Sample.id 102) =
      Sample.asked.progress (Sample.id 102) ∧
    ((Sample.run [Sample.answer] 3 Sample.answered.2).map fun w =>
      w.dispatches.map Dispatch.payload) =
        some [.object [("summary", .string "laptop")],
          .object [("summary", .string "laptop")]] := by
  refine ⟨Sample.initial _, by decide, Sample.asked_serial,
    Sample.answered_completes, ⟨.conflict _, rfl⟩,
    ⟨Sample.answered.2.dispatches, rfl, ?_⟩, by decide, by decide⟩
  exact ⟨_, List.mem_cons_self, rfl, ⟨_, rfl⟩⟩

end Servcat
