/-
The tickets of one instance.  No constraint of the tickets table limits their
number, so that whether there is more than one depends on the graph and on what
an operation finds when it reaches a ticket step.
-/
import Servcat.Serial.Stranding

namespace Servcat

open Atomic Keyed

/-- A drive files a second ticket: it begins at a ticket step and can render the
ticket, and there is one already, or this one is accepted and the engine answers
with a ticket step again. -/
def Drive.FilesSecond (deps : Deps) (c : Core) (d : Drive) : Prop :=
  ∃ stepId, d.result = .ok (stepId, .readyToSubmitTicket) ∧
    (ticketOrder deps d.definition c.db d.instanceId d.requesterUserId
      d.answers).isSome ∧
    ((c.view d.instanceId).tickets ≠ [] ∨
      acceptsTicket deps d.definition c.db d.instanceId
        d.requesterUserId d.answers c.dispatches.length ∧
      ∃ nextStepId, Engine.resumeAfterTicketDispatch d.definition.graph stepId
        d.answers = .ok (nextStepId, .readyToSubmitTicket))

section Drives

variable {deps : Deps} {definition : WorkflowDefinition}
  {instanceId requesterUserId : Uuid} {answers : Answers}
  {result : Except EngineError (String × Outcome)} {c c' : Core}

/-- A ticket that can be rendered is stored, whatever the connector answers. -/
theorem Dispatched.tickets {stepId : String} {x : Exit ApiError Unit}
    (h : Dispatched deps definition instanceId requesterUserId answers
      stepId c x c') :
    (ticketOrder deps definition c.db instanceId requesterUserId
      answers = none ∧
      (c'.view instanceId).tickets = (c.view instanceId).tickets) ∨
    (ticketOrder deps definition c.db instanceId requesterUserId
      answers).isSome ∧
      ∃ t, (c'.view instanceId).tickets =
        (c.view instanceId).tickets ++ [t] := by
  cases h with
  | unsent horder => exact .inl ⟨horder, rfl⟩
  | sent horder _ _ hinsert | refused horder _ _ hinsert
  | unrecorded horder _ _ hinsert =>
      rw [horder, Core.view_filed instanceId hinsert rfl rfl]
      exact .inr ⟨rfl, _, rfl⟩

/-- An accepted ticket is stored, and the next one can be rendered as well. -/
theorem Dispatched.accepted_tickets {stepId : String}
    (h : Dispatched deps definition instanceId requesterUserId answers stepId c
      (.ok ()) c') :
    (ticketOrder deps definition c.db instanceId requesterUserId
      answers).isSome ∧
      (ticketOrder deps definition c'.db instanceId requesterUserId
        answers).isSome ∧
      ∃ t, (c'.view instanceId).tickets =
        (c.view instanceId).tickets ++ [t] := by
  have horder : (ticketOrder deps definition c.db instanceId requesterUserId
      answers).isSome := by
    obtain ⟨targetSystem, connector, payload, r, horder, -⟩ := h.accepted.1
    rw [horder]
    rfl
  have hsame : ticketOrder deps definition c'.db instanceId
      requesterUserId answers =
      ticketOrder deps definition c.db instanceId requesterUserId answers := by
    cases h with
    | sent => exact ticketOrder_congr rfl rfl rfl
  rcases h.tickets with ⟨hnone, -⟩ | ⟨-, hadded⟩
  · simp [hnone] at horder
  · exact ⟨horder, by rw [hsame]; exact horder, hadded⟩

/-- Tickets are only added, and only by a drive that begins at a ticket step and
can render the ticket. -/
theorem Driven.tickets {x : Exit ApiError WorkflowInstance}
    (h : Driven deps definition instanceId requesterUserId answers
      result c x c') :
    ∃ newer,
      (c'.view instanceId).tickets = (c.view instanceId).tickets ++ newer ∧
      (newer ≠ [] → ∃ stepId, result = .ok (stepId, .readyToSubmitTicket) ∧
        (ticketOrder deps definition c.db instanceId requesterUserId
          answers).isSome) := by
  induction h with
  | stuck | refused | panicked => exact ⟨[], by simp⟩
  | settled => exact ⟨[], by simp [Core.view_save]⟩
  | opened hterms hinsert =>
      refine ⟨[], ?_, by simp⟩
      rw [Core.view_save, Core.view_opened instanceId hinsert rfl]
      simp
  | failed hdispatch =>
      rw [Core.view_save]
      rcases hdispatch.tickets with ⟨-, hsame⟩ | ⟨horder, t, hadded⟩
      · exact ⟨[], by simp [hsame]⟩
      · exact ⟨[t], hadded, fun _ => ⟨_, rfl, horder⟩⟩
  | advanced hdispatch hrest ih =>
      obtain ⟨newer, hnewer, -⟩ := ih
      obtain ⟨horder, -, t, hadded⟩ := hdispatch.accepted_tickets
      exact ⟨t :: newer, by rw [hnewer, hadded]; simp,
        fun _ => ⟨_, rfl, horder⟩⟩

/-- A drive that begins at a ticket step and can render the ticket files it. -/
theorem Driven.files {stepId : String} {x : Exit ApiError WorkflowInstance}
    (h : Driven deps definition instanceId requesterUserId answers
      (.ok (stepId, .readyToSubmitTicket)) c x c')
    (horder : (ticketOrder deps definition c.db instanceId requesterUserId
      answers).isSome) :
    ∃ t newer,
      (c'.view instanceId).tickets =
        (c.view instanceId).tickets ++ t :: newer := by
  cases h with
  | settled hstatus => cases hstatus
  | failed hdispatch =>
      rw [Core.view_save]
      rcases hdispatch.tickets with ⟨hnone, -⟩ | ⟨-, t, hadded⟩
      · simp [hnone] at horder
      · exact ⟨t, [], hadded⟩
  | advanced hdispatch hrest =>
      obtain ⟨-, -, t, hadded⟩ := hdispatch.accepted_tickets
      obtain ⟨newer, hnewer, -⟩ := hrest.tickets
      exact ⟨t, newer, by rw [hnewer, hadded]; simp⟩

/-- Where there is at most one ticket, a drive adds a second one just when
`Drive.FilesSecond` says so. -/
theorem Driven.one_ticket_iff {d : Drive} {x : Exit ApiError WorkflowInstance}
    (h : Driven deps d.definition d.instanceId d.requesterUserId d.answers
      d.result c x c') (hone : (c.view d.instanceId).tickets.length ≤ 1) :
    (c'.view d.instanceId).tickets.length ≤ 1 ↔ ¬d.FilesSecond deps c := by
  constructor
  · rintro hle ⟨stepId, hresult, horder, hold | ⟨haccepts, nextStepId, hnext⟩⟩
    · rw [hresult] at h
      obtain ⟨t, newer, hnewer⟩ := h.files horder
      have hpos := List.length_pos_iff.mpr hold
      simp only [hnewer, List.length_append, List.length_cons] at hle
      omega
    · rw [hresult] at h
      cases h with
      | settled hstatus => cases hstatus
      | failed hdispatch => exact hdispatch.not_accepted haccepts
      | advanced hdispatch hrest =>
          obtain ⟨-, horder, t, hadded⟩ := hdispatch.accepted_tickets
          rw [hnext] at hrest
          obtain ⟨t', newer, hnewer⟩ := hrest.files horder
          simp only [hnewer, hadded, List.length_append,
            List.length_cons] at hle
          omega
  · intro hsecond
    obtain ⟨newer, hnewer, hbegins⟩ := h.tickets
    by_cases hnone : newer = []
    · rw [hnewer, hnone, List.append_nil]
      exact hone
    obtain ⟨stepId, hresult, horder⟩ := hbegins hnone
    have hfirst : (c.view d.instanceId).tickets = [] := by
      by_contra hold
      exact hsecond ⟨stepId, hresult, horder, .inl hold⟩
    rw [hresult] at h
    cases h with
    | settled hstatus => cases hstatus
    | failed hdispatch =>
        rw [Core.view_save]
        rcases hdispatch.tickets with ⟨-, hsame⟩ | ⟨-, t, hadded⟩
        · simp [hsame, hfirst]
        · simp [hadded, hfirst]
    | advanced hdispatch hrest =>
        obtain ⟨-, -, t, hadded⟩ := hdispatch.accepted_tickets
        obtain ⟨later, hlater, hagain⟩ := hrest.tickets
        have hlast : later = [] := by
          by_contra hne
          obtain ⟨nextStepId, hnext, -⟩ := hagain hne
          exact hsecond ⟨stepId, hresult, horder,
            .inr ⟨hdispatch.accepted.1, nextStepId, hnext⟩⟩
        simp [hlater, hlast, hadded, hfirst]

/-- At most one ticket is stored for the instance. -/
def View.Singly (v : View) : Prop :=
  v.tickets.length ≤ 1

theorem Driven.singly {d : Drive} {x : Exit ApiError WorkflowInstance}
    (h : Driven deps d.definition d.instanceId d.requesterUserId d.answers
      d.result c x
      c') (hsecond : ¬d.FilesSecond deps c) (hone : ∀ id, (c.view id).Singly)
    (id : Uuid) : (c'.view id).Singly := by
  by_cases hid : id = d.instanceId
  · subst hid
    exact (h.one_ticket_iff (hone d.instanceId)).mpr hsecond
  · rw [h.touches.others id hid]
    exact hone id

end Drives

section Operations

variable {deps : Deps} {op : Operation} {c c' : Core}

/-- The operation files no second ticket, whichever identifier a request it
starts gets. -/
def Operation.FilesOnce (deps : Deps) (c : Core) : Operation → Prop
  | .start catalogItemId requester =>
      ∀ item definition result instanceId instances,
      c.db.items.find? catalogItemId = some item →
      c.db.definitions.find? item.workflowDefinitionId = some definition →
      Engine.start definition.graph = .ok result →
      c.db.instances.insert?
        (newInstance instanceId definition.id item.id requester.id result.1) =
          some instances →
      ¬Drive.FilesSecond deps (c.created instances)
        ⟨definition, instanceId, requester.id, [], .ok result⟩
  | op => ∀ d, op.drive? c = some d → ¬d.FilesSecond deps c

theorem Resumed.singly {approval : PendingApproval} {status : ApprovalStatus}
    {comment : Option String} {decision : ApprovalDecision}
    {y : Exit ApiError WorkflowInstance}
    (h : Resumed deps approval.workflowInstanceId approval.stepId decision
      (c.flipped approval.id status comment) y c')
    (hsecond : ∀ d, resumption c approval decision = some d →
      ¬d.FilesSecond deps c)
    (hone : ∀ id, (c.view id).Singly) (id : Uuid) : (c'.view id).Singly := by
  cases h with
  | unknown | undefined => exact hone id
  | @driven row definition _ _ hrow hdefinition hdriven =>
      have hd : resumption c approval decision = some
          { definition
            instanceId := approval.workflowInstanceId
            requesterUserId := row.requesterUserId
            answers := Orchestrator.answersMap row.answersJson
            result :=
              Engine.resumeAfterApproval definition.graph approval.stepId
              (Orchestrator.answersMap row.answersJson) decision } := by
        replace hrow : c.db.instances.find? approval.workflowInstanceId =
          some row := hrow
        replace hdefinition :
          c.db.definitions.find? row.workflowDefinitionId = some definition :=
        hdefinition
        simp [resumption, hrow, hdefinition]
      exact Driven.singly (d := Drive.mk _ _ _ _ _) hdriven
        (hsecond _ hd) hone id

theorem Performed.singly {x : Exit ApiError (Option WorkflowInstance)}
    (h : Performed deps op c x c') (hguard : op.FilesOnce deps c)
    (hone : ∀ id, (c.view id).Singly) (id : Uuid) : (c'.view id).Singly := by
  cases h with
  | declined | skipped => exact hone id
  | @started _ requester _ definition _ _ instanceId _ _ _ _ hitem
      hdefinition hstart hinsert hdriven =>
      exact Driven.singly (d :=
    ⟨definition, instanceId, requester.id, [], _⟩) hdriven
        (hguard _ _ _ _ _ hitem hdefinition hstart hinsert) hone id
  | @submitted instanceId requester _ _ _ definition answers result _ _ _ hrow
      hrequester hstatus hdefinition hengine hdriven =>
      refine Driven.singly (d :=
    ⟨definition, instanceId, requester.id, answers, result⟩)
        hdriven (hguard _ ?_) hone id
      simp [Operation.drive?, hrow, hrequester, hstatus, hdefinition, hengine]
  | decided happroval huser hpending hresumed =>
      obtain rfl := Table.key_of_find? happroval
      refine hresumed.singly (fun d hd => hguard d ?_) hone id
      simp [Operation.drive?, happroval, huser, hpending, hd]
  | expired hpending hresumed | expiryFailed hpending hresumed
  | expiryPanicked hpending hresumed =>
      refine hresumed.singly (fun d hd => hguard d ?_) hone id
      simp [Operation.drive?, hpending, hd]

end Operations

variable {deps : Deps}

/-- No operation files a second ticket. -/
def filesOnce (deps : Deps) (w : World) (op : Operation) : Prop :=
  op.FilesOnce deps w.core

theorem Serial.singly {w w' : World} (h : Serial deps (filesOnce deps) w w')
    (hone : ∀ id, (w.core.view id).Singly) (id : Uuid) :
    (w'.core.view id).Singly := by
  induction h generalizing id with
  | refl => exact hone id
  | tail _ hstep ih =>
      cases hstep with
      | drift hdrift =>
          rw [hdrift.view]
          exact ih id
      | operation hguard hop => exact hop.performed.singly hguard ih id

/-- While no operation files a second ticket, every instance has at most one. -/
theorem one_ticket_per_instance {w₀ w : World} (h₀ : w₀.Initial)
    (hrun : Serial deps (filesOnce deps) w₀ w) (instanceId : Uuid) :
    (w.db.tickets.rows.filter fun t =>
      t.workflowInstanceId = instanceId).length ≤ 1 := by
  have hnone : ∀ id, (w₀.core.view id).Singly := by
    intro id
    simp [View.Singly, Core.view, World.core, h₀.tickets]
  exact hrun.singly hnone instanceId

/-- A ticket, and that is all. -/
def Sample.oneTicket : WorkflowGraph where
  entryStepId := "order"
  steps := [Sample.ticket "order" "done", Sample.finish "done" .completed]

theorem Sample.filesOnce_oneTicket :
    filesOnce Sample.deps (Sample.world Sample.oneTicket)
      (.start Sample.item.id Sample.requester) := by
  intro item definition result instanceId instances hitem hdefinition hstart _
  obtain rfl : Sample.item = item := Option.some.inj hitem
  obtain rfl : Sample.definition Sample.oneTicket = definition :=
    Option.some.inj hdefinition
  obtain rfl : ("order", Outcome.readyToSubmitTicket) = result :=
    Except.ok.inj hstart
  rintro ⟨stepId, hticket, -, hold | ⟨-, nextStepId, hnext⟩⟩
  · exact hold rfl
  · cases hticket
    cases hnext

theorem one_ticket_per_instance_ordered :
    let w := (Sample.run [.start Sample.item.id Sample.requester] 1
      (Sample.world Sample.oneTicket)).get (by decide)
    w.db.tickets.rows.map Ticket.dispatchStatus = [.sent] ∧
    ∀ instanceId, (w.db.tickets.rows.filter fun t =>
      t.workflowInstanceId = instanceId).length ≤ 1 := by
  intro w
  have hstep : SerialStep Sample.deps (filesOnce Sample.deps)
      (Sample.world Sample.oneTicket) w :=
    Sample.step_of_run Sample.filesOnce_oneTicket trivial
      (Option.some_get _).symm
  refine ⟨by decide, ?_⟩
  exact one_ticket_per_instance (Sample.initial _) (.single hstep)

/-- Two ticket steps follow one another. -/
def Sample.twoTickets : WorkflowGraph where
  entryStepId := "order"
  steps :=
    [Sample.ticket "order" "deliver", Sample.ticket "deliver" "done",
      Sample.finish "done" .completed]

/-- Both tickets are filed. -/
theorem two_tickets_for_one_instance :
    let w := (Sample.run [.start Sample.item.id Sample.requester] 1
      (Sample.world Sample.twoTickets)).get (by decide)
    (Sample.world Sample.twoTickets).Initial ∧ Sample.twoTickets.Resolves ∧
    Serial Sample.deps anyOperation (Sample.world Sample.twoTickets) w ∧
    ¬ ∀ instanceId, (w.db.tickets.rows.filter fun t =>
      t.workflowInstanceId = instanceId).length ≤ 1 := by
  refine ⟨Sample.initial _, by decide,
    Sample.serial_of_run (by simp [anyOperation])
      (by simp [Operation.Admissible]) (Option.some_get _).symm, ?_⟩
  intro hall
  exact absurd (hall (Sample.id 102)) (by decide)

end Servcat
