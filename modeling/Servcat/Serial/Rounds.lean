/-
How many rounds the loop of `applyOutcome` takes.  The engine bounds
the branches it follows in one call; nothing bounds the calls, one
after each ticket.
-/
import Servcat.Atomic.Loops
import Servcat.Serial.Stranding

namespace Servcat

open Atomic Keyed Relation

/-- After a ticket the engine goes on from here to there. -/
def WorkflowGraph.NextRound (graph : WorkflowGraph) (answers : Answers)
    (a b : String × Outcome) : Prop :=
  a.2 = .readyToSubmitTicket ∧
    Engine.resumeAfterTicketDispatch graph a.1 answers = .ok b

/-- Every connector accepts every ticket. -/
def Deps.Accepting (deps : Deps) : Prop :=
  ∀ targetSystem connector, deps.connectors targetSystem = some connector →
    ∀ n payload, ∃ result, connector n payload = .ok result

/-- The loop ends: after finitely many rounds, in whatever states its
statements find the database, and with at most one ticket for each step when it
runs alone. -/
def WorkflowGraph.AdvanceEnds (graph : WorkflowGraph) (answers : Answers)
    (stepId : String) (outcome : Outcome) : Prop :=
  ∀ deps definition instanceId requesterUserId, deps.Accepting →
    definition.graph = graph → ∃ rounds,
      (Orchestrator.applyOutcome deps definition instanceId requesterUserId
        answers rounds stepId outcome).Ends Input.Admitted ∧
      ∀ w x w', (w.db.instances.find? instanceId).isSome →
        Runs Input.Admitted (Orchestrator.applyOutcome deps definition
          instanceId requesterUserId answers rounds stepId outcome) w x w' →
        ∃ newer, w'.dispatches = newer ++ w.dispatches ∧
          (newer.map Dispatch.stepId).Nodup

section Graphs

variable {graph : WorkflowGraph} {answers : Answers} {a b c : String × Outcome}

theorem WorkflowGraph.NextRound.unique (hab : graph.NextRound answers a b)
    (hac : graph.NextRound answers a c) : b = c := by
  have heq := hab.2.symm.trans hac.2
  exact Except.ok.inj heq

theorem WorkflowGraph.finite_rounds (graph : WorkflowGraph) (answers : Answers)
    (a : String × Outcome) :
    {b | ReflTransGen (graph.NextRound answers) a b}.Finite := by
  let resumed := graph.steps.filterMap fun s =>
    (Engine.resumeAfterTicketDispatch graph s.id answers).toOption
  refine (a :: resumed).finite_toSet.subset fun b hb => ?_
  rcases ReflTransGen.cases_tail hb with rfl | ⟨c, -, -, hcb⟩
  · exact List.mem_cons_self
  · obtain ⟨s, next, hs, -⟩ := Engine.resumeAfterTicketDispatch_ok hcb
    have hid : s.id = c.1 := by simpa using List.find?_some hs
    refine List.mem_cons_of_mem _ (List.mem_filterMap.mpr ?_)
    exact ⟨s, List.mem_of_find?_eq_some hs, by rw [hid, hcb]; rfl⟩

end Graphs

section Endings

variable {ε : Type} {valid : Input → World → Prop}

theorem select_ends {α : Type} (f : World → α) : (select f).Ends valid :=
  .atomic _

theorem execute_ends {α : Type}
    (f : Input → World → Option (α × Db × List Event)) :
    (execute f).Ends valid :=
  .atomic _

theorem note_ends (event : Event) : (note event : Async ε Unit).Ends valid :=
  .atomic _

theorem Repositories.Instances.saveProgress_ends {id : Uuid} {stepId : String}
    {answers : JsonValue} {status : InstanceStatus} :
    (saveProgress id stepId answers status).Ends valid :=
  (execute_ends _).bind fun _ => select_ends _

theorem Orchestrator.saveProgress_ends {instanceId : Uuid} {stepId : String}
    {answers : Answers} {status : InstanceStatus} :
    (saveProgress instanceId stepId answers status).Ends valid :=
  Repositories.Instances.saveProgress_ends.mapError.bind fun _ => .exit _

theorem Approvals.resolveApproverUserId_ends {deps : Deps} {requester : User}
    {resolution : ApproverResolution} :
    (resolveApproverUserId deps requester resolution).Ends valid := by
  cases resolution with
  | static userId => exact .exit _
  | managerOfRequester => exact .exit _
  | roleInDepartment role =>
      refine Program.Ends.bind (.exit _) fun departmentId => ?_
      exact (select_ends _).mapError.bind fun candidates => .exit _

theorem Approvals.expiresAt_ends {timeoutSeconds : Option Int64} :
    (expiresAt timeoutSeconds).Ends valid := by
  cases timeoutSeconds with
  | none => exact .exit _
  | some secs =>
      refine Program.Ends.bind (.atomic _) fun now => ?_
      cases deadline now secs <;> exact .exit _

theorem Approvals.notifyNewApproval_ends {approval : PendingApproval}
    {requester : User} : (notifyNewApproval approval requester).Ends valid := by
  refine (select_ends _).mapError.bind fun approver => ?_
  cases approver with
  | none => exact .exit _
  | some approver =>
      refine (select_ends _).mapError.bind fun row => ?_
      cases row with
      | none => exact (select_ends _).mapError.bind fun settings => note_ends _
      | some row =>
          refine (select_ends _).mapError.bind fun item => ?_
          exact (select_ends _).mapError.bind fun settings => note_ends _

theorem Approvals.createForInstance_ends {deps : Deps} {instanceId : Uuid}
    {stepId : String} {requester : User} {resolution : ApproverResolution}
    {timeoutSeconds : Option Int64} :
    (createForInstance deps instanceId stepId requester resolution
      timeoutSeconds).Ends valid := by
  refine Program.Ends.bind resolveApproverUserId_ends fun approverUserId => ?_
  refine Program.Ends.bind expiresAt_ends fun expiresAt => ?_
  refine Program.Ends.bind (Program.Ends.mapError ?_) fun approval => ?_
  · refine (execute_ends _).bind fun id => ?_
    exact (select_ends _).bind fun found => .exit _
  · exact Program.Ends.bind notifyNewApproval_ends fun _ => .exit _

theorem Orchestrator.dispatchTicket_ends {deps : Deps}
    {definition : WorkflowDefinition} {instanceId requesterUserId : Uuid}
    {stepId : String} {answers : Answers} :
    (dispatchTicket deps definition instanceId stepId requesterUserId
      answers).Ends
      valid := by
  unfold dispatchTicket
  refine Program.Ends.bind (.exit _) fun targetSystem => ?_
  refine Program.Ends.bind (.exit _) fun mapping => ?_
  refine Program.Ends.bind (.exit _) fun connector => ?_
  refine (select_ends _).mapError.bind fun requester => ?_
  refine Program.Ends.bind (.exit _) fun requester => ?_
  refine (select_ends _).mapError.bind fun row => ?_
  refine Program.Ends.bind (.exit _) fun row => ?_
  refine (select_ends _).mapError.bind fun item => ?_
  refine Program.Ends.bind (.exit _) fun item => ?_
  refine Program.Ends.bind (.exit _) fun payload => ?_
  refine Program.Ends.bind (Program.Ends.mapError ?_) fun ticket => ?_
  · refine (execute_ends _).bind fun id => ?_
    exact (select_ends _).bind fun found => .exit _
  refine Program.Ends.bind (.atomic _) fun result => ?_
  cases result with
  | ok result => exact (execute_ends _).mapError
  | error err => exact (execute_ends _).mapError.bind fun _ => .exit _

/-- A round ends if the rounds it can lead to do. -/
theorem Orchestrator.applyOutcome_ends {deps : Deps}
    {definition : WorkflowDefinition} {instanceId requesterUserId : Uuid}
    {answers : Answers} {rounds : Nat} {a : String × Outcome}
    (h : ∀ b, definition.graph.NextRound answers a b →
      (applyOutcome deps definition instanceId requesterUserId answers
        rounds b.1 b.2).Ends valid) :
    (applyOutcome deps definition instanceId requesterUserId answers
      (rounds + 1) a.1 a.2).Ends valid := by
  obtain ⟨stepId, outcome⟩ := a
  cases outcome with
  | awaitingAnswer => exact saveProgress_ends
  | finished => exact saveProgress_ends
  | awaitingApproval resolution timeoutSeconds =>
      refine (select_ends _).mapError.bind fun requester => ?_
      refine Program.Ends.bind (.exit _) fun requester => ?_
      refine Program.Ends.bind (.mapError Approvals.createForInstance_ends)
        fun _ => ?_
      exact saveProgress_ends
  | readyToSubmitTicket =>
      refine Program.Ends.bind (.attempt dispatchTicket_ends)
        fun dispatched => ?_
      cases dispatched with
      | error err =>
          refine Program.Ends.bind (.mapError ?_) fun _ => .exit _
          exact Repositories.Instances.saveProgress_ends
      | ok =>
          cases hresume : Engine.resumeAfterTicketDispatch
              definition.graph stepId answers with
          | error err => exact .exit _
          | ok b => exact h b ⟨rfl, hresume⟩

end Endings

section Runs

variable {deps : Deps} {definition : WorkflowDefinition}
  {instanceId requesterUserId : Uuid} {answers : Answers}
  {result : Except EngineError (String × Outcome)} {c c' : Core}

theorem Dispatched.stepIds {stepId : String} {x : Exit ApiError Unit}
    (h : Dispatched deps definition instanceId requesterUserId answers
      stepId c x c') :
    ∃ newer, c'.dispatches = newer ++ c.dispatches ∧
      (newer.map Dispatch.stepId).Nodup ∧ ∀ d ∈ newer, d.stepId = stepId := by
  cases h with
  | unsent => exact ⟨[], by simp⟩
  | sent | refused | unrecorded => exact ⟨[_], rfl, by simp, by simp⟩

/-- A drive that cannot come back files at most one ticket for each step. -/
theorem Driven.stepIds {x : Exit ApiError WorkflowInstance}
    (h : Driven deps definition instanceId requesterUserId answers
      result c x c')
    (hresult : ∀ a,
      result = .ok a → ¬Recurs (definition.graph.NextRound answers) a) :
    ∃ newer, c'.dispatches = newer ++ c.dispatches ∧
      (newer.map Dispatch.stepId).Nodup ∧
      ∀ d ∈ newer, ∃ a, result = .ok a ∧
        ReflTransGen (definition.graph.NextRound answers) a
          (d.stepId, .readyToSubmitTicket) := by
  induction h with
  | stuck | settled | refused | panicked | opened => exact ⟨[], rfl, by simp⟩
  | failed hdispatch =>
      obtain ⟨newer, hnewer, hnodup, hsteps⟩ := hdispatch.stepIds
      refine ⟨newer, hnewer, hnodup, fun d hd => ⟨_, rfl, ?_⟩⟩
      rw [hsteps d hd]
  | @advanced stepId _ _ _ _ hdispatch hrest ih =>
      obtain ⟨first, hfirst, hone, hstep⟩ := hdispatch.stepIds
      have hnext : ∀ b, Engine.resumeAfterTicketDispatch definition.graph stepId
          answers = .ok b → definition.graph.NextRound answers
            (stepId, .readyToSubmitTicket) b := fun b hb => ⟨rfl, hb⟩
      obtain ⟨newer, hnewer, hnodup, hreached⟩ := ih fun b hb hrecurs =>
        hresult _ rfl (hrecurs.of_next (hnext b hb))
      refine ⟨newer ++ first, by rw [hnewer, hfirst, List.append_assoc], ?_, ?_⟩
      · rw [List.map_append, List.nodup_append]
        refine ⟨hnodup, hone, ?_⟩
        rintro _ hin _ hout rfl
        obtain ⟨d, hd, heq⟩ := List.mem_map.mp hin
        obtain ⟨d', hd', heq'⟩ := List.mem_map.mp hout
        obtain ⟨b, hb, hwalk⟩ := hreached d hd
        rw [heq, ← heq', hstep d' hd'] at hwalk
        exact hresult _ rfl ⟨_, .refl, .head' (hnext b hb) hwalk⟩
      · intro d hd
        refine ⟨_, rfl, ?_⟩
        rcases List.mem_append.mp hd with hd | hd
        · obtain ⟨b, hb, hwalk⟩ := hreached d hd
          exact .head (hnext b hb) hwalk
        · rw [hstep d hd]

/-- A walk that does not come back is followed to its end. -/
theorem WorkflowGraph.advanceEnds_of_not_recurs {graph : WorkflowGraph}
    {stepId : String} {outcome : Outcome}
    (h : ¬Recurs (graph.NextRound answers) (stepId, outcome)) :
    graph.AdvanceEnds answers stepId outcome := by
  rintro deps definition instanceId requesterUserId - rfl
  have hacc := acc_of_not_recurs (definition.graph.finite_rounds answers _) h
  let loop (rounds : Nat) (a : String × Outcome) :=
    Orchestrator.applyOutcome deps
      definition instanceId requesterUserId answers rounds a.1 a.2
  have hround : ∀ n a, (∀ b, definition.graph.NextRound answers a b →
      (loop n b).Ends Input.Admitted) → (loop (n + 1) a).Ends Input.Admitted :=
    fun _ _ => Orchestrator.applyOutcome_ends
  obtain ⟨rounds, hends⟩ :=
    exists_fuel_ends hacc (fun _ _ _ => NextRound.unique) hround
  refine ⟨rounds, hends, fun w x w' hrow hrun => ?_⟩
  have hdriven := hrun.ensures (Orchestrator.applyOutcome_wp hrow)
  obtain ⟨newer, hnewer, hnodup, -⟩ := hdriven.stepIds fun a ha => by
    cases ha
    exact h
  exact ⟨newer, hnewer, hnodup⟩

end Runs

section Endless

variable (graph : WorkflowGraph)

/-- The connector accepts every ticket, under the same id. -/
def Sample.agreeable : Deps :=
  { Sample.deps with connectors := fun _ => some fun _ _ => .ok ⟨"1", none⟩ }

/-- A request under way. -/
def Sample.underWay : World :=
  { Sample.world graph with
    db := { (Sample.world graph).db with
      instances := ⟨[newInstance (Sample.id 5) (Sample.id 4) Sample.item.id
        Sample.requester.id graph.entryStepId], by simp⟩ } }

/-- Tickets with nothing in them. -/
def Sample.emptyTickets : WorkflowDefinition :=
  { Sample.definition graph with fieldMapping := some [] }

theorem Sample.agreeable_accepting : Sample.agreeable.Accepting := by
  rintro targetSystem connector ⟨⟩ n payload
  exact ⟨_, rfl⟩

theorem Sample.dispatchTicket_mayExit (answers : Answers) (stepId : String) :
    (Orchestrator.dispatchTicket Sample.agreeable (Sample.emptyTickets graph)
      (Sample.id 5) stepId Sample.requester.id answers).MayExit Input.Admitted
        (.ok ()) := by
  have hrun : ∃ w, runAlone Input.Admitted
      (Orchestrator.dispatchTicket Sample.agreeable (Sample.emptyTickets graph)
        (Sample.id 5) stepId Sample.requester.id answers) (Sample.inputs 0 100)
      (Sample.underWay graph) = some (.ok (), w) := ⟨_, rfl⟩
  obtain ⟨w, hrun⟩ := hrun
  exact .of_runs (runs_of_runAlone hrun)

variable {graph}

/-- A walk that comes back is followed forever. -/
theorem WorkflowGraph.AdvanceEnds.not_recurs {answers : Answers}
    {stepId : String} {outcome : Outcome}
    (h : graph.AdvanceEnds answers stepId outcome) :
    ¬Recurs (graph.NextRound answers) (stepId, outcome) := by
  intro hrecurs
  obtain ⟨rounds, hends, -⟩ := h Sample.agreeable (Sample.emptyTickets graph)
    (Sample.id 5) Sample.requester.id Sample.agreeable_accepting rfl
  let loop (rounds : Nat) (a : String × Outcome) := Orchestrator.applyOutcome
    Sample.agreeable (Sample.emptyTickets graph) (Sample.id 5)
      Sample.requester.id
    answers rounds a.1 a.2
  have hzero : ∀ a, ¬(loop 0 a).Ends Input.Admitted := fun _ hspin => hspin
  have hround : ∀ n a b, graph.NextRound answers a b →
      (loop (n + 1) a).Ends Input.Admitted →
        (loop n b).Ends Input.Admitted := by
    rintro n ⟨stepId, outcome⟩ b ⟨hticket, hresume⟩ hends
    obtain rfl : outcome = .readyToSubmitTicket := hticket
    have hsent : (Orchestrator.dispatchTicket Sample.agreeable
        (Sample.emptyTickets graph) (Sample.id 5) stepId Sample.requester.id
        answers).attempt.MayExit Input.Admitted
          (.ok (.ok ()) : Exit ApiError _) :=
      (Sample.dispatchTicket_mayExit graph answers stepId).handle (.exit _)
    have hrest := hsent.ends_rest hends
    replace hresume : Engine.resumeAfterTicketDispatch
      (Sample.emptyTickets graph).graph stepId answers = .ok b := hresume
    simp only [Program.onOk, hresume] at hrest
    exact hrest
  exact not_ends_of_recurs hrecurs hzero hround rounds hends

end Endless

/-- The loop ends just when no ticket step leads back to itself, as far as these
answers lead. -/
theorem advance_ends_iff (graph : WorkflowGraph) (answers : Answers)
    (stepId : String) (outcome : Outcome) :
    graph.AdvanceEnds answers stepId outcome ↔
      ¬Recurs (graph.NextRound answers) (stepId, outcome) := by
  constructor
  · exact WorkflowGraph.AdvanceEnds.not_recurs
  · exact WorkflowGraph.advanceEnds_of_not_recurs

/-- A ticket step that is its own successor. -/
def Sample.ticketLoop : WorkflowGraph where
  entryStepId := "file"
  steps := [Sample.ticket "file" "file"]

theorem ticket_loop_never_ends :
    Sample.ticketLoop.Resolves ∧
    Engine.start Sample.ticketLoop = .ok ("file", .readyToSubmitTicket) ∧
    ¬Sample.ticketLoop.AdvanceEnds [] "file" .readyToSubmitTicket := by
  refine ⟨by decide, rfl, fun hends => hends.not_recurs ?_⟩
  exact ⟨_, .refl, .single ⟨rfl, rfl⟩⟩

end Servcat
