/-
Requests on which everyone does their part.  Where the definition names no
target system, they go as far as their first ticket and fail there.
-/
import Servcat.Engine.Plans
import Servcat.Serial.Refinement
import Servcat.Serial.Stranding

namespace Servcat

open Atomic Keyed Engine

/-- The approvals of the graph can be opened for the requester. -/
def Resolvable (deps : Deps) (graph : WorkflowGraph) (requesterUserId : Uuid)
    (c : Core) : Prop :=
  ∀ stepId resolution timeoutSeconds,
    OutcomeAt graph stepId (.awaitingApproval resolution timeoutSeconds) →
    ∃ terms,
      approvalTerms deps c requesterUserId resolution timeoutSeconds = .ok terms

/-- A request that was started in `w₀`, after `n` answers and approvals: its
questions are answered by the requester and its approvals, which can all be
opened, are given. Whatever else happens leaves its records alone. -/
inductive Cooperative (deps : Deps) (graph : WorkflowGraph)
    (itemId instanceId : Uuid) (w₀ : World) : ℕ → World → Prop
  | started {requester : User} {x : Exit ApiError (Option WorkflowInstance)}
      {w : World} (hresolvable : Resolvable deps graph requester.id w₀.core)
      (hop : (Operation.start itemId requester).Completes deps w₀ x w)
      (hnew : w₀.db.instances.find? instanceId = none)
      (hrow : (w.db.instances.find? instanceId).isSome) :
      Cooperative deps graph itemId instanceId w₀ 0 w
  | drifted {n : ℕ} {w w' : World}
      (h : Cooperative deps graph itemId instanceId w₀ n w)
      (hdrift : w.Drift w') : Cooperative deps graph itemId instanceId w₀ n w'
  | aside {n : ℕ} {w w' : World} {op : Operation}
      {x : Exit ApiError (Option WorkflowInstance)}
      (h : Cooperative deps graph itemId instanceId w₀ n w)
      (hop : op.Completes deps w x w')
      (hview : w'.core.view instanceId = w.core.view instanceId) :
      Cooperative deps graph itemId instanceId w₀ n w'
  | answered {n : ℕ} {w w' : World} {row : WorkflowInstance} {requester : User}
      {fieldKey : String} {value : JsonValue}
      {x : Exit ApiError (Option WorkflowInstance)}
      (h : Cooperative deps graph itemId instanceId w₀ n w)
      (hrow : w.db.instances.find? instanceId = some row)
      (hquestion : OutcomeAt graph row.currentStepId (.awaitingAnswer fieldKey))
      (hrequester : row.requesterUserId = requester.id)
      (hresolvable : Resolvable deps graph requester.id w.core)
      (hop : (Operation.submit instanceId requester fieldKey value).Completes
        deps w x w') :
      Cooperative deps graph itemId instanceId w₀ (n + 1) w'
  | approved {n : ℕ} {w w' : World} {row : WorkflowInstance}
      {approval : PendingApproval} {comment : Option String}
      {x : Exit ApiError (Option WorkflowInstance)}
      (h : Cooperative deps graph itemId instanceId w₀ n w)
      (hrow : w.db.instances.find? instanceId = some row)
      (happroval : approval ∈ w.db.approvals.rows)
      (hid : approval.workflowInstanceId = instanceId)
      (hpending : approval.status = .pending)
      (hresolvable : Resolvable deps graph row.requesterUserId w.core)
      (hop : (Operation.decide approval.id approval.approverUserId .approve
        comment).Completes deps w x w') :
      Cooperative deps graph itemId instanceId w₀ (n + 1) w'

/-- The status of an instance at an outcome, where no ticket can be filed. -/
def untargetedStatus (outcome : Outcome) : InstanceStatus :=
  (statusAt outcome).getD .failed

/-- The definition has this graph and names no target system. -/
def Db.Untargeted (db : Db) (graph : WorkflowGraph)
    (definitionId : Uuid) : Prop :=
  ∃ definition, db.definitions.find? definitionId = some definition ∧
    definition.graph = graph ∧ definition.targetSystem = none

/-- The outcome asks for an answer or an approval. -/
def Outcome.Awaits : Outcome → Prop
  | .awaitingAnswer _ | .awaitingApproval .. => True
  | .readyToSubmitTicket | .finished _ => False

/-- The instance is where the calls at the outcomes of `past` lead to along the
course of the plan. -/
def Underway (graph : WorkflowGraph) (plan : Plan) (instanceId : Uuid)
    (past : List Outcome) (c : Core) : Prop :=
  ∃ row rest, (c.view instanceId).row = some row ∧
    c.db.Untargeted graph row.workflowDefinitionId ∧
    Realises graph row.currentStepId rest ∧
    row.status = untargetedStatus rest.outcome ∧
    plan.course = past ++ rest.course ∧ ∀ outcome ∈ past, outcome.Awaits

variable {deps : Deps} {definition : WorkflowDefinition} {graph : WorkflowGraph}
  {plan : Plan} {instanceId requesterUserId : Uuid} {answers : Answers}
  {past : List Outcome}
  {c c' : Core}

theorem ticketOrder_untargeted (h : definition.targetSystem = none) (db : Db) :
    ticketOrder deps definition db instanceId requesterUserId answers =
      none := by
  simp [ticketOrder, h]

/-- A drive without a target system saves the outcome it begins with. -/
theorem Driven.untargeted {stepId : String} {outcome : Outcome}
    {x : Exit ApiError WorkflowInstance}
    (h : Driven deps definition instanceId requesterUserId answers
      (.ok (stepId, outcome)) c x c')
    (htarget : definition.targetSystem = none)
    (hterms : ∀ resolution timeoutSeconds,
      outcome = .awaitingApproval resolution timeoutSeconds → ∃ terms,
        approvalTerms deps c requesterUserId resolution timeoutSeconds =
          .ok terms) :
    ∃ now, (c'.view instanceId).row = (c.view instanceId).row.map
      (Db.progressed stepId (.object answers) (untargetedStatus outcome)
        now) := by
  have horder :=
    @ticketOrder_untargeted deps definition instanceId requesterUserId
      answers htarget
  cases h with
  | settled hstatus =>
      refine ⟨c.now, ?_⟩
      rw [Core.view_save]
      cases outcome with
      | awaitingAnswer | finished =>
          obtain rfl := Option.some.inj hstatus
          rfl
      | _ => cases hstatus
  | refused hrefused =>
      obtain ⟨terms, hok⟩ := hterms _ _ rfl
      rw [hrefused] at hok
      cases hok
  | panicked hpanicked =>
      obtain ⟨terms, hok⟩ := hterms _ _ rfl
      rw [hpanicked] at hok
      cases hok
  | opened _ hinsert =>
      refine ⟨c.now, ?_⟩
      rw [Core.view_save, Core.view_opened instanceId hinsert rfl]
      rfl
  | failed hdispatch =>
      cases hdispatch with
      | unsent =>
          refine ⟨c.now, ?_⟩
          rw [Core.view_save]
          rfl
      | refused hsome | unrecorded hsome =>
          rw [horder] at hsome
          cases hsome
  | advanced hdispatch =>
      cases hdispatch with
      | sent hsome =>
          rw [horder] at hsome
          cases hsome

theorem Resolvable.congr (h : Resolvable deps graph requesterUserId c)
    (husers : c'.db.users = c.db.users) (hnow : c'.now = c.now) :
    Resolvable deps graph requesterUserId c' := by
  intro stepId resolution timeoutSeconds hat
  rw [approvalTerms_congr husers hnow]
  exact h stepId resolution timeoutSeconds hat

/-- One call: the drive it sets off ends at the next outcome of the plan. -/
theorem Driven.underway {row : WorkflowInstance} {stepId : String} {next : Plan}
    {x : Exit ApiError WorkflowInstance}
    (h : Driven deps definition instanceId requesterUserId answers
      (.ok (stepId, next.outcome)) c x c')
    (hrow : (c.view instanceId).row = some row)
    (hdefinition : c.db.definitions.find? row.workflowDefinitionId =
      some definition)
    (htarget : definition.targetSystem = none)
    (hresolvable : Resolvable deps definition.graph requesterUserId c)
    (hnext : Realises definition.graph stepId next)
    (hcourse : plan.course = past ++ next.course)
    (hpast : ∀ outcome ∈ past, outcome.Awaits) :
    Underway definition.graph plan instanceId past c' := by
  have hterms : ∀ resolution timeoutSeconds,
      next.outcome = .awaitingApproval resolution timeoutSeconds → ∃ terms,
        approvalTerms deps c requesterUserId resolution timeoutSeconds =
          .ok terms := by
    intro resolution timeoutSeconds houtcome
    apply hresolvable stepId
    rw [← houtcome]
    exact hnext.outcomeAt
  obtain ⟨now, hsaved⟩ := h.untargeted htarget hterms
  rw [hrow] at hsaved
  refine ⟨_, next, hsaved, ⟨definition, ?_, rfl, htarget⟩, hnext, rfl,
    hcourse, hpast⟩
  rw [h.touches.definitions]
  exact hdefinition

theorem Underway.start {itemId : Uuid} {requester : User}
    {item : ServiceCatalogItem} {x : Exit ApiError (Option WorkflowInstance)}
    (h : Performed deps (.start itemId requester) c x c')
    (hitem : c.db.items.find? itemId = some item)
    (huntargeted : c.db.Untargeted graph item.workflowDefinitionId)
    (hplan : Realises graph graph.entryStepId plan)
    (hresolvable : Resolvable deps graph requester.id c)
    (hnew : (c.view instanceId).row = none)
    (hrow : ((c'.view instanceId).row).isSome = true) :
    Underway graph plan instanceId [] c' := by
  obtain ⟨definition, hdefinition, rfl, htarget⟩ := huntargeted
  cases h with
  | declined =>
      rw [hnew] at hrow
      cases hrow
  | @started _ _ item' definition' stepId outcome created instances _ _ _ hitem'
      hdefinition' hstart hinsert hdriven =>
      obtain rfl := Option.some.inj (hitem.symm.trans hitem')
      obtain rfl := Option.some.inj (hdefinition.symm.trans hdefinition')
      by_cases hid : instanceId = created
      · subst hid
        rw [hplan.start] at hstart
        obtain ⟨rfl, rfl⟩ := Prod.mk.inj (Except.ok.inj hstart)
        refine hdriven.underway (congrArg View.row (Core.view_created hinsert))
          ?_ htarget (hresolvable.congr rfl rfl) hplan rfl (by simp)
        change c.db.definitions.find? definition.id = some definition
        rw [Table.key_of_find? hdefinition]
        exact hdefinition
      · rw [hdriven.touches.others _ hid,
          (Core.touches_created hinsert).others _ hid, hnew] at hrow
        cases hrow

theorem Underway.unchanged (h : Underway graph plan instanceId past c)
    (hrow : (c'.view instanceId).row = (c.view instanceId).row)
    (huntargeted : ∀ id, c.db.Untargeted graph id → c'.db.Untargeted graph id) :
    Underway graph plan instanceId past c' := by
  obtain ⟨row, rest, hstored, hdefinition, hrest⟩ := h
  exact ⟨row, rest, hrow.trans hstored, huntargeted _ hdefinition, hrest⟩

/-- The call that is asked for leads to the next outcome of the course. -/
theorem Underway.called {row : WorkflowInstance} {rest next : Plan}
    {call : Call} {target : String} {x : Exit ApiError WorkflowInstance}
    {result : Except EngineError (String × Outcome)}
    (hdriven : Driven deps definition instanceId requesterUserId answers
      result c x c')
    (hrow : (c.view instanceId).row = some row)
    (hdefinition : c.db.definitions.find? row.workflowDefinitionId =
      some definition)
    (htarget : definition.targetSystem = none)
    (hresolvable : Resolvable deps definition.graph requesterUserId c)
    (hresult : result = .ok (target, next.outcome))
    (hrealises : Realises definition.graph target next)
    (hcourse : plan.course = past ++ rest.course)
    (hnext : rest.next call = some next)
    (hcall : call ≠ .resumeAfterApproval .reject)
    (hpast : ∀ outcome ∈ past, outcome.Awaits) (hawaits : rest.outcome.Awaits) :
    Underway definition.graph plan instanceId (past ++ [rest.outcome]) c' := by
  subst hresult
  refine hdriven.underway hrow hdefinition htarget hresolvable hrealises ?_ ?_
  · rw [hcourse, Plan.course_next hnext hcall, List.append_assoc]
    rfl
  · exact List.forall_mem_append.mpr
      ⟨hpast, List.forall_mem_singleton.mpr hawaits⟩

theorem Underway.answer {row : WorkflowInstance} {requester : User}
    {fieldKey : String} {value : JsonValue}
    {x : Exit ApiError (Option WorkflowInstance)}
    (h : Underway graph plan instanceId past c)
    (hop : Performed deps (.submit instanceId requester fieldKey value) c x c')
    (hrow : (c.view instanceId).row = some row)
    (hquestion : OutcomeAt graph row.currentStepId (.awaitingAnswer fieldKey))
    (hrequester : row.requesterUserId = requester.id)
    (hresolvable : Resolvable deps graph requester.id c) :
    ∃ outcome, Underway graph plan instanceId (past ++ [outcome]) c' := by
  obtain ⟨row', rest, hstored, ⟨definition, hdefinition, rfl, htarget⟩,
    hrest, hstatus, hcourse, hpast⟩ := h
  obtain rfl := Option.some.inj (hrow.symm.trans hstored)
  have houtcome := hrest.outcomeAt.unique hquestion
  rw [houtcome] at hstatus
  have hnext : ∃ next,
      rest.next (.submitAnswer fieldKey value) = some next := by
    apply Option.isSome_iff_exists.mp
    rw [Plan.next_isSome_iff, houtcome]
    rfl
  obtain ⟨next, hnext⟩ := hnext
  obtain ⟨target, hok, htargets⟩ :=
    hrest.perform hnext (Orchestrator.answersMap row.answersJson)
  refine ⟨rest.outcome, ?_⟩
  cases hop with
  | declined hdeclined =>
      exact absurd ⟨row, definition, hrow, hrequester, hstatus,
        hdefinition⟩ hdeclined
  | submitted hrow' _ _ hdefinition' hengine hdriven =>
      obtain rfl := Option.some.inj (hrow.symm.trans hrow')
      obtain rfl := Option.some.inj (hdefinition.symm.trans hdefinition')
      have hresult := congrArg Prod.snd hengine
      exact .called hdriven hrow hdefinition htarget hresolvable
        (hresult.symm.trans hok)
        htargets hcourse hnext (by simp) hpast (by rw [houtcome]; trivial)

theorem Underway.approve {row : WorkflowInstance} {approval : PendingApproval}
    {comment : Option String} {x : Exit ApiError (Option WorkflowInstance)}
    (h : Underway graph plan instanceId past c) (hc : c.Consistent)
    (hop : Performed deps
      (.decide approval.id approval.approverUserId .approve comment) c x c')
    (hrow : (c.view instanceId).row = some row)
    (happroval : approval ∈ c.db.approvals.rows)
    (hid : approval.workflowInstanceId = instanceId)
    (hpending : approval.status = .pending)
    (hresolvable : Resolvable deps graph row.requesterUserId c) :
    ∃ outcome, Underway graph plan instanceId (past ++ [outcome]) c' := by
  subst hid
  obtain ⟨row', rest, hstored, ⟨definition, hdefinition, rfl, htarget⟩,
    hrest, hstatus, hcourse, hpast⟩ := h
  obtain rfl := Option.some.inj (hrow.symm.trans hstored)
  have hview : approval ∈ (c.view approval.workflowInstanceId).approvals :=
    List.mem_filter.mpr ⟨happroval, by simp⟩
  obtain ⟨graph, -, hagrees⟩ := (hc _).of_row hrow
  obtain ⟨hawaiting, hstep, -⟩ := hagrees.pending approval hview hpending
  obtain ⟨resolution, timeoutSeconds, next, rejected, rfl⟩ :
      ∃ resolution timeoutSeconds next rejected,
        rest = .approval resolution timeoutSeconds next rejected := by
    rw [hawaiting] at hstatus
    cases rest with
    | approval => exact ⟨_, _, _, _, rfl⟩
    | finish outcome => cases outcome <;> cases hstatus
    | _ => cases hstatus
  obtain ⟨target, hok, htargets⟩ :=
    @Realises.perform _ _ _ next (.resumeAfterApproval .approve) hrest rfl
      (Orchestrator.answersMap row.answersJson)
  refine ⟨.awaitingApproval resolution timeoutSeconds, ?_⟩
  cases hop with
  | declined hdeclined =>
      exact absurd ⟨approval, Table.find?_of_mem happroval, rfl,
        hpending⟩ hdeclined
  | decided hfound _ _ hresumed =>
      obtain rfl :=
        Option.some.inj ((Table.find?_of_mem happroval).symm.trans hfound)
      cases hresumed with
      | unknown hnone => cases hrow.symm.trans hnone
      | undefined hrow' hnone =>
          obtain rfl := Option.some.inj (hrow.symm.trans hrow')
          cases hdefinition.symm.trans hnone
      | driven hrow' hdefinition' hdriven =>
          obtain rfl := Option.some.inj (hrow.symm.trans hrow')
          obtain rfl := Option.some.inj (hdefinition.symm.trans hdefinition')
          rw [← hstep] at hdriven
          have hnext :
              (Plan.approval resolution timeoutSeconds next rejected).next
              (.resumeAfterApproval .approve) = some next := rfl
          exact .called hdriven hrow hdefinition htarget
            (hresolvable.congr rfl rfl) hok
            htargets hcourse hnext (by simp) hpast trivial

theorem World.Drift.untargeted {w w' : World} (h : w.Drift w') {id : Uuid}
    (huntargeted : w.db.Untargeted graph id) : w'.db.Untargeted graph id := by
  obtain ⟨definition, hdefinition, hgraph, htarget⟩ := huntargeted
  obtain ⟨isPublished, hfound⟩ := h.definitions id definition hdefinition
  exact ⟨_, hfound, hgraph, htarget⟩

theorem Performed.untargeted {op : Operation}
    {x : Exit ApiError (Option WorkflowInstance)} (h : Performed deps op c x c')
    (hc : c.Consistent) (hop : op.Listed c) {id : Uuid}
    (huntargeted : c.db.Untargeted graph id) : c'.db.Untargeted graph id := by
  rcases h.local hc hop with rfl | ⟨_, hlocal, -⟩
  · exact huntargeted
  · obtain ⟨definition, hdefinition, hrest⟩ := huntargeted
    refine ⟨definition, ?_, hrest⟩
    rw [hlocal.touches.definitions]
    exact hdefinition

theorem Serial.untargeted {guard : World → Operation → Prop} {w w' : World}
    (h : Serial deps guard w w') (hw : w.core.Consistent) {id : Uuid}
    (huntargeted : w.db.Untargeted graph id) : w'.db.Untargeted graph id := by
  induction h with
  | refl => exact huntargeted
  | tail hrun hstep ih =>
      cases hstep with
      | drift hdrift => exact hdrift.untargeted ih
      | operation _ hop =>
          exact hop.performed.untargeted (Serial.consistent hrun hw)
            hop.listed ih

/-- A request on which everyone does their part keeps to the course
of its plan. -/
theorem Cooperative.underway {itemId : Uuid} {item : ServiceCatalogItem} {n : ℕ}
    {w₀ w : World} (h : Cooperative deps graph itemId instanceId w₀ n w)
    (hw₀ : w₀.core.Consistent) (hitem : w₀.db.items.find? itemId = some item)
    (huntargeted : w₀.db.Untargeted graph item.workflowDefinitionId)
    (hplan : Realises graph graph.entryStepId plan) :
    w.core.Consistent ∧
      ∃ past, past.length = n ∧ Underway graph plan instanceId past w.core := by
  induction h with
  | started hresolvable hop hnew hrow =>
      exact ⟨hop.performed.consistent hw₀ hop.listed, [], rfl,
        .start hop.performed hitem huntargeted hplan hresolvable hnew hrow⟩
  | drifted _ hdrift ih =>
      obtain ⟨hw, past, hlength, hunderway⟩ := ih
      refine ⟨hdrift.consistent hw, past, hlength, hunderway.unchanged ?_ ?_⟩
      · rw [hdrift.view]
      · exact fun _ => hdrift.untargeted
  | aside _ hop hview ih =>
      obtain ⟨hw, past, hlength, hunderway⟩ := ih
      refine ⟨hop.performed.consistent hw hop.listed, past, hlength,
        hunderway.unchanged (congrArg View.row hview) ?_⟩
      exact fun _ => hop.performed.untargeted hw hop.listed
  | answered _ hrow hquestion hrequester hresolvable hop ih =>
      obtain ⟨hw, past, rfl, hunderway⟩ := ih
      obtain ⟨outcome, hnext⟩ :=
        hunderway.answer hop.performed hrow hquestion hrequester hresolvable
      exact ⟨hop.performed.consistent hw hop.listed, _,
        List.length_append, hnext⟩
  | approved _ hrow happroval hid hpending hresolvable hop ih =>
      obtain ⟨hw, past, rfl, hunderway⟩ := ih
      obtain ⟨outcome, hnext⟩ :=
        hunderway.approve hw hop.performed hrow happroval hid hpending
          hresolvable
      exact ⟨hop.performed.consistent hw hop.listed, _,
        List.length_append, hnext⟩

theorem untargetedStatus_of_awaits {outcome : Outcome} (h : outcome.Awaits) :
    untargetedStatus outcome = .inProgress ∨
      untargetedStatus outcome = .awaitingApproval := by
  cases outcome with
  | awaitingAnswer => exact .inl rfl
  | awaitingApproval => exact .inr rfl
  | _ => cases h

/-- After the answers and approvals that the plan asks for, and no earlier, the
status is that of the first outcome that asks for none. -/
theorem Underway.status {calls later : List Outcome} {outcome : Outcome}
    (h : Underway graph plan instanceId past c)
    (hcourse : plan.course = calls ++ outcome :: later)
    (hcalls : ∀ outcome ∈ calls, outcome.Awaits) (houtcome : ¬outcome.Awaits) :
    ∃ row, (c.view instanceId).row = some row ∧ past.length ≤ calls.length ∧
      (past.length < calls.length →
        row.status = .inProgress ∨ row.status = .awaitingApproval) ∧
      (past.length = calls.length → row.status = untargetedStatus outcome) := by
  obtain ⟨row, rest, hrow, -, -, hstatus, hrest, hpast⟩ := h
  obtain ⟨_, hhead⟩ := rest.course_eq_cons
  rw [hcourse, hhead] at hrest
  refine ⟨row, hrow, ?_⟩
  rcases List.append_eq_append_iff.mp hrest with
    ⟨more, rfl, hmore⟩ | ⟨more, rfl, hmore⟩
  · cases more with
    | nil =>
        obtain ⟨rfl, -⟩ := List.cons_eq_cons.mp hmore
        simp [hstatus]
    | cons first more =>
        obtain ⟨rfl, -⟩ := List.cons_eq_cons.mp hmore
        exact absurd (hpast _ (by simp)) houtcome
  · cases more with
    | nil =>
        obtain ⟨rfl, -⟩ := List.cons_eq_cons.mp hmore
        simp [hstatus]
    | cons first more =>
        obtain ⟨rfl, -⟩ := List.cons_eq_cons.mp hmore
        rw [hstatus]
        exact ⟨by simp, fun _ => untargetedStatus_of_awaits
          (hcalls _ (by simp)), by simp⟩

end Servcat
