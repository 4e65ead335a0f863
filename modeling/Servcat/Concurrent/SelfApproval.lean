/-
Who approves a request.  An approval is only ever approved by the user that the
rule of its step picked before it was opened, which may be the requester.
-/
import Servcat.Atomic.Moments
import Servcat.Concurrent.Conduct
import Servcat.Sample

namespace Servcat

open Atomic Keyed

/-- The graph names no user as an approver. -/
def WorkflowGraph.NoStaticApprover (graph : WorkflowGraph) : Prop :=
  ∀ s ∈ graph.steps, ∀ userId onApprove onReject timeoutSeconds,
    s.kind ≠ .waitForApproval (.static userId) onApprove onReject timeoutSeconds

/-- The rule picks the requester: they are entered as their own manager, or come
first, by display name, of the active users with the role in their
department. -/
def ApproverResolution.PicksRequester (deps : Deps) (db : Db)
    (requester : User) : ApproverResolution → Prop
  | .static _ => False
  | .managerOfRequester => requester.managerUserId = some requester.id
  | .roleInDepartment role =>
      ∃ departmentId, requester.departmentId = some departmentId ∧
      (candidates deps db role departmentId).head?.map User.id =
        some requester.id

/-- In one step, a decision of this user turns the approval to `approved`. -/
structure Approves (deps : Deps) (userId approvalId : Uuid)
    (c d : ServerConfig) : Prop where
  request : ∃ n id decision comment rounds,
    StepOf (system deps) .free n
      (.decide id userId decision comment, rounds) c d
  before : ∃ a, c.state.db.approvals.find? approvalId = some a ∧
    a.status ≠ .approved
  after : ∃ a, d.state.db.approvals.find? approvalId = some a ∧
    a.status = .approved

/-- At this moment of the run, thread `n` took a step, and the approval
was not open. -/
structure Earlier (moments : List (Nat × World)) (approvalId : Uuid) (n : Nat)
    (v : World) : Prop where
  moment : Met moments n v
  unopened : v.db.approvals.find? approvalId = none

theorem ApproverResolution.picksRequester_of_approverOf {deps : Deps} {db : Db}
    {requester : User} {resolution : ApproverResolution}
    (hstatic : ∀ userId, resolution ≠ .static userId)
    (h : approverOf deps db requester resolution = .ok requester.id) :
    resolution.PicksRequester deps db requester := by
  cases resolution with
  | static userId => exact absurd rfl (hstatic userId)
  | managerOfRequester =>
      cases hmanager : requester.managerUserId with
      | none => simp [approverOf, hmanager] at h
      | some manager =>
          simp only [approverOf, hmanager, Option.elim_some,
            Except.ok.injEq] at h
          rw [PicksRequester, hmanager, h]
  | roleInDepartment role =>
      cases hdepartment : requester.departmentId with
      | none => simp [approverOf, hdepartment] at h
      | some departmentId =>
          refine ⟨departmentId, hdepartment, ?_⟩
          simp only [approverOf, hdepartment, Option.elim_some] at h
          cases hhead : (candidates deps db role departmentId).head?.map
            User.id with
          | none => simp [hhead] at h
          | some userId =>
              simp only [hhead, Option.elim_some, Except.ok.injEq] at h
              rw [h]

theorem Engine.OutcomeAt.not_static {graph : WorkflowGraph} {stepId : String}
    {resolution : ApproverResolution} {timeoutSeconds : Option Int64}
    (h : OutcomeAt graph stepId (.awaitingApproval resolution timeoutSeconds))
    (hgraph : graph.NoStaticApprover) (userId : Uuid) :
    resolution ≠ .static userId := by
  obtain ⟨⟨id, label, kind⟩, hs, hkind⟩ := h
  rintro rfl
  cases kind <;> cases hkind
  exact hgraph _ (List.mem_of_find?_eq_some hs) userId _ _ _ rfl

/-- Whatever requests run, in whatever order their statements are carried out,
nobody approves their own request unless the rule of the step picked them for
the thread that opened the approval, when it looked for an approver. -/
theorem own_request_approved {deps : Deps} {w : World} (hw : w.Initial)
    {moments : List (Nat × World)} {c d : ServerConfig}
    (hc : Timed (system deps) .free ⟨w, []⟩ moments c)
    {userId approvalId : Uuid} (happroves : Approves deps userId approvalId c d)
    {a : PendingApproval} (ha : c.state.db.approvals.find? approvalId = some a)
    {graph : WorkflowGraph}
    (hserves : c.state.Serves a.workflowInstanceId userId graph)
    (hgraph : graph.NoStaticApprover) :
    ∃ n v v' requester resolution timeoutSeconds,
      c.state.OpenedBy n approvalId ∧ Earlier moments approvalId n v ∧
      Earlier moments approvalId n v' ∧
      Engine.OutcomeAt graph a.stepId
        (.awaitingApproval resolution timeoutSeconds) ∧
      v.db.users.find? userId = some requester ∧
      resolution.PicksRequester deps v'.db requester := by
  let visits : Nat → World → Prop := fun n v => Met moments n v ∨ v = c.state
  have hnone : w.AllAssigned deps visits := by
    intro id a ha
    rw [hw.approvals] at ha
    cases ha
  have hrun : Reaches (system deps) (Regime.free.during visits) ⟨w, []⟩ c :=
    hc.during fun _ _ hmem => .inl hmem
  have hat : (assignment deps visits).At c :=
    ((assignment deps visits).at_nil hnone).reaches hrun
      fun _ _ _ hallowed => hallowed.2
  -- Only the approver approves.
  have huser : a.approverUserId = userId := by
    obtain ⟨m, id, decision, comment, rounds, hstep⟩ := happroves.request
    obtain ⟨a₀, ha₀, hbefore⟩ := happroves.before
    obtain ⟨a', ha', hafter⟩ := happroves.after
    cases ha.symm.trans ha₀
    have hconduct := hat.may (.inr rfl) hstep
    rcases hconduct.approves approvalId a a' ha ha' hafter with
      happroved | happrover
    · exact absurd happroved hbefore
    · exact (Option.some.inj happrover).symm
  have hid := Table.key_of_find? ha
  have hbefore : ∀ {n v}, visits n v → v.db.approvals.find? a.id = none →
      Earlier moments approvalId n v := by
    rintro n v (hmem | rfl) hnone
    · exact ⟨hmem, hid ▸ hnone⟩
    · rw [hid, ha] at hnone
      cases hnone
  obtain ⟨n, requesterUserId, graph', resolution, timeoutSeconds,
    hopened, hserves', houtcome, v, v', requester, hv, hv', hnone, hnone',
    hrequester, happrover⟩ :=
      hat.inv approvalId a ha
  obtain ⟨rfl, rfl⟩ := hserves.unique hserves'
  refine ⟨n, v, v', requester, resolution, timeoutSeconds, hid ▸ hopened,
    hbefore hv hnone, hbefore hv' hnone', houtcome, hrequester, ?_⟩
  rw [huser, ← Table.key_of_find? hrequester] at happrover
  exact ApproverResolution.picksRequester_of_approverOf
    (houtcome.not_static hgraph) happrover

namespace OwnRequest

/-- The approver of their department, who is entered as their own manager. -/
def head : User :=
  { Sample.approver with
    departmentId := some (Sample.id 7)
    managerUserId := some Sample.approver.id }

/-- One approval, under this rule. -/
def ruled (rule : ApproverResolution) : WorkflowGraph where
  entryStepId := "approve"
  steps :=
    [Sample.approval "approve" rule "done" "rejected",
      Sample.finish "done" .completed, Sample.finish "rejected" .rejected]

def world (rule : ApproverResolution) : World :=
  { Sample.world (ruled rule) with
    db :=
      { (Sample.world (ruled rule)).db with
        users := ⟨[Sample.requester, head], by decide⟩ } }

/-- The head has made a request, and is about to approve it. -/
def reviewed (rule : ApproverResolution)
    (approvalId : Uuid) : Option ServerConfig :=
  Sample.play .free (world rule)
    (Sample.arrive (.start Sample.item.id head) :: Sample.steps 0 100 14 ++
      Sample.arrive (.decide approvalId head.id .approve none) ::
        Sample.steps 1 200 1)

def approved (c : ServerConfig) : Option ServerConfig :=
  (system Sample.deps).act .free c (.run 1 ⟨1, Sample.id 201, .none⟩)

theorem noStaticApprover {rule : ApproverResolution}
    (hrule : ∀ userId, rule ≠ .static userId) :
    (ruled rule).NoStaticApprover := by
  intro s hs userId onApprove onReject timeoutSeconds hkind
  simp only [ruled, List.mem_cons, List.not_mem_nil, or_false] at hs
  rcases hs with rfl | rfl | rfl
  · exact hrule userId (StepKind.waitForApproval.inj hkind).1
  · cases hkind
  · cases hkind

theorem approves {approvalId : Uuid} {c d : ServerConfig}
    (hd : approved c = some d)
    (hc : (c.threads[1]?).map Prod.fst =
      some (.decide approvalId head.id .approve none, 9))
    (hbefore : (c.state.db.approvals.find? approvalId).map
      PendingApproval.status = some .pending)
    (hafter : (d.state.db.approvals.find? approvalId).map
      PendingApproval.status =
      some .approved) : Approves Sample.deps head.id approvalId c d where
  request := ⟨1, _, _, _, _, System.act_stepOf hd hc⟩
  before := by
    obtain ⟨a, ha, hstatus⟩ := Option.map_eq_some_iff.mp hbefore
    exact ⟨a, ha, by rw [hstatus]; decide⟩
  after := Option.map_eq_some_iff.mp hafter

/-- Under this rule, the head of a department approves what they asked for. -/
def Approvable (rule : ApproverResolution) : Prop :=
  (ruled rule).NoStaticApprover ∧ (world rule).Initial ∧ ∃ c d approvalId a,
    Reaches (system Sample.deps) .free ⟨world rule, []⟩ c ∧
    Approves Sample.deps head.id approvalId c d ∧
    c.state.db.approvals.find? approvalId = some a ∧
    c.state.Serves a.workflowInstanceId head.id (ruled rule)

end OwnRequest

open OwnRequest in
theorem own_request_approved_head :
    let c := (reviewed .managerOfRequester (Sample.id 105)).get (by decide)
    let a := (c.state.db.approvals.find? (Sample.id 105)).get (by decide)
    a.status = .pending ∧ ∃ moments n v v' requester resolution timeoutSeconds,
      Timed (system Sample.deps) .free ⟨world .managerOfRequester, []⟩
        moments c ∧
      c.state.OpenedBy n (Sample.id 105) ∧ Earlier moments (Sample.id 105) n v ∧
      Earlier moments (Sample.id 105) n v' ∧
      Engine.OutcomeAt (ruled .managerOfRequester) a.stepId
        (.awaitingApproval resolution timeoutSeconds) ∧
      v.db.users.find? head.id = some requester ∧
      resolution.PicksRequester Sample.deps v'.db requester := by
  intro c a
  have happroves : Approves Sample.deps head.id (Sample.id 105) c
      ((approved c).get (by decide)) :=
    approves (Option.some_get _).symm rfl rfl rfl
  have hsome :
      (reviewed .managerOfRequester (Sample.id 105)).isSome = true := by decide
  obtain ⟨moments, hrun⟩ :=
    Reaches.timed (System.play_reaches (Option.some_get hsome).symm)
  obtain ⟨n, v, v', requester, resolution, timeoutSeconds, h⟩ :=
    own_request_approved ⟨rfl, rfl, rfl, rfl, rfl⟩ hrun happroves
      (Option.some_get _).symm ⟨_, rfl, rfl, rfl⟩ (noStaticApprover (by simp))
  exact ⟨by decide, moments, n, v, v', requester, resolution,
    timeoutSeconds, hrun, h⟩

open OwnRequest in
theorem own_request_approvable :
    Approvable .managerOfRequester ∧
    Approvable (.roleInDepartment .approver) := by
  constructor
  · refine ⟨noStaticApprover (by simp), ⟨rfl, rfl, rfl, rfl, rfl⟩, ?_⟩
    let c := (reviewed .managerOfRequester (Sample.id 105)).get (by decide)
    exact ⟨c, (approved c).get (by decide), Sample.id 105, _,
      System.play_reaches (Option.some_get _).symm,
      approves (Option.some_get _).symm rfl rfl rfl, rfl, _, rfl, rfl, rfl⟩
  · refine ⟨noStaticApprover (by simp), ⟨rfl, rfl, rfl, rfl, rfl⟩, ?_⟩
    let c :=
      (reviewed (.roleInDepartment .approver) (Sample.id 106)).get (by decide)
    exact ⟨c, (approved c).get (by decide), Sample.id 106, _,
      System.play_reaches (Option.some_get _).symm,
      approves (Option.some_get _).symm rfl rfl rfl, rfl, _, rfl, rfl, rfl⟩

end Servcat
