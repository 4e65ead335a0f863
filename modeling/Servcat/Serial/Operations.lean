/-
What one operation run alone can do: an inversion of the request handlers that
says everything later proofs need to know about them.
-/
import Servcat.Serial.Effects

namespace Servcat

open Atomic Keyed

/-- A row was inserted into `workflow_instances`. -/
def Core.created (c : Core) (instances : Table WorkflowInstance.id) : Core :=
  { c with db := { c.db with instances := instances } }

/-- The row `instances.create` inserts. -/
def newInstance (id workflowDefinitionId catalogItemId requesterUserId : Uuid)
    (entryStepId : String) : WorkflowInstance where
  id := id
  workflowDefinitionId := workflowDefinitionId
  catalogItemId := catalogItemId
  requesterUserId := requesterUserId
  status := .inProgress
  currentStepId := entryStepId
  answersJson := .object []
  completedAt := none

/-- The guarded update of `approvals.decide` was carried out. -/
def Core.flipped (c : Core) (approvalId : Uuid) (status : ApprovalStatus)
    (comment : Option String) : Core :=
  { c with db := c.db.updateApproval approvalId status comment c.now }

/-- The poller logged that it could not resume the instance of an approval. -/
def Core.logged (c : Core) (approvalId : Uuid) (err : ApiError) : Core :=
  { c with expiryFailures := (approvalId, err) :: c.expiryFailures }

/-- The comment the poller leaves on an expired approval. -/
def expiryComment : String :=
  "auto-expired: approval timeout reached"

/-- The effect of `resumeAfterApproval`. -/
inductive Resumed (deps : Deps) (instanceId : Uuid) (stepId : String)
    (decision : ApprovalDecision) (c : Core) :
    Exit ApiError WorkflowInstance → Core → Prop
  | unknown (hrow : c.db.instances.find? instanceId = none) :
      Resumed deps instanceId stepId decision c (.error .internal) c
  | undefined {row : WorkflowInstance}
      (hrow : c.db.instances.find? instanceId = some row)
      (hdefinition : c.db.definitions.find? row.workflowDefinitionId = none) :
      Resumed deps instanceId stepId decision c (.error .internal) c
  | driven {row : WorkflowInstance} {definition : WorkflowDefinition}
      {c' : Core} {x : Exit ApiError WorkflowInstance}
      (hrow : c.db.instances.find? instanceId = some row)
      (hdefinition : c.db.definitions.find? row.workflowDefinitionId =
        some definition)
      (hdriven : Driven deps definition instanceId row.requesterUserId
        (Orchestrator.answersMap row.answersJson)
        (Engine.resumeAfterApproval definition.graph stepId
          (Orchestrator.answersMap row.answersJson) decision) c x c') :
      Resumed deps instanceId stepId decision c x c'

/-- The checks a request makes before it changes anything all pass. -/
def Operation.Proceeds (c : Core) : Operation → Prop
  | .start catalogItemId requester => ∃ item definition result,
      c.db.items.find? catalogItemId = some item ∧ item.isActive = true ∧
      c.db.definitions.find? item.workflowDefinitionId = some definition ∧
      Engine.start definition.graph = .ok result ∧
      (c.db.users.find? requester.id).isSome
  | .submit instanceId requester _ _ => ∃ row definition,
      c.db.instances.find? instanceId = some row ∧
        row.requesterUserId = requester.id ∧
      row.status = .inProgress ∧
      c.db.definitions.find? row.workflowDefinitionId = some definition
  | .decide approvalId userId _ _ => ∃ approval,
      c.db.approvals.find? approvalId = some approval ∧
      approval.approverUserId = userId ∧ approval.status = .pending
  | .expire approval => c.db.isPending approval.id = true

/-- The effect of an operation. -/
inductive Performed (deps : Deps) : Operation → Core →
    Exit ApiError (Option WorkflowInstance) → Core → Prop
  | declined {op : Operation} {c : Core} {e : ApiError}
      (hdeclined : ¬ op.Proceeds c) : Performed deps op c (.error e) c
  | skipped {approval : PendingApproval} {c : Core}
      (hdeclined : ¬ (Operation.expire approval).Proceeds c) :
      Performed deps (.expire approval) c (.ok none) c
  | started {catalogItemId : Uuid} {requester : User}
      {item : ServiceCatalogItem} {definition : WorkflowDefinition}
      {stepId : String} {outcome : Outcome} {instanceId : Uuid}
      {instances : Table WorkflowInstance.id} {c c' : Core}
      {x : Exit ApiError WorkflowInstance}
      (hitem : c.db.items.find? catalogItemId = some item)
      (hdefinition : c.db.definitions.find? item.workflowDefinitionId =
        some definition)
      (hstart : Engine.start definition.graph = .ok (stepId, outcome))
      (hinsert : c.db.instances.insert?
        (newInstance instanceId definition.id item.id requester.id stepId) =
          some instances)
      (hdriven : Driven deps definition instanceId requester.id []
        (.ok (stepId, outcome)) (c.created instances) x c') :
      Performed deps (.start catalogItemId requester) c (x.map some) c'
  | submitted {instanceId : Uuid} {requester : User} {fieldKey : String}
      {value : JsonValue} {row : WorkflowInstance}
      {definition : WorkflowDefinition} {answers : Answers}
      {result : Except EngineError (String × Outcome)} {c c' : Core}
      {x : Exit ApiError WorkflowInstance}
      (hrow : c.db.instances.find? instanceId = some row)
      (hrequester : row.requesterUserId = requester.id)
      (hstatus : row.status = .inProgress)
      (hdefinition : c.db.definitions.find? row.workflowDefinitionId =
        some definition)
      (hengine : Engine.submitAnswer definition.graph row.currentStepId
        (Orchestrator.answersMap row.answersJson) fieldKey value =
          (answers, result))
      (hdriven : Driven deps definition instanceId requester.id answers
        result c x c') :
      Performed deps (.submit instanceId requester fieldKey value) c
        (x.map some) c'
  | decided {approvalId userId : Uuid} {decision : ApprovalDecision}
      {comment : Option String} {approval : PendingApproval} {c c' : Core}
      {x : Exit ApiError WorkflowInstance}
      (happroval : c.db.approvals.find? approvalId = some approval)
      (huser : approval.approverUserId = userId)
      (hpending : approval.status = .pending)
      (hresumed : Resumed deps approval.workflowInstanceId
        approval.stepId decision
        (c.flipped approvalId (Approvals.statusOf decision) comment) x c') :
      Performed deps (.decide approvalId userId decision comment) c
        (x.map some) c'
  | expired {approval : PendingApproval} {c c' : Core} {row : WorkflowInstance}
      (hpending : c.db.isPending approval.id = true)
      (hresumed : Resumed deps approval.workflowInstanceId
        approval.stepId .reject
        (c.flipped approval.id .expired (some expiryComment)) (.ok row) c') :
      Performed deps (.expire approval) c (.ok none) c'
  | expiryFailed {approval : PendingApproval} {c c' : Core} {e : ApiError}
      (hpending : c.db.isPending approval.id = true)
      (hresumed : Resumed deps approval.workflowInstanceId
        approval.stepId .reject
        (c.flipped approval.id .expired (some expiryComment)) (.error e) c') :
      Performed deps (.expire approval) c (.ok none) (c'.logged approval.id e)
  | expiryPanicked {approval : PendingApproval} {c c' : Core}
      (hpending : c.db.isPending approval.id = true)
      (hresumed : Resumed deps approval.workflowInstanceId
        approval.stepId .reject
        (c.flipped approval.id .expired (some expiryComment)) .panicked c') :
      Performed deps (.expire approval) c .panicked c'

theorem Repositories.Instances.load_wp {id : Uuid} {fieldKey : Option String}
    {post : Exit DbError (Option WorkflowInstance) → World → Prop} {w : World}
    (h : ∀ w', w'.core = w.core → post (.ok (w.db.instances.find? id)) w') :
    wp Input.Admitted (load id fieldKey) post w := by
  refine (wp_atomic _ _ _).mpr fun i hi => ?_
  rw [hi.1]
  cases hrow : w.db.instances.find? id with
  | none =>
      rw [hrow] at h
      exact h w rfl
  | some row =>
      rw [hrow] at h
      exact h _ (World.core_record rfl)

/-- Reading the row a request works from, in front of the rest of it. -/
theorem wp_load {α : Type} {id : Uuid} {fieldKey : Option String}
    {k : Option WorkflowInstance → Async ApiError α}
    {post : Exit ApiError α → World → Prop} {w : World}
    (h : ∀ w', w'.core = w.core →
      wp Input.Admitted (k (w.db.instances.find? id)) post w') :
    wp Input.Admitted
      (Orchestrator.db (Repositories.Instances.load id fieldKey) >>= k)
        post w := by
  rw [wp_bind, Orchestrator.db, wp_mapError]
  exact Repositories.Instances.load_wp h

theorem Orchestrator.engine_wp {α : Type}
    {result : Except EngineError (String × Outcome)}
    {k : String × Outcome → Async ApiError α}
    {post : Exit ApiError α → World → Prop} {w : World}
    (herror : ∀ e, result = .error e → post (.error (.ofEngine e)) w)
    (hok : ∀ stepId outcome, result = .ok (stepId, outcome) →
      wp Input.Admitted (k (stepId, outcome)) post w) :
    wp Input.Admitted (engine result >>= k) post w := by
  rw [wp_bind]
  cases result with
  | error e => exact herror e rfl
  | ok r => exact hok r.1 r.2 rfl

/-- The part the three entry points have in common. -/
theorem Orchestrator.drive_wp {deps : Deps} {definition : WorkflowDefinition}
    {instanceId requesterUserId : Uuid} {answers : Answers} {rounds : Nat}
    {result : Except EngineError (String × Outcome)} {w : World}
    (hrow : (w.db.instances.find? instanceId).isSome) :
    wp Input.Admitted
      (engine result >>= fun r =>
        applyOutcome deps definition instanceId requesterUserId answers
          rounds r.1 r.2)
      (fun x w' => Driven deps definition instanceId requesterUserId
        answers result w.core x w'.core) w := by
  refine engine_wp (fun e he => ?_) fun stepId outcome hok => ?_
  · rw [he]
    exact .stuck
  · rw [hok]
    exact applyOutcome_wp hrow

theorem Orchestrator.resumeAfterApproval_wp {deps : Deps} {rounds : Nat}
    {instanceId : Uuid} {stepId : String} {decision : ApprovalDecision}
    {w : World} :
    wp Input.Admitted
      (resumeAfterApproval deps rounds instanceId stepId decision)
      (fun x w' => Resumed deps instanceId stepId decision w.core x
        w'.core) w := by
  unfold resumeAfterApproval
  refine wp_load fun w' hw' => ?_
  have hdb : w'.db = w.db := congrArg Core.db hw'
  refine wp_okOr (fun hnone => ?_) fun row hrow => ?_
  · rw [hw']
    exact .unknown hnone
  refine wp_read (wp_okOr (fun hdefinition => ?_)
    fun definition hdefinition => ?_)
  · rw [hdb] at hdefinition
    rw [hw']
    exact .undefined hrow hdefinition
  · rw [hdb] at hdefinition
    obtain rfl := Table.key_of_find? hrow
    refine wp_mono (fun x w'' hdriven => ?_) (drive_wp (by
      rw [hdb, hrow]
      rfl))
    rw [hw'] at hdriven
    exact .driven hrow hdefinition hdriven

theorem Repositories.Approvals.decide_wp {id : Uuid} {status : ApprovalStatus}
    {comment : Option String} {post : Exit DbError Bool → World → Prop}
    {w : World}
    (h : ∀ w', w'.core = w.core.flipped id status comment →
      post (.ok (w.db.isPending id)) w') :
    wp Input.Admitted (decide id status comment) post w := by
  refine execute_ok_wp fun i _ =>
    ⟨_, _, _, rfl, h _ (World.core_commit fun event he => ?_)⟩
  split at he
  · rw [List.mem_singleton] at he
    subst he
    rfl
  · cases he

theorem Core.flipped_of_not_pending {c : Core} {id : Uuid}
    {status : ApprovalStatus} {comment : Option String}
    (h : ¬ c.db.isPending id = true) : c.flipped id status comment = c := by
  rw [flipped, Db.updateApproval_of_not_pending h]

theorem Approvals.decide_wp {approvalId userId : Uuid}
    {decision : ApprovalDecision} {comment : Option String} {w : World}
    {post : Exit ApiError PendingApproval → World → Prop}
    (hdeclined : ∀ e,
      ¬ (Operation.decide approvalId userId decision comment).Proceeds
      w.core → post (.error e) w)
    (hdecided : ∀ approval approval' w',
      w.db.approvals.find? approvalId = some approval →
      approval.approverUserId = userId → approval.status = .pending →
      w'.core = w.core.flipped approvalId (statusOf decision) comment →
      approval' = Db.decided (statusOf decision) comment w.now approval →
      post (.ok approval') w') :
    wp Input.Admitted (Orchestrator.approvals <|
      decide approvalId userId decision comment) post w := by
  rw [Orchestrator.approvals, wp_mapError, decide]
  refine wp_read (wp_okOr (fun hnone => ?_) fun approval happroval => ?_)
  · refine hdeclined _ ?_
    rintro ⟨approval, happroval, -⟩
    rw [World.core_db, hnone] at happroval
    cases happroval
  split
  · rename_i hne
    refine hdeclined _ ?_
    rintro ⟨approval', happroval', heq, -⟩
    rw [World.core_db, happroval] at happroval'
    cases happroval'
    exact hne heq
  split
  · rename_i hne
    refine hdeclined _ ?_
    rintro ⟨approval', happroval', -, heq⟩
    rw [World.core_db, happroval] at happroval'
    cases happroval'
    exact hne heq
  · rename_i huser hstatus
    push Not at huser hstatus
    have hpending : w.db.isPending approvalId = true :=
      Db.isPending_iff.mpr ⟨approval, happroval, hstatus⟩
    refine (wp_bind _ _ _ _).mpr ?_
    rw [db, wp_mapError]
    refine Repositories.Approvals.decide_wp fun w' hw' => ?_
    simp only [hpending, Exit.mapError, Program.onOk, ↓reduceIte]
    refine wp_read ?_
    have hfound : w'.db.approvals.find? approvalId =
        some (Db.decided (statusOf decision) comment w.now approval) := by
      rw [← World.core_db, hw', Core.flipped, Db.find?_updateApproval,
        if_pos rfl]
      simp [happroval, World.core]
    rw [hfound]
    exact hdecided approval _ w' happroval huser hstatus hw' rfl

/-- The handler of an expired approval never fails; it logs a failure. -/
theorem Server.handleExpired_wp {deps : Deps} {rounds : Nat}
    {approval : PendingApproval} {w : World}
    {post : Exit DbError Unit → World → Prop}
    (hok : ∀ row w',
      Resumed deps approval.workflowInstanceId approval.stepId .reject
      w.core (.ok row) w'.core → post (.ok ()) w')
    (herror : ∀ e c' w',
      Resumed deps approval.workflowInstanceId approval.stepId .reject
      w.core (.error e) c' → w'.core = c'.logged approval.id e →
        post (.ok ()) w')
    (hpanicked : ∀ w',
      Resumed deps approval.workflowInstanceId approval.stepId .reject
      w.core .panicked w'.core → post .panicked w') :
    wp Input.Admitted (handleExpired deps rounds approval) post w := by
  refine wp_note fun thread => ?_
  refine (wp_bind _ _ _ _).mpr ((wp_attempt _ _ _).mpr ?_)
  refine wp_mono (fun x w' hresumed => ?_) Orchestrator.resumeAfterApproval_wp
  rw [World.core_record rfl] at hresumed
  cases x with
  | ok row => exact hok row w' hresumed
  | error e => exact note_wp fun thread => herror e w'.core _ hresumed rfl
  | panicked => exact hpanicked w' hresumed

theorem Repositories.Instances.create_wp
    {workflowDefinitionId catalogItemId requesterUserId : Uuid}
    {entryStepId : String} {post : Exit DbError WorkflowInstance → World → Prop}
    {w : World}
    (hdefinition : (w.db.definitions.find? workflowDefinitionId).isSome)
    (hitem : (w.db.items.find? catalogItemId).isSome)
    (hunknown : (w.db.users.find? requesterUserId).isSome = false →
      post (.error .sqlx) w)
    (h : ∀ id instances w', (w.db.users.find? requesterUserId).isSome →
      w.db.instances.insert? (newInstance id workflowDefinitionId catalogItemId
        requesterUserId entryStepId) = some instances →
      w'.core = w.core.created instances →
      post
        (.ok (newInstance id workflowDefinitionId catalogItemId requesterUserId
        entryStepId)) w') :
    wp Input.Admitted
      (create workflowDefinitionId catalogItemId requesterUserId entryStepId)
        post w := by
  rw [create, wp_bind]
  by_cases huser : (w.db.users.find? requesterUserId).isSome
  · refine execute_ok_wp fun i hi => ?_
    obtain ⟨instances, hinsert⟩ := Table.exists_insert?
      (newInstance i.uuid workflowDefinitionId catalogItemId requesterUserId
        entryStepId) hi.2.1
    have hdb : w.db.insertInstance i.uuid workflowDefinitionId catalogItemId
        requesterUserId entryStepId =
          some { w.db with instances := instances } := by
      rw [Db.insertInstance, if_pos (by simp [hdefinition, hitem, huser])]
      exact congrArg
        (Option.map fun instances => { w.db with instances := instances })
        hinsert
    refine ⟨i.uuid, { w.db with instances := instances }, [], by simp [hdb], ?_⟩
    refine (wp_bind _ _ _ _).mpr (load_wp fun w' hw' => ?_)
    have hfound : instances.find? i.uuid = some _ :=
      Table.find?_inserted hinsert
    simpa [World.commit, hfound, Program.onOk, Program.okOr,
      Exit.ofOption] using
      h i.uuid instances w' huser hinsert
        (hw'.trans (World.core_commit (by simp)))
  · have hdb : ∀ id, w.db.insertInstance id workflowDefinitionId catalogItemId
        requesterUserId entryStepId = none := fun id => by
      simp [Db.insertInstance, huser]
    refine execute_wp (fun i _ _ => hunknown (by simpa using huser))
      (fun i a db events _ hsome => ?_)
    simp [hdb] at hsome

/-- A request answers with the row its entry point returns. -/
theorem wp_some {p : Async ApiError WorkflowInstance} {w : World}
    {post : Exit ApiError (Option WorkflowInstance) → World → Prop}
    (h : wp Input.Admitted p (fun x w' => post (x.map some) w') w) :
    wp Input.Admitted (do let row ← p; return some row) post w := by
  refine (wp_bind _ _ _ _).mpr (wp_mono (fun x w' hx => ?_) h)
  cases x <;> exact hx

theorem Request.start_wp {deps : Deps} {rounds : Nat} {catalogItemId : Uuid}
    {requester : User} {w : World} :
    wp Input.Admitted
      (Request.serve deps (.start catalogItemId requester, rounds))
      (fun x w' => Performed deps (.start catalogItemId requester) w.core
        x w'.core)
      w := by
  refine wp_some ?_
  unfold Orchestrator.startInstance
  refine wp_read (wp_okOr (fun hnone => ?_) fun item hitem => ?_)
  · exact .declined (by simp [Operation.Proceeds, hnone])
  split
  · rename_i hinactive
    exact .declined (by simp [Operation.Proceeds, hitem, hinactive])
  refine wp_read (wp_okOr (fun hnone => ?_) fun definition hdefinition => ?_)
  · exact .declined (by simp [Operation.Proceeds, hitem, hnone])
  refine Orchestrator.engine_wp (fun e he => ?_) fun stepId outcome hstart => ?_
  · exact .declined (by simp [Operation.Proceeds, hitem, hdefinition, he])
  refine (wp_bind _ _ _ _).mpr ?_
  rw [Orchestrator.db, wp_mapError]
  refine Repositories.Instances.create_wp ?_ ?_ (fun hunknown => ?_) ?_
  · rw [Table.key_of_find? hdefinition, hdefinition]
    rfl
  · rw [Table.key_of_find? hitem, hitem]
    rfl
  · exact .declined (by simp [Operation.Proceeds, hunknown])
  intro id instances w' _ hinsert hw'
  refine wp_mono (fun x w'' hdriven => ?_) (Orchestrator.applyOutcome_wp (by
    change (w'.core.db.instances.find? id).isSome
    rw [hw']
    exact Option.isSome_iff_exists.mpr ⟨_, Table.find?_inserted hinsert⟩))
  rw [hw'] at hdriven
  exact .started hitem hdefinition hstart hinsert hdriven

theorem Request.submit_wp {deps : Deps} {rounds : Nat} {instanceId : Uuid}
    {requester : User} {fieldKey : String} {value : JsonValue} {w : World} :
    wp Input.Admitted
      (Request.serve deps (.submit instanceId requester fieldKey value, rounds))
      (fun x w' => Performed deps (.submit instanceId requester fieldKey value)
        w.core x w'.core) w := by
  refine wp_some ?_
  unfold Orchestrator.submitAnswer
  refine wp_load fun w' hw' => ?_
  have hdb : w'.db = w.db := congrArg Core.db hw'
  refine wp_okOr (fun hnone => ?_) fun row hrow => ?_
  · rw [hw']
    exact .declined (by simp [Operation.Proceeds, hnone])
  split
  · rename_i hne
    change Performed _ _ _ _ w'.core
    rw [hw']
    exact .declined (by simp [Operation.Proceeds, hrow, hne])
  split
  · rename_i hne
    change Performed _ _ _ _ w'.core
    rw [hw']
    exact .declined (by simp [Operation.Proceeds, hrow, hne])
  rename_i hrequester hstatus
  push Not at hrequester hstatus
  refine wp_read (wp_okOr (fun hnone => ?_) fun definition hdefinition => ?_)
  · rw [hdb] at hnone
    rw [hw']
    exact .declined (by simp [Operation.Proceeds, hrow, hnone])
  rw [hdb] at hdefinition
  obtain rfl := Table.key_of_find? hrow
  refine wp_mono (fun x w'' hdriven => ?_) (Orchestrator.drive_wp (by
    rw [hdb, hrow]
    rfl))
  rw [hw'] at hdriven
  exact .submitted hrow hrequester hstatus hdefinition rfl hdriven

theorem Request.decide_wp {deps : Deps} {rounds : Nat}
    {approvalId userId : Uuid} {decision : ApprovalDecision}
    {comment : Option String} {w : World} :
    wp Input.Admitted
      (Request.serve deps (.decide approvalId userId decision comment, rounds))
      (fun x w' => Performed deps (.decide approvalId userId decision comment)
        w.core x w'.core) w := by
  refine wp_some ((wp_bind _ _ _ _).mpr (Approvals.decide_wp ?_ ?_))
  · exact fun e hdeclined => .declined hdeclined
  · intro approval approval' w' happroval huser hpending hw' happroval'
    refine wp_note fun thread => ?_
    refine wp_mono (fun x w'' hresumed => ?_)
      Orchestrator.resumeAfterApproval_wp
    rw [World.core_record rfl, hw'] at hresumed
    subst happroval'
    rw [Db.decided_workflowInstanceId, Db.decided_stepId] at hresumed
    exact .decided happroval huser hpending hresumed

theorem Operation.expire_wp {deps : Deps} {rounds : Nat}
    {approval : PendingApproval} {w : World} :
    wp Input.Admitted (Operation.code deps rounds (.expire approval))
      (fun x w' => Performed deps (.expire approval) w.core x w'.core) w := by
  refine (wp_bind _ _ _ _).mpr ?_
  rw [Orchestrator.db, wp_mapError, Approvals.expireEach]
  refine (wp_bind _ _ _ _).mpr
    (Repositories.Approvals.decide_wp fun w' hw' => ?_)
  by_cases hpending : w.db.isPending approval.id = true
  · simp only [Program.onOk, hpending, ↓reduceIte]
    refine (wp_bind _ _ _ _).mpr
      (Server.handleExpired_wp (fun row w'' hresumed => ?_)
      (fun e c' w'' hresumed hw'' => ?_) fun w'' hresumed => ?_)
    · rw [hw'] at hresumed
      exact .expired hpending hresumed
    · rw [hw'] at hresumed
      change Performed deps (.expire approval) w.core (.ok none) w''.core
      rw [hw'']
      exact .expiryFailed hpending hresumed
    · rw [hw'] at hresumed
      exact .expiryPanicked hpending hresumed
  · simp only [Program.onOk, hpending]
    change Performed deps (.expire approval) w.core (.ok none) w'.core
    rw [hw', Core.flipped_of_not_pending hpending]
    exact .skipped hpending

/-- The inversion lemma for operations. -/
theorem Operation.Completes.performed {deps : Deps} {op : Operation}
    {w w' : World} {x : Exit ApiError (Option WorkflowInstance)}
    (h : op.Completes deps w x w') : Performed deps op w.core x w'.core := by
  obtain ⟨-, rounds, hrun⟩ := h
  cases op with
  | start catalogItemId requester => exact hrun.ensures Request.start_wp
  | submit instanceId requester fieldKey value =>
      exact hrun.ensures Request.submit_wp
  | decide approvalId userId decision comment =>
      exact hrun.ensures Request.decide_wp
  | expire approval => exact hrun.ensures Operation.expire_wp

end Servcat
