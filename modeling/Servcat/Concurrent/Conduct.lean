/-
What requests do to approvals, whatever other requests do in between: they open
approvals whose approver the rule of the step picked for the requester, and
approve only approvals of the user on whose behalf they decide.
-/
import Servcat.Atomic.Rely
import Servcat.Concurrent.Growth

namespace Servcat

open Atomic Keyed

/-- What is never deleted stays what it is about, an instance keeps its
requester, and nothing disappears from the log. -/
structure World.Retains (w w' : World) : Prop extends w.Grows w' where
  requesters : ∀ id row, w.db.instances.find? id = some row →
    ∃ row', w'.db.instances.find? id = some row' ∧
      row'.requesterUserId = row.requesterUserId
  log : w.log ⊆ w'.log

/-- The instance was requested by this user, and follows this graph. -/
def World.Serves (w : World) (instanceId requesterUserId : Uuid)
    (graph : WorkflowGraph) : Prop :=
  ∃ row, w.db.instances.find? instanceId = some row ∧
    row.requesterUserId = requesterUserId ∧
    w.db.graphOf row.workflowDefinitionId = some graph

theorem World.Serves.unique {w : World} {instanceId userId userId' : Uuid}
    {graph graph' : WorkflowGraph} (h : w.Serves instanceId userId graph)
    (h' : w.Serves instanceId userId' graph') :
    userId = userId' ∧ graph = graph' := by
  obtain ⟨row, hrow, hrequester, hgraph⟩ := h
  obtain ⟨row', hrow', hrequester', hgraph'⟩ := h'
  cases hrow.symm.trans hrow'
  exact ⟨hrequester.symm.trans hrequester',
    Option.some.inj (hgraph.symm.trans hgraph')⟩

namespace World.Retains

variable {w w' w'' : World}

theorem refl (w : World) : w.Retains w where
  toGrows := .refl w
  requesters _ row hrow := ⟨row, hrow, rfl⟩
  log := List.Subset.refl _

theorem trans (h : w.Retains w') (h' : w'.Retains w'') : w.Retains w'' where
  toGrows := h.toGrows.trans h'.toGrows
  requesters id row hrow := by
    obtain ⟨row', hrow', hsame⟩ := h.requesters id row hrow
    obtain ⟨row'', hrow'', hsame'⟩ := h'.requesters id row' hrow'
    exact ⟨row'', hrow'', hsame'.trans hsame⟩
  log := List.Subset.trans h.log h'.log

theorem of_eq (hgrows : w.Grows w')
    (hinstances : w'.db.instances = w.db.instances)
    (hlog : w.log ⊆ w'.log) : w.Retains w' where
  toGrows := hgrows
  requesters id row hrow := ⟨row, by rw [hinstances]; exact hrow, rfl⟩
  log := hlog

theorem serves (h : w.Retains w') {instanceId requesterUserId : Uuid}
    {graph : WorkflowGraph}
    (hserves : w.Serves instanceId requesterUserId graph) :
    w'.Serves instanceId requesterUserId graph := by
  obtain ⟨row, hrow, hrequester, hgraph⟩ := hserves
  obtain ⟨row', hrow', hdefinition⟩ := h.instances _ row hrow
  obtain ⟨row'', hrow'', hsame⟩ := h.requesters _ row hrow
  cases hrow'.symm.trans hrow''
  refine ⟨row', hrow', hsame.trans hrequester, ?_⟩
  rw [hdefinition]
  exact h.graphs _ _ hgraph

theorem unopened (h : w.Retains w') {approvalId : Uuid}
    (hnone : w'.db.approvals.find? approvalId = none) :
    w.db.approvals.find? approvalId = none := by
  cases ha : w.db.approvals.find? approvalId with
  | none => rfl
  | some a =>
      obtain ⟨a', ha', -⟩ := h.approvals approvalId a ha
      cases hnone.symm.trans ha'

/-- What is driven is an instance as it is stored. -/
theorem serves_of_find? (h : w.Retains w') {id : Uuid} {row : WorkflowInstance}
    {definition : WorkflowDefinition}
    (hrow : w.db.instances.find? id = some row)
    (hdefinition : w'.db.definitions.find? row.workflowDefinitionId =
      some definition) :
    w'.Serves row.id row.requesterUserId definition.graph := by
  obtain ⟨row', hrow', hsame⟩ := h.instances _ row hrow
  obtain ⟨row'', hrow'', hrequester⟩ := h.requesters _ row hrow
  cases hrow'.symm.trans hrow''
  refine ⟨row', ?_, hrequester, ?_⟩
  · rw [Table.key_of_find? hrow]
    exact hrow'
  · rw [hsame]
    exact Db.graphOf_of_find? hdefinition

end World.Retains

/-- Before the approval was opened, the requester was found, and the rule
picked this user for them.  `visits` are the states in which whoever opened it
took a step. -/
def Picks (deps : Deps) (visits : World → Prop)
    (approvalId requesterUserId : Uuid) (resolution : ApproverResolution)
    (userId : Uuid) : Prop :=
  ∃ v v' requester, visits v ∧ visits v' ∧
    v.db.approvals.find? approvalId = none ∧
    v'.db.approvals.find? approvalId = none ∧
    v.db.users.find? requesterUserId = some requester ∧
    approverOf deps v'.db requester resolution = .ok userId

/-- Thread `n` opened the approval. -/
def World.OpenedBy (w : World) (n : Nat) (approvalId : Uuid) : Prop :=
  ∃ opened, (n, .approvalCreated opened) ∈ w.log ∧ opened.id = approvalId

/-- The approver is whom the rule of the step picked, for the thread that opened
the approval. -/
def World.Assigned (deps : Deps) (visits : Nat → World → Prop) (w : World)
    (a : PendingApproval) : Prop :=
  ∃ n requesterUserId graph resolution timeoutSeconds,
    w.OpenedBy n a.id ∧ w.Serves a.workflowInstanceId requesterUserId graph ∧
    Engine.OutcomeAt graph a.stepId
      (.awaitingApproval resolution timeoutSeconds) ∧
    Picks deps (visits n) a.id requesterUserId resolution a.approverUserId

/-- Every approval is assigned as its step says. -/
def World.AllAssigned (deps : Deps) (visits : Nat → World → Prop)
    (w : World) : Prop :=
  ∀ id a, w.db.approvals.find? id = some a → w.Assigned deps visits a

/-- What a step may do on behalf of `user`, if it decides on behalf of anyone:
open approvals that are assigned, and approve those of this user. -/
structure Conduct (deps : Deps) (visits : Nat → World → Prop)
    (user : Option Uuid) (w w' : World) : Prop where
  retains : w.Retains w'
  opens : ∀ id a', w'.db.approvals.find? id = some a' →
    w.db.approvals.find? id = none → w'.Assigned deps visits a'
  approves : ∀ id a a', w.db.approvals.find? id = some a →
    w'.db.approvals.find? id = some a' → a'.status = .approved →
      a.status = .approved ∨ user = some a.approverUserId

section Steps

variable {deps : Deps} {visits : Nat → World → Prop} {user : Option Uuid}
  {w w' : World}

theorem World.Retains.assigned (h : w.Retains w') {a a' : PendingApproval}
    (hid : a'.id = a.id) (hbecomes : a.Becomes a')
    (ha : w.Assigned deps visits a) : w'.Assigned deps visits a' := by
  obtain ⟨n, requesterUserId, graph, resolution, timeoutSeconds, hopened,
    hserves, hat, hpicks⟩ := ha
  refine ⟨n, requesterUserId, graph, resolution, timeoutSeconds, ?_, ?_, ?_, ?_⟩
  · obtain ⟨opened, hcreated, hsame⟩ := hopened
    exact ⟨opened, h.log hcreated, hsame.trans hid.symm⟩
  · rw [hbecomes.workflowInstanceId]
    exact h.serves hserves
  · rw [hbecomes.stepId]
    exact hat
  · rw [hid, hbecomes.approverUserId]
    exact hpicks

theorem World.AllAssigned.extend (hw : w.AllAssigned deps visits)
    (h : w.Retains w') (hopens : ∀ id a', w'.db.approvals.find? id = some a' →
      w.db.approvals.find? id = none → w'.Assigned deps visits a') :
    w'.AllAssigned deps visits := by
  intro id a' ha'
  cases ha : w.db.approvals.find? id with
  | none => exact hopens id a' ha' ha
  | some a =>
      obtain ⟨b, hb, hbecomes⟩ := h.approvals id a ha
      cases ha'.symm.trans hb
      refine h.assigned ?_ hbecomes (hw id a ha)
      exact (Table.key_of_find? ha').trans (Table.key_of_find? ha).symm

/-- A step that leaves the approvals alone. -/
theorem Conduct.of_eq (hretains : w.Retains w')
    (happrovals : w'.db.approvals = w.db.approvals) :
    Conduct deps visits user w w' where
  retains := hretains
  opens id a' ha' hnone := by
    rw [happrovals] at ha'
    cases hnone.symm.trans ha'
  approves id a a' ha ha' happroved := by
    rw [happrovals] at ha'
    cases ha.symm.trans ha'
    exact .inl happroved

/-- A step that writes to other tables, or to the log. -/
theorem Conduct.aside (hdefinitions : w'.db.definitions = w.db.definitions)
    (hinstances : w'.db.instances = w.db.instances)
    (happrovals : w'.db.approvals = w.db.approvals) (hlog : w.log ⊆ w'.log) :
    Conduct deps visits user w w' := by
  refine .of_eq
    (.of_eq (.of_eq (fun id graph hgraph => ?_) hinstances happrovals)
    hinstances hlog) happrovals
  rw [Db.graphOf, hdefinitions]
  exact hgraph

theorem Conduct.refl (w : World) : Conduct deps visits user w w :=
  .of_eq (.refl w) rfl

theorem Conduct.of_readOnly (h : w = w') : Conduct deps visits user w w' :=
  h ▸ .refl w

theorem Conduct.of_logsOnly (h : w.LogsOnly w') :
    Conduct deps visits user w w' := by
  obtain ⟨newer, rfl⟩ := h
  exact .aside rfl rfl rfl (List.subset_append_right newer w.log)

theorem Conduct.of_filingOnly (h : w.FilingOnly w') :
    Conduct deps visits user w w' := by
  obtain ⟨tickets, newer, rfl⟩ := h
  exact .aside rfl rfl rfl (List.Subset.refl _)

/-- Opening an approval that is assigned as its step says. -/
theorem Conduct.opened {n : Nat} {approval : PendingApproval}
    {approvals : Table PendingApproval.id}
    (hinsert : w.db.approvals.insert? approval = some approvals)
    {requesterUserId : Uuid} {graph : WorkflowGraph}
    {resolution : ApproverResolution}
    {timeoutSeconds : Option Int64}
    (hserves : w.Serves approval.workflowInstanceId requesterUserId graph)
    (hat : Engine.OutcomeAt graph approval.stepId
      (.awaitingApproval resolution timeoutSeconds))
    (hpicks : Picks deps (visits n) approval.id requesterUserId resolution
      approval.approverUserId) :
    Conduct deps visits user w
      (w.commit n (w.db.withApprovals approvals)
        [.approvalCreated approval]) := by
  have hretains : w.Retains
      (w.commit n (w.db.withApprovals approvals) [.approvalCreated approval]) :=
    .of_eq { World.Grows.refl w with
      approvals := fun id a ha =>
        ⟨a, Table.find?_insert_of_some hinsert ha, .refl a⟩ } rfl
          (by simp [World.commit])
  refine ⟨hretains, fun id a' ha' hnone => ?_,
    fun id a a' ha ha' happroved => .inl ?_⟩
  · replace ha' : approvals.find? id = some a' := ha'
    rw [Table.find?_insert hinsert] at ha'
    split at ha'
    · obtain rfl := Option.some.inj ha'
      exact ⟨n, requesterUserId, graph, resolution, timeoutSeconds,
        ⟨approval, List.mem_cons_self, rfl⟩, hretains.serves hserves,
          hat, hpicks⟩
    · cases hnone.symm.trans ha'
  · have hkept := Table.find?_insert_of_some hinsert ha
    cases hkept.symm.trans ha'
    exact happroved

/-- Settling an approval, which is that of the user if it is approved. -/
theorem Conduct.settle {n : Nat} {id : Uuid} {status : ApprovalStatus}
    {comment : Option String} {events : List Event}
    (huser : status = .approved → ∀ a, w.db.approvals.find? id = some a →
      user = some a.approverUserId) :
    Conduct deps visits user w
      (w.commit n (w.db.updateApproval id status comment w.now) events) where
  retains := by
    refine .of_eq
      { World.Grows.refl w with approvals := fun id' a ha => ?_ } rfl
      (List.subset_append_right _ _)
    rw [World.commit_db, Db.find?_updateApproval, ha]
    split
    · exact ⟨_, rfl, .decided a _ _ _⟩
    · exact ⟨a, rfl, .refl a⟩
  opens id' a' ha' hnone := by
    rw [World.commit_db, Db.find?_updateApproval, hnone] at ha'
    split at ha' <;> cases ha'
  approves id' a a' ha ha' happroved := by
    rw [World.commit_db, Db.find?_updateApproval, ha] at ha'
    split at ha'
    · rename_i hid
      obtain rfl := Option.some.inj ha'
      rw [Db.decided] at happroved
      split at happroved
      · exact .inr (huser happroved a (hid ▸ ha))
      · exact .inl happroved
    · obtain rfl := Option.some.inj ha'
      exact .inl happroved

end Steps

/-- What a step of thread `n` finds. -/
abbrev Finds (deps : Deps) (visits : Nat → World → Prop) (n : Nat) (i : Input)
    (w : World) : Prop :=
  i.thread = n ∧ w.AllAssigned deps visits ∧ visits n w

/-- The program takes only such steps, whatever others do in between, and `Q`
holds of the value that it delivers. -/
abbrev Acts {ε α : Type} (deps : Deps) (visits : Nat → World → Prop)
    (user : Option Uuid) (n : Nat) (p : Async ε α) (Q : α → World → Prop)
    (w : World) : Prop :=
  Abides World.Retains (Finds deps visits n) (Conduct deps visits user) p Q w

/-- The program takes such steps in whatever state it starts. -/
def Harmless {ε α : Type} (deps : Deps) (visits : Nat → World → Prop)
    (user : Option Uuid) (n : Nat) (p : Async ε α) : Prop :=
  ∀ w, Acts deps visits user n p (fun _ _ => True) w

section Rules

variable {ε ε' α β : Type} {deps : Deps} {visits : Nat → World → Prop}
  {user : Option Uuid} {n : Nat} {w : World} {Q : β → World → Prop}

theorem select_acts {f : World → β}
    (h : ∀ t, w.Retains t → visits n t → Q (f t) t) :
    Acts deps visits user n (select f) Q w := by
  refine .atomic fun i t hwt hi => ?_
  cases i.fault with
  | none => exact ⟨.refl t, h t hwt hi.2.2⟩
  | lostRequest | lostReply => exact ⟨.refl t, trivial⟩

theorem execute_acts {f : Input → World → Option (β × Db × List Event)}
    (h : ∀ i t b db events, w.Retains t → visits n t →
      f i t = some (b, db, events) →
      Conduct deps visits user t (t.commit n db events) ∧
      Q b (t.commit n db events)) :
    Acts deps visits user n (execute f) Q w := by
  refine .atomic fun i t hwt hi => ?_
  obtain ⟨rfl, -, hvisits⟩ := hi
  cases hf : f i t with
  | none => exact ⟨.refl t, trivial⟩
  | some result =>
      obtain ⟨b, db, events⟩ := result
      obtain ⟨hconduct, hQ⟩ := h i t b db events hwt hvisits hf
      cases i.fault with
      | none => exact ⟨hconduct, hQ⟩
      | lostRequest => exact ⟨.refl t, trivial⟩
      | lostReply => exact ⟨hconduct, trivial⟩

/-- What was there before is there afterwards, however the program ends. -/
theorem follows_retains {p : Async ε α} {post : Exit ε α → World → Prop}
    (h : Follows (relying World.Retains (Finds deps visits n)
      (Conduct deps visits user)) post p w) :
    Follows
      (relying World.Retains (Finds deps visits n) (Conduct deps visits user))
      (fun x t => post x t ∧ w.Retains t) p w :=
  h.since World.Retains.refl (fun _ _ _ => .trans) fun _ _ h => h.retains

theorem acts_bind {p : Async ε α} {k : α → Async ε β} {P : α → World → Prop}
    (hp : Acts deps visits user n p P w)
    (hk : ∀ a t, w.Retains t → P a t → Acts deps visits user n (k a) Q t) :
    Acts deps visits user n (p >>= k) Q w := by
  refine .bind ((follows_retains hp).mono fun x t hx => ?_)
  cases x with
  | ok a => exact hk a t hx.2 hx.1
  | error | panicked => trivial

/-- Reading in front of the rest of a program. -/
theorem read_acts {f : World → α} {g : DbError → ε} {k : α → Async ε β}
    (h : ∀ t, w.Retains t → visits n t →
      Acts deps visits user n (k (f t)) Q t) :
    Acts deps visits user n ((select f).mapError g >>= k) Q w :=
  .bind (.mapError (select_acts h))

namespace Harmless

theorem exit (x : Exit ε α) : Harmless deps visits user n (.exit x) := by
  intro w
  cases x <;> trivial

theorem select (f : World → α) : Harmless deps visits user n (select f) :=
  fun _ => select_acts fun _ _ _ => trivial

theorem execute {f : Input → World → Option (α × Db × List Event)}
    (h : ∀ i t a db events, f i t = some (a, db, events) →
      Conduct deps visits user t (t.commit n db events)) :
    Harmless deps visits user n (execute f) :=
  fun _ => execute_acts fun i t a db events _ _ hsome =>
    ⟨h i t a db events hsome, trivial⟩

theorem note (event : Event) :
    Harmless deps visits user n (note event : Async ε Unit) :=
  fun _ => .atomic fun i t _ _ =>
    ⟨.aside rfl rfl rfl (List.subset_cons_self (i.thread, event)
      t.log), trivial⟩

theorem bind {p : Async ε α} {k : α → Async ε β}
    (hp : Harmless deps visits user n p)
    (hk : ∀ a, Harmless deps visits user n (k a)) :
    Harmless deps visits user n (p >>= k) :=
  fun w => .bind ((hp w).mono fun a t _ => hk a t)

theorem mapError {g : ε → ε'} {p : Async ε α}
    (hp : Harmless deps visits user n p) :
    Harmless deps visits user n (p.mapError g) :=
  fun w => (hp w).mapError

theorem okOr {e : ε} {value : Option α} {k : α → Async ε β}
    (hk : ∀ a, Harmless deps visits user n (k a)) :
    Harmless deps visits user n (Program.okOr e value >>= k) :=
  bind (exit _) hk

theorem liftExcept {result : Except ε α} {k : α → Async ε β}
    (hk : ∀ a, Harmless deps visits user n (k a)) :
    Harmless deps visits user n (Program.liftExcept result >>= k) :=
  bind (exit _) hk

/-- Only such changes are made as this says. -/
theorem of_leaves {still : World → World → Prop} {p : Async ε α}
    (hstill : ∀ t u, still t u → Conduct deps visits user t u)
    (hp : Leaves still p) : Harmless deps visits user n p :=
  fun _ => .of_leaves hp hstill

theorem read {f : World → α} {g : DbError → ε} {k : α → Async ε β}
    (hk : ∀ a, Harmless deps visits user n (k a)) :
    Harmless deps visits user n ((Servcat.select f).mapError g >>= k) :=
  (select f).mapError.bind hk

/-- A program in front of another that relies on nothing it does. -/
theorem before {p : Async ε α} {k : α → Async ε β}
    (hp : Harmless deps visits user n p)
    (hk : ∀ a t, w.Retains t → Acts deps visits user n (k a) Q t) :
    Acts deps visits user n (p >>= k) Q w :=
  acts_bind (hp w) fun a t hwt _ => hk a t hwt

end Harmless

end Rules

section Programs

variable {deps : Deps} {visits : Nat → World → Prop} {user : Option Uuid}
  {n : Nat} {w : World}

namespace Approvals

/-- The approver is the one whom the rule picks in a state that was visited. -/
theorem resolveApproverUserId_acts {requester : User}
    {resolution : ApproverResolution} {v : World} (hv : visits n v)
    (hvw : v.Retains w) :
    Acts deps visits user n (resolveApproverUserId deps requester resolution)
      (fun userId t => ∃ v', visits n v' ∧ v'.Retains t ∧
        approverOf deps v'.db requester resolution = .ok userId) w := by
  cases resolution with
  | static userId => exact ⟨v, hv, hvw, rfl⟩
  | managerOfRequester =>
      refine .ofOption fun manager hmanager => ⟨v, hv, hvw, ?_⟩
      rw [approverOf, hmanager]
      rfl
  | roleInDepartment role =>
      refine .okOr fun departmentId hdepartment => read_acts fun t _ ht => ?_
      refine .ofOption fun userId huserId => ⟨t, ht, .refl t, ?_⟩
      replace huserId :
        (candidates deps t.db role departmentId).head?.map User.id =
          some userId := huserId
      rw [approverOf, hdepartment, Option.elim_some, huserId]
      rfl

/-- The approval that is opened for a requester is assigned as its step says. -/
theorem createForInstance_acts {instanceId requesterUserId : Uuid}
    {graph : WorkflowGraph} {stepId : String} {requester : User}
    {resolution : ApproverResolution} {timeoutSeconds : Option Int64}
    {v : World} (hserves : w.Serves instanceId requesterUserId graph)
    (hat : Engine.OutcomeAt graph stepId
      (.awaitingApproval resolution timeoutSeconds))
    (hv : visits n v) (hvw : v.Retains w)
    (hrequester : v.db.users.find? requesterUserId = some requester) :
    Acts deps visits user n
      (createForInstance deps instanceId stepId requester resolution
        timeoutSeconds)
      (fun _ _ => True) w := by
  refine acts_bind (resolveApproverUserId_acts hv hvw)
    fun userId t hwt hpicks => ?_
  have hexpires := expiresAt_readOnly timeoutSeconds
  refine (Harmless.of_leaves (fun _ _ => .of_readOnly) hexpires).before
    fun expiresAt t' htt' => ?_
  obtain ⟨v', hv', hv't, happrover⟩ := hpicks
  have hcreate : Acts deps visits user n
      (Repositories.Approvals.create instanceId stepId userId expiresAt)
      (fun _ _ => True)
      t' := by
    refine .bind (execute_acts fun i u id db events htu _ hsome => ⟨?_, ?_⟩)
    · obtain ⟨⟨row, db'⟩, hinsert, heq⟩ := Option.map_eq_some_iff.mp hsome
      cases heq
      obtain ⟨rfl, approvals, happrovals, rfl⟩ :=
        Db.insertApproval_inserts hinsert
      have hwu : w.Retains u := hwt.trans (htt'.trans htu)
      have hnone : u.db.approvals.find? i.uuid = none :=
        (Table.insert?_eq_some_iff.mp happrovals).1
      refine .opened happrovals (hwu.serves hserves) hat
        ⟨v, v', requester, hv, hv', ?_, ?_, hrequester, happrover⟩
      · exact (hvw.trans hwu).unopened hnone
      · exact (hv't.trans (htt'.trans htu)).unopened hnone
    · exact (Harmless.select _).bind (fun _ => .exit _) _
  refine acts_bind hcreate.mapError fun approval _ _ _ => ?_
  have hnotify := notifyNewApproval_leaves approval requester
  exact (Harmless.of_leaves (fun _ _ => .of_logsOnly) hnotify).before
    fun _ _ _ => trivial

end Approvals

namespace Orchestrator

theorem saveProgress_harmless (instanceId : Uuid) (stepId : String)
    (answersJson : JsonValue) (status : InstanceStatus) :
    Harmless deps visits user n
      (db (Repositories.Instances.saveProgress instanceId stepId answersJson
        status)) := by
  refine .mapError (.bind (.execute fun i t a db events hsome => ?_)
    fun _ => .select _)
  cases hsome
  have hkept : ∀ id row, t.db.instances.find? id = some row →
      ∃ row',
        (t.db.updateInstance instanceId stepId answersJson status
          t.now).instances.find? id = some row' ∧
        row'.workflowDefinitionId = row.workflowDefinitionId ∧
        row'.requesterUserId = row.requesterUserId := by
    intro id row hrow
    rw [Db.find?_updateInstance, hrow]
    split
    · exact ⟨_, rfl, rfl, rfl⟩
    · exact ⟨row, rfl, rfl, rfl⟩
  refine .of_eq
    { toGrows := { World.Grows.refl t with instances := ?_ }
      requesters := ?_
      log := List.subset_append_right _ _ } rfl
  · intro id row hrow
    obtain ⟨row', hrow', hdefinition, -⟩ := hkept id row hrow
    exact ⟨row', hrow', hdefinition⟩
  · intro id row hrow
    obtain ⟨row', hrow', -, hrequester⟩ := hkept id row hrow
    exact ⟨row', hrow', hrequester⟩

/-- Driving an instance opens approvals for its requester only. -/
theorem applyOutcome_acts {definition : WorkflowDefinition}
    {instanceId requesterUserId : Uuid} {answers : Answers} {rounds : Nat}
    {stepId : String} {outcome : Outcome}
    (hserves : w.Serves instanceId requesterUserId definition.graph)
    (hat : Engine.OutcomeAt definition.graph stepId outcome) :
    Acts deps visits user n
      (applyOutcome deps definition instanceId requesterUserId answers rounds
        stepId outcome)
      (fun _ _ => True) w := by
  induction rounds generalizing w stepId outcome with
  | zero => trivial
  | succ rounds ih =>
      have hsave : ∀ status, Harmless deps visits user n
          (saveProgress instanceId stepId answers status) := fun status =>
        (saveProgress_harmless _ _ _ _).bind fun _ => .exit _
      cases outcome with
      | awaitingAnswer fieldKey => exact hsave _ _
      | finished endOutcome => exact hsave _ _
      | awaitingApproval resolution timeoutSeconds =>
          refine read_acts fun t hwt ht => .okOr fun requester hrequester => ?_
          have hopen : Acts deps visits user n
              (Approvals.createForInstance deps instanceId
              stepId requester resolution timeoutSeconds) (fun _ _ => True) t :=
            Approvals.createForInstance_acts (hwt.serves hserves) hat ht
              (.refl t) hrequester
          exact acts_bind hopen.mapError fun _ _ _ _ => hsave _ _
      | readyToSubmitTicket =>
          have hdispatch :=
            dispatchTicket_leaves deps definition instanceId stepId
              requesterUserId answers
          refine .attempt ((follows_retains
            (Harmless.of_leaves (fun _ _ => .of_filingOnly) hdispatch w)).mono
              fun x t hx r hr => ?_)
          cases r with
          | error err =>
              exact (saveProgress_harmless _ _ _ _).bind (fun _ => .exit _) t
          | ok value =>
              refine .liftExcept fun result hresult => ?_
              cases hresume : Engine.resumeAfterTicketDispatch
                  definition.graph stepId answers with
              | error err => simp [hresume, Except.mapError] at hresult
              | ok result' =>
                  rw [hresume] at hresult
                  cases hresult
                  obtain ⟨s, next, -, -, -, hnext⟩ :=
                    Engine.resumeAfterTicketDispatch_ok hresume
                  exact ih (hx.2.serves hserves) hnext

/-- Reading the row a request works from. -/
theorem load_acts (id : Uuid) (fieldKey : Option String) :
    Acts deps visits user n (Repositories.Instances.load id fieldKey)
      (fun found t => ∀ row,
        found = some row → t.db.instances.find? id = some row) w := by
  refine .atomic fun i t _ _ => ?_
  have hnoted : ∀ event, Conduct deps visits user t (t.record i.thread event) :=
    fun event =>
      .aside rfl rfl rfl (List.subset_cons_self _ _)
  cases hrow : t.db.instances.find? id with
  | none => cases i.fault with
    | none => exact ⟨.refl t, fun _ h => by cases h⟩
    | lostRequest | lostReply => exact ⟨.refl t, trivial⟩
  | some row => cases i.fault with
    | none =>
        refine ⟨hnoted _, ?_⟩
        rintro _ ⟨⟩
        exact hrow
    | lostRequest | lostReply => exact ⟨.refl t, trivial⟩

theorem submitAnswer_harmless (rounds : Nat) (instanceId : Uuid)
    (requester : User) (fieldKey : String) (value : JsonValue) :
    Harmless deps visits user n
      (submitAnswer deps rounds instanceId requester fieldKey value) := by
  intro w
  refine acts_bind (load_acts instanceId (some fieldKey)).mapError
    fun found v _ hfound => ?_
  refine .okOr fun row hrow => ?_
  replace hrow := hfound row hrow
  split
  · trivial
  rename_i hrequester
  split
  · trivial
  refine read_acts fun t hvt _ => .okOr fun definition hdefinition => ?_
  cases hask : Engine.submitAnswer definition.graph row.currentStepId
      (answersMap row.answersJson) fieldKey value with
  | mk answers result =>
  refine .liftExcept fun r hr => ?_
  cases result with
  | error e => simp [Except.mapError] at hr
  | ok result' =>
      cases hr
      obtain ⟨-, s, inputType, required, options, next, -, -, -, hat⟩ :=
        Engine.submitAnswer_ok hask
      have hserves := hvt.serves_of_find? hrow hdefinition
      rw [not_not.mp hrequester] at hserves
      exact applyOutcome_acts hserves hat

theorem resumeAfterApproval_harmless (rounds : Nat) (instanceId : Uuid)
    (stepId : String) (decision : ApprovalDecision) :
    Harmless deps visits user n
      (resumeAfterApproval deps rounds instanceId stepId decision) := by
  intro w
  refine acts_bind (load_acts instanceId none).mapError
    fun found v _ hfound => ?_
  refine .okOr fun row hrow => ?_
  replace hrow := hfound row hrow
  refine read_acts fun t hvt _ => .okOr fun definition hdefinition => ?_
  refine .liftExcept fun r hr => ?_
  cases hresume : Engine.resumeAfterApproval definition.graph stepId
      (answersMap row.answersJson) decision with
  | error e => simp [hresume, Except.mapError] at hr
  | ok result =>
      rw [hresume] at hr
      cases hr
      obtain ⟨s, resolution, onApprove, onReject, timeoutSeconds, -, -,
          -, hat⟩ := Engine.resumeAfterApproval_ok hresume
      exact applyOutcome_acts (hvt.serves_of_find? hrow hdefinition) hat

/-- The row that is inserted for a request is that of its requester. -/
theorem create_acts {definition : WorkflowDefinition}
    {catalogItemId requesterUserId : Uuid} {entryStepId : String}
    (hgraph : w.db.graphOf definition.id = some definition.graph) :
    Acts deps visits user n
      (Repositories.Instances.create definition.id catalogItemId requesterUserId
        entryStepId)
      (fun row t => t.Serves row.id requesterUserId definition.graph) w := by
  refine .bind (execute_acts fun i t id db events hwt _ hsome => ?_)
  obtain ⟨db', hinsert, heq⟩ := Option.map_eq_some_iff.mp hsome
  cases heq
  obtain ⟨instances, hinstances, rfl⟩ := Db.insertInstance_inserts hinsert
  have hretains : t.Retains
      (t.commit n { t.db with instances := instances } []) :=
    { World.Grows.refl t with
      instances := fun id row hrow =>
        ⟨row, Table.find?_insert_of_some hinstances hrow, rfl⟩
      requesters := fun id row hrow =>
        ⟨row, Table.find?_insert_of_some hinstances hrow, rfl⟩
      log := List.Subset.refl _ }
  refine ⟨.of_eq hretains rfl, acts_bind (load_acts i.uuid none)
    fun found u hu hfound => ?_⟩
  refine .ofOption fun row hrow => ?_
  replace hrow := hfound row hrow
  have hserves : World.Serves
      (t.commit n { t.db with instances := instances } []) i.uuid
      requesterUserId definition.graph :=
    ⟨_, Table.find?_inserted hinstances, rfl, hwt.graphs _ _ hgraph⟩
  rw [Table.key_of_find? hrow]
  exact hu.serves hserves

theorem startInstance_harmless (rounds : Nat) (catalogItemId : Uuid)
    (requester : User) :
    Harmless deps visits user n
      (startInstance deps rounds catalogItemId requester) := by
  refine .read fun item => .okOr fun item => ?_
  split
  · exact .exit _
  intro w
  refine read_acts fun t _ _ => .okOr fun definition hdefinition => ?_
  have hgraph : t.db.graphOf definition.id = some definition.graph := by
    rw [Table.key_of_find? hdefinition]
    exact Db.graphOf_of_find? hdefinition
  refine .liftExcept fun r hr => ?_
  cases hstart : Engine.start definition.graph with
  | error e => simp [hstart, Except.mapError] at hr
  | ok result =>
      rw [hstart] at hr
      cases hr
      exact acts_bind (create_acts hgraph).mapError fun row t' _ hserves =>
        applyOutcome_acts hserves (Engine.start_ok hstart).2

end Orchestrator

namespace Approvals

/-- Settling an approval otherwise than by approving it. -/
theorem decide_harmless (id : Uuid) {status : ApprovalStatus}
    (comment : Option String) (hstatus : status ≠ .approved) :
    Harmless deps visits user n
      (Repositories.Approvals.decide id status comment) := by
  refine .execute fun i t a db events hsome => ?_
  cases hsome
  exact .settle fun h => absurd h hstatus

/-- The user decides only an approval that is theirs. -/
theorem decide_acts (id userId : Uuid) (decision : ApprovalDecision)
    (comment : Option String) :
    Harmless deps visits (some userId) n
      (decide id userId decision comment) := by
  intro w
  refine read_acts fun t _ _ => .okOr fun a ha => ?_
  split
  · trivial
  rename_i huser
  split
  · trivial
  have hflip : Acts deps visits (some userId) n
      (Repositories.Approvals.decide id (statusOf decision) comment)
        (fun _ _ => True) t := by
    refine execute_acts fun i t' b db events htt' _ hsome => ⟨?_, trivial⟩
    cases hsome
    refine .settle fun _ a' ha' => ?_
    obtain ⟨a'', ha'', hbecomes⟩ := htt'.approvals id a ha
    cases ha'.symm.trans ha''
    rw [hbecomes.approverUserId, not_not.mp huser]
  refine acts_bind hflip.mapError fun flipped t' _ _ => ?_
  split
  · exact Harmless.read (fun _ => .exit _) t'
  · trivial

end Approvals

namespace Server

theorem decide_harmless (rounds : Nat) (approvalId userId : Uuid)
    (decision : ApprovalDecision) (comment : Option String) :
    Harmless deps visits (some userId) n
      (decide deps rounds approvalId userId decision comment) :=
  (Approvals.decide_acts approvalId userId decision
    comment).mapError.bind fun _ =>
    (Harmless.note _).bind fun _ =>
      Orchestrator.resumeAfterApproval_harmless _ _ _ _

theorem handleExpired_harmless (rounds : Nat) (approval : PendingApproval) :
    Harmless deps visits user n (handleExpired deps rounds approval) := by
  refine (Harmless.note _).bind fun _ w => .attempt ?_
  refine (follows_retains
    (Orchestrator.resumeAfterApproval_harmless rounds _ _ _ w)).mono
    fun x t _ r hr => ?_
  cases r with
  | ok row => trivial
  | error err => exact Harmless.note _ t

end Server

theorem Approvals.expireEach_harmless (rounds : Nat)
    (rows : List PendingApproval) :
    Harmless deps visits user n
      (expireEach (Server.handleExpired deps rounds) rows) := by
  induction rows with
  | nil => exact .exit _
  | cons approval rest ih =>
      refine (decide_harmless approval.id _ (by simp)).bind fun flipped => ?_
      cases flipped with
      | true =>
          exact (Server.handleExpired_harmless rounds approval).bind fun _ => ih
      | false => exact ih

/-- The user on whose behalf a request decides. -/
def Request.user? : Request → Option Uuid
  | .decide _ userId _ _ => some userId
  | _ => none

theorem Request.serve_harmless (request : Request × Nat) :
    Harmless deps visits request.1.user? n (serve deps request) := by
  obtain ⟨request, rounds⟩ := request
  cases request with
  | start catalogItemId requester =>
      exact (Orchestrator.startInstance_harmless _ _ _).bind fun _ => .exit _
  | submit instanceId requester fieldKey value =>
      exact (Orchestrator.submitAnswer_harmless _ _ _ _ _).bind fun _ => .exit _
  | decide approvalId userId decision comment =>
      exact (Server.decide_harmless _ _ _ _ _).bind fun _ => .exit _
  | poll =>
      refine .bind (.mapError (.bind (.select _) fun expired => ?_))
        fun _ => .exit _
      exact Approvals.expireEach_harmless rounds expired

end Programs

/-- The discipline that all requests keep to, in runs through `visits`. -/
def assignment (deps : Deps) (visits : Nat → World → Prop) :
    Discipline (system deps) where
  visits := visits
  inv := World.AllAssigned deps visits
  rely := World.Retains
  may _ request := Conduct deps visits request.1.user?
  rely_refl := .refl
  rely_trans _ _ _ := .trans
  drift w w' hw hdrift := by
    have hlog : w.log ⊆ w'.log := by rw [hdrift.log]; exact List.Subset.refl _
    have hretains : w.Retains w' := .of_eq hdrift.grows hdrift.instances hlog
    refine ⟨hw.extend hretains fun id a' ha' hnone => ?_, hretains⟩
    rw [hdrift.approvals] at ha'
    cases hnone.symm.trans ha'
  step _ _ _ _ hw h := ⟨hw.extend h.retains h.opens, h.retains⟩
  abides _ request := Request.serve_harmless request

end Servcat
