/-
Whom an approval is assigned to and when it expires, whatever the users table
holds, whatever the clock says and whatever faults the database has.
-/
import Servcat.Sample
import Servcat.Serial.Effects
import Servcat.Store.Faults

namespace Servcat

open Atomic Keyed

/-- There is such a user, and they may sign in. -/
def Db.HasActive (db : Db) (id : Uuid) : Prop :=
  ∃ user, db.users.find? id = some user ∧ user.isActive = true

/-- The user a resolution names without a look at the users table. -/
def ApproverResolution.named? (requester : User) :
    ApproverResolution → Option Uuid
  | .static userId => some userId
  | .managerOfRequester => requester.managerUserId
  | .roleInDepartment _ => none

section Rules

variable {ε α β : Type} {w : World}

namespace Approvals

theorem resolveApproverUserId_arbitrary_wp {deps : Deps} {requester : User}
    {resolution : ApproverResolution}
    {post : Exit ApprovalsError Uuid → World → Prop} :
    wp Input.Arbitrary
      (resolveApproverUserId deps requester resolution) post w ↔
      post (.ofExcept (approverOf deps w.db requester resolution)) w ∧
        ∀ role departmentId, resolution = .roleInDepartment role →
          requester.departmentId = some departmentId →
            post (.error (.db .sqlx)) w := by
  cases resolution with
  | static userId => simp [resolveApproverUserId, approverOf, Exit.ofExcept]
  | managerOfRequester =>
      cases hmanager : requester.managerUserId <;>
        simp [resolveApproverUserId, approverOf, hmanager, Program.okOr,
          Exit.ofOption, Exit.ofExcept]
  | roleInDepartment role =>
      cases hdepartment : requester.departmentId with
      | none =>
          simp [resolveApproverUserId, approverOf, hdepartment, Program.okOr,
            Exit.ofOption, Exit.ofExcept, Program.onOk]
      | some departmentId =>
          simp only [resolveApproverUserId, hdepartment, approverOf,
            Option.elim_some]
          rw [wp_bind]
          change wp _ (db _ >>= _) post w ↔ _
          rw [wp_bind, db, wp_mapError]
          refine select_arbitrary_wp.trans (and_congr ?_ ?_)
          · change post (.ofOption
              _ ((candidates deps w.db role departmentId).head?.map
              User.id)) w ↔ _
            cases (candidates deps w.db role departmentId).head? <;> rfl
          · simp [Exit.mapError, Program.onOk]

/-- Of the role's holders only active ones are considered. -/
theorem approverOf_active {deps : Deps} {db : Db} {requester : User}
    {resolution : ApproverResolution} {u : Uuid}
    (h : approverOf deps db requester resolution = .ok u) :
    resolution.named? requester = some u ∨ db.HasActive u := by
  cases resolution with
  | static userId =>
      cases h
      exact .inl rfl
  | managerOfRequester =>
      refine .inl ?_
      cases hmanager : requester.managerUserId with
      | none => simp [approverOf, hmanager] at h
      | some manager =>
          simp only [approverOf, hmanager, Option.elim_some,
            Except.ok.injEq] at h
          rw [ApproverResolution.named?, hmanager, h]
  | roleInDepartment role =>
      refine .inr ?_
      cases hdepartment : requester.departmentId with
      | none => simp [approverOf, hdepartment] at h
      | some departmentId =>
          simp only [approverOf, hdepartment, Option.elim_some] at h
          cases hhead : (candidates deps db role departmentId).head? with
          | none => simp [hhead] at h
          | some user =>
              simp only [hhead, Option.map_some, Option.elim_some,
                Except.ok.injEq] at h
              have hmem := List.mem_of_mem_head? hhead
              rw [candidates, List.mem_insertionSort, List.mem_filter] at hmem
              simp only [Bool.and_eq_true] at hmem
              refine ⟨user, ?_, hmem.2.2⟩
              rw [← h]
              exact Table.find?_of_mem hmem.1

theorem approverOf_named {deps : Deps} {db : Db} {requester : User}
    {resolution : ApproverResolution} {u : Uuid}
    (h : resolution.named? requester = some u) :
    approverOf deps db requester resolution = .ok u := by
  cases resolution with
  | static userId =>
      cases h
      rfl
  | managerOfRequester =>
      change requester.managerUserId = some u at h
      simp [approverOf, h]
  | roleInDepartment role => cases h

/-- Everyone who is found to approve can sign in exactly when the user the
resolution names outright, if it names one, can. -/
theorem approver_active_iff (deps : Deps) (w : World) (requester : User)
    (resolution : ApproverResolution) :
    (∀ u w',
      Runs Input.Arbitrary (resolveApproverUserId deps requester resolution) w
        (.ok u) w' → w'.db.HasActive u) ↔
      ∀ u ∈ resolution.named? requester, w.db.HasActive u := by
  have hwp : (∀ u w', Runs Input.Arbitrary
        (resolveApproverUserId deps requester resolution) w (.ok u) w' →
          w'.db.HasActive u) ↔
      wp Input.Arbitrary (resolveApproverUserId deps requester resolution)
        (fun x w' => ∀ u, x = .ok u → w'.db.HasActive u) w := by
    rw [wp_iff_runs]
    constructor
    · rintro h x w' hrun u rfl
      exact h u w' hrun
    · exact fun h u w' hrun => h _ w' hrun u rfl
  rw [hwp, resolveApproverUserId_arbitrary_wp]
  constructor
  · rintro ⟨h, -⟩ u hu
    exact h u (by rw [approverOf_named hu]; rfl)
  · intro h
    refine ⟨fun u hu => ?_, by simp⟩
    cases happrover : approverOf deps w.db requester resolution with
    | error e => simp [happrover, Exit.ofExcept] at hu
    | ok u' =>
        rw [happrover] at hu
        cases hu
        rcases approverOf_active happrover with hnamed | hactive
        · exact h u hnamed
        · exact hactive

/-- A manager is found although they left and can no longer sign in. -/
theorem approver_not_active :
    let manager : User := { Sample.approver with isActive := false }
    let report : User :=
      { Sample.requester with managerUserId := some manager.id }
    let w : World :=
      { Sample.world Sample.approvalThenTicket with
        db :=
          { (Sample.world Sample.approvalThenTicket).db with
            users := ⟨[report, manager], by decide⟩ } }
    ¬ ∀ u w', Runs Input.Arbitrary
      (resolveApproverUserId Sample.deps report .managerOfRequester) w
        (.ok u) w' → w'.db.HasActive u := by
  intro manager report w h
  have hrun : Runs Input.Arbitrary
      (resolveApproverUserId Sample.deps report .managerOfRequester) w
        (.ok manager.id) w := .exit _ _
  obtain ⟨user, huser, hactive⟩ := h _ _ hrun
  obtain rfl : manager = user := Option.some.inj huser
  cases hactive

end Approvals

/-- On whatever state and inputs the program runs, it does not panic. -/
def Calm (p : Async ε α) : Prop :=
  ∀ w, wp Input.Arbitrary p (fun x _ => x ≠ .panicked) w

theorem Calm.atomic {f : Input → World → Exit ε α × World}
    (h : ∀ i w, (f i w).1 ≠ .panicked) : Calm (.atomic f) :=
  fun w => (wp_atomic _ _ w).mpr fun i _ => h i w

theorem Calm.select (f : World → α) : Calm (select f) :=
  .atomic fun i w => by cases i.fault <;> simp

theorem Calm.execute (f : Input → World → Option (α × Db × List Event)) :
    Calm (execute f) :=
  .atomic fun i w => by
    rcases f i w with _ | ⟨a, db, events⟩ <;> cases i.fault <;> simp

theorem Calm.okOr (e : ε) (value : Option α) :
    Calm (.okOr e value : Async ε α) := by
  intro w
  cases value <;> simp [Program.okOr, Exit.ofOption]

theorem Calm.pure (a : α) : Calm (Pure.pure a : Async ε α) := by
  intro w
  simp

theorem Calm.bind {p : Async ε α} {k : α → Async ε β} (hp : Calm p)
    (hk : ∀ a, Calm (k a)) : Calm (p >>= k) := by
  refine fun w => (wp_bind _ _ _ w).mpr (wp_mono (fun x w' hx => ?_) (hp w))
  cases x with
  | ok a => exact hk a w'
  | error e => simp [Program.onOk]
  | panicked => exact absurd rfl hx

theorem Calm.mapError {ε' : Type} {g : ε → ε'} {p : Async ε α} (hp : Calm p) :
    Calm (p.mapError g) := by
  refine fun w => (wp_mapError _ _ _ w).mpr (wp_mono (fun x w' hx => ?_) (hp w))
  cases x with
  | ok | error => simp [Exit.mapError]
  | panicked => exact absurd rfl hx

namespace Approvals

theorem calm_create (instanceId : Uuid) (stepId : String)
    (approverUserId : Uuid) (expiresAt : Option Timestamp) :
    Calm (Repositories.Approvals.create instanceId stepId approverUserId
      expiresAt) :=
  (Calm.execute _).bind fun _ => (Calm.select _).bind fun _ => .okOr _ _

theorem calm_notifyNewApproval (approval : PendingApproval) (requester : User) :
    Calm (notifyNewApproval approval requester) := by
  refine (Calm.select _).mapError.bind fun approver => ?_
  cases approver with
  | none => exact .pure ()
  | some approver =>
      have hsettings : ∀ catalogItemName, Calm (do
          let settings ← db Repositories.OrgSettings.get
          note (.notified
            { approval, approver, requester, catalogItemName
              orgTimezone := settings.timezone })) := fun _ =>
        (Calm.select _).mapError.bind fun _ => .atomic fun _ _ => by simp
      refine (Calm.select _).mapError.bind fun row => ?_
      cases row with
      | none => exact hsettings _
      | some row => exact (Calm.select _).mapError.bind fun item => hsettings _

theorem expiresAt_arbitrary_wp {timeoutSeconds : Option Int64}
    {post : Exit ApprovalsError (Option Timestamp) → World → Prop} :
    wp Input.Arbitrary (expiresAt timeoutSeconds) post w ↔
      post ((expiryOf w.now timeoutSeconds).elim .panicked .ok) w := by
  cases timeoutSeconds with
  | none => rfl
  | some secs =>
      rw [expiresAt, wp_bind, utcNow, wp_atomic]
      simp only [Program.onOk, expiryOf]
      constructor
      · intro h
        have hstep := h ⟨0, ⟨0⟩, .none⟩ trivial
        cases hdeadline : deadline w.now secs <;> simpa [hdeadline] using hstep
      · intro h i _
        cases hdeadline : deadline w.now secs <;> simpa [hdeadline] using h

theorem expiryOf_eq_none_iff {now : Timestamp} {timeoutSeconds : Option Int64} :
    expiryOf now timeoutSeconds = none ↔ ∃ secs, timeoutSeconds = some secs ∧
      ¬ (-9223372036854775 ≤ secs.toInt ∧ secs.toInt ≤ 9223372036854775 ∧
        minTimestamp ≤ now + secs.toInt ∧ now + secs.toInt ≤ maxTimestamp) := by
  cases timeoutSeconds with
  | none => simp [expiryOf]
  | some secs =>
      simp only [expiryOf, Option.map_eq_none_iff, deadline, Option.some.injEq,
        exists_eq_left', ite_eq_right_iff, reduceCtorEq]
      rfl

/-- An approval with a time limit is opened without a panic exactly
when the limit is a duration and ends at a representable time, or no
approver is found. -/
theorem createForInstance_calm_iff (deps : Deps) (w : World) (instanceId : Uuid)
    (stepId : String) (requester : User) (resolution : ApproverResolution)
    (timeoutSeconds : Option Int64) :
    (∀ x w',
      Runs Input.Arbitrary (createForInstance deps instanceId stepId requester
        resolution timeoutSeconds) w x w' → x ≠ .panicked) ↔
      ∀ secs ∈ timeoutSeconds,
        (∃ u, approverOf deps w.db requester resolution = .ok u) →
        -9223372036854775 ≤ secs.toInt ∧ secs.toInt ≤ 9223372036854775 ∧
          minTimestamp ≤ w.now + secs.toInt ∧
          w.now + secs.toInt ≤ maxTimestamp := by
  rw [← wp_iff_runs _ (fun x _ => x ≠ .panicked), createForInstance, wp_bind,
    resolveApproverUserId_arbitrary_wp]
  cases happrover : approverOf deps w.db requester resolution with
  | error e => simp [Exit.ofExcept, Program.onOk]
  | ok u =>
      have hrest : ∀ t w', wp Input.Arbitrary (do
          let approval ← db (Repositories.Approvals.create instanceId
            stepId u t)
          notifyNewApproval approval requester
          return approval) (fun x _ => x ≠ .panicked) w' := fun t w' =>
        ((calm_create _ _ _ _).mapError.bind fun approval =>
          (calm_notifyNewApproval approval requester).bind
            fun _ => .pure approval) w'
      simp only [Exit.ofExcept, Program.onOk, wp_bind, expiresAt_arbitrary_wp]
      cases hexpiry : expiryOf w.now timeoutSeconds with
      | none =>
          obtain ⟨secs, rfl, hrange⟩ := expiryOf_eq_none_iff.mp hexpiry
          refine iff_of_false (fun h => h.1 rfl) fun h => ?_
          exact hrange (h secs rfl ⟨u, rfl⟩)
      | some t =>
          refine iff_of_true ⟨hrest t w, by simp⟩ fun secs hsecs _ => ?_
          by_contra hrange
          rw [expiryOf_eq_none_iff.mpr ⟨secs, hsecs, hrange⟩] at hexpiry
          cases hexpiry

/-- No duration is that long. -/
theorem createForInstance_panics :
    Runs Input.Arbitrary
      (createForInstance Sample.deps (Sample.id 5) "approve" Sample.requester
        (.static Sample.approver.id) (some Int64.maxValue))
      (Sample.world Sample.approvalThenTicket) .panicked
      (Sample.world Sample.approvalThenTicket) := by
  have hrun : runAlone Input.Arbitrary
      (createForInstance Sample.deps (Sample.id 5) "approve" Sample.requester
        (.static Sample.approver.id) (some Int64.maxValue))
        [⟨0, Sample.id 9, .none⟩]
      (Sample.world Sample.approvalThenTicket) =
        some (.panicked, Sample.world Sample.approvalThenTicket) := rfl
  exact runs_of_runAlone hrun

end Approvals

end Rules

end Servcat
