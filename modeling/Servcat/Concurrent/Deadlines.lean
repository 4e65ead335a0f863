/-
The deadline of an approval.  A decision does not look at `expires_at`, so
between the deadline and the next pass of the poller an approver may still
decide; once a decision finds no approval that is overdue, none is decided
after its deadline.
-/
import Servcat.Concurrent.Readings
import Servcat.Concurrent.Settlement

namespace Servcat

open Atomic Keyed

/-- The approval an entry of the log says was settled, and how. -/
def Event.verdict? : Event → Option (Uuid × ApprovalStatus)
  | .decided approvalId status => some (approvalId, status)
  | _ => none

namespace World

/-- The approval is among those `list_expired` returns: pending past
its deadline. -/
def Overdue (w : World) (id : Uuid) : Prop :=
  ∃ a, w.db.approvals.find? id = some a ∧ a.status = .pending ∧
    ∃ t, a.expiresAt = some t ∧ t ≤ w.now

/-- Past its deadline, and nobody has approved or rejected it. -/
def Undecided (w : World) (id : Uuid) : Prop :=
  ∃ a, w.db.approvals.find? id = some a ∧
    (a.status = .pending ∨ a.status = .expired) ∧
    ∃ t, a.expiresAt = some t ∧ t ≤ w.now

/-- What was approved or rejected was so before its deadline. -/
def Timely (w : World) : Prop :=
  ∀ id a, w.db.approvals.find? id = some a →
    a.status = .approved ∨ a.status = .rejected →
    ∀ t, a.expiresAt = some t → ∃ s, a.decidedAt = some s ∧ s < t

instance (w : World) (id : Uuid) : Decidable (w.Overdue id) :=
  decidable_of_iff
    ((w.db.approvals.find? id).any fun a => a.status = .pending ∧
      a.expiresAt.any fun t => t ≤ w.now) (by
    simp [Overdue, Option.any_eq_true])

/-- `list_expired` returns the rows that are overdue. -/
theorem overdue_iff {w : World} {id : Uuid} :
    w.Overdue id ↔ ∃ a ∈ w.db.approvals.rows.filter fun row =>
      row.status == .pending && row.expiresAt.any fun t =>
        decide (t ≤ w.now), a.id = id := by
  constructor
  · rintro ⟨a, ha, hpending, t, hexpires, hle⟩
    refine ⟨a, List.mem_filter.mpr ⟨Table.mem_of_find? ha, ?_⟩,
      Table.key_of_find? ha⟩
    simp [hpending, hexpires, hle]
  · rintro ⟨a, ha, rfl⟩
    obtain ⟨hmem, hlisted⟩ := List.mem_filter.mp ha
    simp only [Bool.and_eq_true, beq_iff_eq, Option.any_eq_true,
      decide_eq_true_eq] at hlisted
    exact ⟨a, Table.find?_of_mem hmem, hlisted.1, hlisted.2⟩

theorem Overdue.undecided {w : World} {id : Uuid}
    (h : w.Overdue id) : w.Undecided id := by
  obtain ⟨a, ha, hpending, hdeadline⟩ := h
  exact ⟨a, ha, .inl hpending, hdeadline⟩

end World

/-- The step settles no approval that is overdue, unless as expired. -/
def DecidesInTime (w w' : World) : Prop :=
  ∀ entry ∈ w.added w', ∀ verdict ∈ entry.2.verdict?,
    verdict.2 = .expired ∨ ¬ w.Overdue verdict.1

instance (w w' : World) : Decidable (DecidesInTime w w') :=
  inferInstanceAs (Decidable (∀ entry ∈ w.added w', _))

/-- Everything may run, but no approver's decision on an approval that
is overdue. -/
def decisionsInTime : Regime World (Request × Nat) :=
  ⟨fun _ => True, fun _ => DecidesInTime⟩

instance : decisionsInTime.Checked where
  arrives _ := isTrue trivial
  allowed _ w w' := inferInstanceAs (Decidable (DecidesInTime w w'))

section Steps

variable {n : Nat} {φ φ' : Phase} {w w' : World}

theorem Move.now_eq (h : Move n φ w φ' w') : w'.now = w.now := by
  cases h <;> rfl

/-- Where an approval that is stored after a step comes from. -/
theorem Move.approval (h : Move n φ w φ' w') {id : Uuid} {a' : PendingApproval}
    (ha' : w'.db.approvals.find? id = some a') :
    (w.db.approvals.find? id = none ∧ a'.status = .pending) ∨
      ∃ a, w.db.approvals.find? id = some a ∧ (a' = a ∨ ∃ status comment,
        (n, Event.decided id status) ∈ w.added w' ∧ a.status = .pending ∧
          a' = Db.decided status comment w.now a) := by
  cases h with
  | look | remark | create | load | tickets | dispatch | save | resume =>
      exact .inr ⟨a', ha', .inl rfl⟩
  | @openApproval _ _ _ _ approval approvals _ _ _ hpending hinsert =>
      change approvals.find? id = some a' at ha'
      rw [Table.find?_insert hinsert] at ha'
      split at ha'
      · rename_i hid
        cases ha'
        exact .inl ⟨hid ▸ (Table.insert?_eq_some_iff.mp hinsert).1, hpending⟩
      · exact .inr ⟨a', ha', .inl rfl⟩
  | @flip _ approval status _ _ comment _ _ hpending _ =>
      rw [World.commit_db, Db.find?_updateApproval] at ha'
      split at ha'
      · rename_i hid
        obtain ⟨a, ha, rfl⟩ := Option.map_eq_some_iff.mp ha'
        obtain ⟨b, hb, hbpending⟩ := Db.isPending_iff.mp hpending
        rw [← hid, ha, Option.some.injEq] at hb
        subst hb
        refine .inr ⟨a, ha, .inr ⟨status, comment, ?_, hbpending, rfl⟩⟩
        rw [World.added_commit, hid]
        exact List.mem_singleton_self _
      · exact .inr ⟨a', ha', .inl rfl⟩

/-- Approvals are decided before their deadlines. -/
theorem Move.timely (h : Move n φ w φ' w') (hallowed : DecidesInTime w w')
    (hw : w.Timely) : w'.Timely := by
  intro id a' ha' hdecided t hexpires
  rcases h.approval ha' with
    ⟨-, hpending⟩ | ⟨a, ha, rfl | ⟨status, comment, hadded, hpending, rfl⟩⟩
  · rw [hpending] at hdecided
    rcases hdecided with h | h <;> cases h
  · exact hw id a' ha hdecided t hexpires
  · simp only [Db.decided, hpending, ↓reduceIte] at hdecided hexpires ⊢
    rcases hallowed _ hadded _ rfl with rfl | hnot
    · rcases hdecided with h | h <;> cases h
    · refine ⟨w.now, rfl, ?_⟩
      by_contra hle
      exact hnot ⟨a, ha, hpending, t, hexpires, not_lt.mp hle⟩

/-- Once past its deadline, an approval that is still pending only expires. -/
theorem Move.undecided (h : Move n φ w φ' w') (hallowed : DecidesInTime w w')
    {id : Uuid} (hid : w.Undecided id) : w'.Undecided id := by
  obtain ⟨a, ha, hstatus, t, hexpires, hle⟩ := hid
  obtain ⟨a', ha', -⟩ := h.grows.approvals id a ha
  rw [World.Undecided, h.now_eq]
  refine ⟨a', ha', ?_⟩
  rcases h.approval ha' with ⟨hnone, -⟩ | ⟨b, hb, hcase⟩
  · rw [hnone] at ha
    cases ha
  rw [ha, Option.some.injEq] at hb
  subst hb
  rcases hcase with rfl | ⟨status, comment, hadded, hpending, rfl⟩
  · exact ⟨hstatus, t, hexpires, hle⟩
  · simp only [Db.decided, hpending, ↓reduceIte]
    rcases hallowed _ hadded _ rfl with hexpired | hnot
    · exact ⟨.inr hexpired, t, hexpires, hle⟩
    · exact absurd ⟨a, ha, hpending, t, hexpires, hle⟩ hnot

end Steps

/-- The proof outline: nothing is approved or rejected past its deadline. -/
def deadlines (deps : Deps) : Outline (phases deps) decisionsInTime where
  inv := World.Timely
  holds _ _ _ := True
  absent _ _ := True
  grow w w' := ∀ id, w.Undecided id → w'.Undecided id
  grow_refl _ _ := id
  grow_trans h h' id hid := h' id (h id hid)
  entry _ _ _ _ _ _ := trivial
  drift w w' hw hdrift := by
    refine ⟨?_, ?_, fun _ => ⟨id, fun _ => id⟩⟩
    · rw [World.Timely, hdrift.approvals]
      exact hw
    · rintro id ⟨a, ha, hstatus, t, hexpires, hle⟩
      exact ⟨a, by rw [hdrift.approvals]; exact ha, hstatus, t, hexpires,
        hle.trans hdrift.now⟩
  step _ _ _ _ _ hw _ hmove hallowed :=
    ⟨hmove.timely hallowed hw, fun _ => hmove.undecided hallowed, trivial,
      fun _ _ => ⟨id, fun _ => id⟩⟩

theorem World.Initial.timely {w : World} (h : w.Initial) : w.Timely := by
  intro id a ha
  rw [h.approvals] at ha
  cases ha

/-- In runs in which no approver's decision is carried out on an approval that
is overdue, an approval is approved or rejected before its deadline or never;
one that is overdue may from then on only expire, and its instance is only
resumed by a rejection. -/
theorem overdue_approvals_only_expire {deps : Deps} {w : World} (hw : w.Initial)
    {c d : ServerConfig} (hc : Reaches (system deps) decisionsInTime ⟨w, []⟩ c)
    (hd : Reaches (system deps) decisionsInTime c d) {id : Uuid} :
    (∀ a, d.state.db.approvals.find? id = some a →
      a.status = .approved ∨ a.status = .rejected →
      ∀ t, a.expiresAt = some t → ∃ s, a.decidedAt = some s ∧ s < t) ∧
    (c.state.Overdue id →
      (∃ a, d.state.db.approvals.find? id = some a ∧
        (a.status = .pending ∨ a.status = .expired)) ∧
      ∀ n decision user, (n, Event.resumed id decision user) ∈ d.state.log →
        decision = .reject) := by
  have hat := ((deadlines deps).at_reaches
    ((deadlines deps).at_nil hw.timely fun _ => trivial) hc).1
  obtain ⟨hat', hgrow⟩ := (deadlines deps).at_reaches hat hd
  have hfree : Reaches (system deps) .free ⟨w, []⟩ d :=
    Reaches.relax (fun _ _ => trivial) (fun _ _ _ _ => trivial) (hc.trans hd)
  have hsettled := ((settlement deps).at_reaches
    ((settlement deps).at_nil hw.settlement fun _ => trivial) hfree).1.inv
  refine ⟨hat'.inv id, fun hoverdue => ?_⟩
  obtain ⟨a, ha, hstatus, -⟩ := hgrow id hoverdue.undecided
  refine ⟨⟨a, ha, hstatus⟩, fun n decision user hmem => ?_⟩
  obtain ⟨b, hb, hfits, -⟩ := hsettled.resumed n id decision user hmem
  rw [ha, Option.some.injEq] at hb
  subst hb
  cases decision with
  | reject => rfl
  | approve =>
      rw [ApprovalDecision.Fits] at hfits
      rw [hfits] at hstatus
      rcases hstatus with h | h <;> cases h

namespace Sample

/-- An approval has to be decided within a minute. -/
def urgentApproval : WorkflowGraph where
  entryStepId := "approve"
  steps :=
    [⟨"approve", "approve", .waitForApproval (.static approver.id) "file"
      "rejected" (some 60)⟩, ticket "file" "done", finish "done" .completed,
        finish "rejected" .rejected]

/-- A minute later. -/
def aMinuteLater (c : ServerConfig) : ServerConfig :=
  ⟨{ c.state with now := c.state.now + 60 }, c.threads⟩

theorem reaches_aMinuteLater (R : Regime World (Request × Nat))
    (c : ServerConfig) : Reaches (system deps) R c (aMinuteLater c) := by
  refine .single (.drift ?_)
  exact
    { now := Int.le_add_of_nonneg_right (by decide)
      definitions := fun id definition h => ⟨definition.isPublished, h⟩
      instances := rfl
      approvals := rfl
      tickets := rfl
      dispatches := rfl
      log := rfl }

/-- The approval is open when its minute is over. -/
def lapsed (R : Regime World (Request × Nat))
    [R.Checked] : Option ServerConfig :=
  (play R (world urgentApproval)
    (arrive (.start item.id requester) :: steps 0 100 15)).map aMinuteLater

theorem reaches_of_lapsed {R : Regime World (Request × Nat)} [R.Checked]
    {c : ServerConfig} (h : lapsed R = some c) :
    Reaches (system deps) R ⟨world urgentApproval, []⟩ c := by
  obtain ⟨b, hb, rfl⟩ := Option.map_eq_some_iff.mp h
  exact (System.play_reaches hb).trans (reaches_aMinuteLater R b)

/-- The approver approves after the poller had its chance to expire
the approval. -/
def expireThenApprove : Schedule :=
  arrive .poll :: steps 1 200 7 ++
    [arrive (.decide (id 106) approver.id .approve none)] ++ steps 2 300 1

/-- The last resumption: for which approval, and with which decision. -/
def resumption? (w : World) : Option (Uuid × ApprovalDecision) :=
  w.log.findSome? fun entry =>
    match entry.2 with
    | .resumed approvalId decision _ => some (approvalId, decision)
    | _ => none

/-- The approver is faster than the poller. -/
def approveLate : Schedule :=
  arrive (.decide (id 106) approver.id .approve none) :: steps 1 200 15

end Sample

theorem overdue_approvals_only_expire_polled :
    let c := (Sample.lapsed decisionsInTime).get (by decide)
    let d :=
      ((system Sample.deps).play decisionsInTime c Sample.expireThenApprove).get
        (by decide)
    c.state.Overdue (Sample.id 106) ∧
    ((∀ a, d.state.db.approvals.find? (Sample.id 106) = some a →
      a.status = .approved ∨ a.status = .rejected →
      ∀ t, a.expiresAt = some t → ∃ s, a.decidedAt = some s ∧ s < t) ∧
    (c.state.Overdue (Sample.id 106) →
      (∃ a, d.state.db.approvals.find? (Sample.id 106) = some a ∧
        (a.status = .pending ∨ a.status = .expired)) ∧
      ∀ n decision user,
        (n, Event.resumed (Sample.id 106) decision user) ∈ d.state.log →
        decision = .reject)) :=
  ⟨by decide, overdue_approvals_only_expire
    (Sample.initial Sample.urgentApproval)
    (Sample.reaches_of_lapsed (Option.some_get _).symm)
    (System.play_reaches (Option.some_get _).symm)⟩

/-- A minute after it was asked for, and before the poller has come by, the
approval is approved and its instance resumed. -/
theorem overdue_approval_approved :
    let c := (Sample.lapsed .free).get (by decide)
    let d :=
      ((system Sample.deps).play .free c Sample.approveLate).get (by decide)
    Reaches (system Sample.deps) .free
      ⟨Sample.world Sample.urgentApproval, []⟩ c ∧
    Reaches (system Sample.deps) .free c d ∧ c.state.Overdue (Sample.id 106) ∧
    (d.state.db.approvals.find? (Sample.id 106)).map PendingApproval.status =
      some .approved ∧
    Sample.resumption? d.state = some (Sample.id 106, .approve) ∧
    d.state.db.instances.rows.map WorkflowInstance.status = [.completed] :=
  ⟨Sample.reaches_of_lapsed (Option.some_get _).symm,
    System.play_reaches (Option.some_get _).symm, by
      decide, by decide, by decide,
    by decide⟩

end Servcat
