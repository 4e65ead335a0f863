/-
Submitting an answer twice.  A submission checks the row long before it inserts
an approval and saves the row, so two of them may put one step to approval
twice; they do not as long as no request writes behind the back of another that
has put the instance to approval.
-/
import Servcat.Concurrent.LostUpdates
import Servcat.Serial.Consistency

namespace Servcat

open Atomic Keyed

/-- The instance this entry of the log says an approval was inserted for. -/
def Event.opens? : Event → Option Uuid
  | .approvalCreated approval => some approval.workflowInstanceId
  | _ => none

/-- The row of the instance was saved. -/
def Event.saves (instanceId : Uuid) (event : Event) : Bool :=
  event.saved?.any fun save => save.1 = instanceId

/-- An approval was inserted for the instance, or it was saved as
awaiting one. -/
def Event.putsToApproval (instanceId : Uuid) (event : Event) : Bool :=
  event.opens? = some instanceId ||
    event.saved?.any fun save =>
      save.1 = instanceId && save.2.2 = .awaitingApproval

/-- The threads that have inserted an approval for the instance and not saved
its row since. -/
def openers (instanceId : Uuid) : List (Nat × Event) → List Nat
  | [] => []
  | (n, event) :: older =>
      if event.opens? = some instanceId then n :: openers instanceId older
      else if event.saves instanceId then
        (openers instanceId older).filter fun m => m ≠ n
      else openers instanceId older

/-- The thread inserts an approval only if nobody is between inserting one and
saving the row, and nobody has put the instance to approval since the thread
read the row; it saves the row only if nobody else has put the instance to
approval since. -/
def OpensAlone (n : Nat) (w w' : World) : Prop :=
  ∀ entry ∈ w.added w',
    (∀ instanceId ∈ entry.2.opens?, openers instanceId w.log = [] ∧
      ∀ other ∈ w.since n, other.2.putsToApproval instanceId = false) ∧
    ∀ save ∈ entry.2.saved?, ∀ other ∈ w.since n,
      other.2.putsToApproval save.1 = true → other.1 = n

instance (n : Nat) (w w' : World) : Decidable (OpensAlone n w w') :=
  inferInstanceAs (Decidable (∀ entry ∈ w.added w', _))

/-- Submissions that do not write behind each other's back. -/
def exclusiveSubmissions : Regime World (Request × Nat) :=
  ⟨fun request => request.1.isSubmit = true, OpensAlone⟩

instance : exclusiveSubmissions.Checked where
  arrives request := inferInstanceAs (Decidable (request.1.isSubmit = true))
  allowed n w w' := inferInstanceAs (Decidable (OpensAlone n w w'))

section Openers

variable {n m : Nat} {instanceId : Uuid} {event : Event}
  {log : List (Nat × Event)}

theorem not_mem_openers_cons (hne : m ≠ n) (h : m ∉ openers instanceId log) :
    m ∉ openers instanceId ((n, event) :: log) := by
  unfold openers
  split
  · exact List.not_mem_cons_of_ne_of_not_mem hne h
  · split
    · exact fun hmem => h (List.mem_filter.mp hmem).1
    · exact h

theorem openers_cons_of_not_saves (hsaves : event.saves instanceId = false)
    (h : openers instanceId log ≠ []) :
    openers instanceId ((n, event) :: log) ≠ [] := by
  unfold openers
  split
  · exact List.cons_ne_nil _ _
  · rw [hsaves]
    exact h

/-- A thread that has not inserted an approval ends nobody's turn by saving. -/
theorem openers_cons_of_not_mem (hn : n ∉ openers instanceId log)
    (h : openers instanceId log ≠ []) :
    openers instanceId ((n, event) :: log) ≠ [] := by
  unfold openers
  split
  · exact List.cons_ne_nil _ _
  · split
    · rwa [List.filter_eq_self.mpr fun k hk => by
        simpa using fun heq : k = n => hn (heq ▸ hk)]
    · exact h

end Openers

/-- What a submission that has read the row relies on until it inserts an
approval: it has not put the instance to approval, and if nobody has since
it read the row, a pending approval belongs to a thread that has yet to
save the row. -/
structure Ready (n : Nat) (w : World) (instanceId : Uuid) : Prop where
  unopened : n ∉ openers instanceId w.log
  own : ∀ entry ∈ w.since n,
    entry.1 = n → entry.2.putsToApproval instanceId = false
  attended : (∀ entry ∈ w.since n, entry.2.putsToApproval instanceId = false) →
    ∀ a ∈ w.db.approvals.rows, a.workflowInstanceId = instanceId →
      a.status = .pending → openers instanceId w.log ≠ []

/-- Only submissions are under way, in these stages. -/
def Stage.Submitting (n : Nat) (w : World) : Stage → Prop
  | .quiet => ∀ instanceId, n ∉ openers instanceId w.log
  | .loaded (.submit ..) row => Ready n w row.id
  | .driving t => Ready n w t.row.id
  | .opened .. | .saved .. => True
  | _ => False

/-- An instance has at most one pending approval, and it awaits that approval
unless some thread that inserted one has yet to save the row. -/
structure World.Exclusive (w : World) : Prop where
  awaited : ∀ a ∈ w.db.approvals.rows, a.status = .pending →
    (∀ row, w.db.instances.find? a.workflowInstanceId = some row →
      row.status = .awaitingApproval) ∨ openers a.workflowInstanceId w.log ≠ []
  unique : ∀ a ∈ w.db.approvals.rows, ∀ b ∈ w.db.approvals.rows,
    a.status = .pending → b.status = .pending →
      a.workflowInstanceId = b.workflowInstanceId → a = b

section Steps

variable {n m : Nat} {w w' : World} {instanceId : Uuid} {event : Event}

theorem reads?_ne (hne : n ≠ m) : reads? m (n, event) = none := by
  cases event <;> simp [reads?, hne]

theorem Ready.congr (h : Ready n w instanceId) (hlog : w'.log = w.log)
    (happrovals : w'.db.approvals = w.db.approvals) :
    Ready n w' instanceId where
  unopened := by rw [hlog]; exact h.unopened
  own := by simpa only [World.since, hlog] using h.own
  attended := by simpa only [World.since, hlog, happrovals] using h.attended

/-- What one entry of the log, and what came with it, has to leave as it is. -/
theorem Ready.extend (h : Ready m w instanceId)
    (hlog : w'.log = [(n, event)] ++ w.log)
    (hreads : reads? m (n, event) = none)
    (hopeners : m ∉ openers instanceId w'.log)
    (hown : n = m → event.putsToApproval instanceId = false)
    (hattended : event.putsToApproval instanceId = false →
      (∀ a ∈ w'.db.approvals.rows, a.workflowInstanceId = instanceId →
        a ∈ w.db.approvals.rows) ∧
      (openers instanceId w.log ≠ [] → openers instanceId w'.log ≠ [])) :
    Ready m w' instanceId := by
  have hsince : w'.since m = [(n, event)] ++ w.since m :=
    World.since_append (by simp [hreads]) hlog
  refine ⟨hopeners, fun entry hentry hm => ?_,
    fun hputs a ha hid hpending => ?_⟩
  · rw [hsince] at hentry
    rcases List.mem_cons.mp hentry with rfl | hentry
    · exact hown hm
    · exact h.own entry hentry hm
  · rw [hsince] at hputs
    obtain ⟨hrows, hkept⟩ := hattended (hputs _ List.mem_cons_self)
    exact hkept (h.attended (fun entry hentry =>
      hputs entry (List.mem_cons_of_mem _ hentry)) a (hrows a ha hid)
        hid hpending)

theorem Stage.Submitting.congr {stage : Stage} (h : stage.Submitting n w)
    (hlog : w'.log = w.log) (happrovals : w'.db.approvals = w.db.approvals) :
    stage.Submitting n w' := by
  cases stage with
  | quiet =>
      intro instanceId
      rw [hlog]
      exact h instanceId
  | loaded origin row => cases origin with
    | submit => exact Ready.congr h hlog happrovals
    | resume => exact h
  | driving t => exact Ready.congr h hlog happrovals
  | _ => exact h

theorem Stage.Submitting.extend {stage : Stage} (h : stage.Submitting m w)
    (hlog : w'.log = [(n, event)] ++ w.log)
    (hreads : reads? m (n, event) = none)
    (hopeners : ∀ instanceId, m ∉ openers instanceId w.log →
      m ∉ openers instanceId w'.log)
    (hown : n = m → ∀ instanceId, event.putsToApproval instanceId = false)
    (hattended : ∀ instanceId, event.putsToApproval instanceId = false →
      (∀ a ∈ w'.db.approvals.rows, a.workflowInstanceId = instanceId →
        a ∈ w.db.approvals.rows) ∧
      (openers instanceId w.log ≠ [] → openers instanceId w'.log ≠ [])) :
    stage.Submitting m w' := by
  have hready : ∀ instanceId, Ready m w instanceId → Ready m w' instanceId :=
    fun instanceId h => h.extend hlog hreads (hopeners _ h.unopened)
      (fun heq => hown heq instanceId) (hattended instanceId)
  cases stage with
  | quiet => exact fun instanceId => hopeners instanceId (h instanceId)
  | loaded origin row => cases origin with
    | submit => exact hready _ h
    | resume => exact h
  | driving t => exact hready _ h
  | _ => exact h

end Steps

theorem World.Exclusive.congr {w w' : World} (hw : w.Exclusive)
    (hlog : w'.log = w.log) (hinstances : w'.db.instances = w.db.instances)
    (happrovals : w'.db.approvals = w.db.approvals) : w'.Exclusive where
  awaited := by simpa only [hlog, hinstances, happrovals] using hw.awaited
  unique := by simpa only [happrovals] using hw.unique

/-- What a step does to the invariant and to the stages of all threads. -/
structure Preserves (n : Nat) (φ' : Phase) (w w' : World) : Prop where
  exclusive : w'.Exclusive
  mine : φ'.stage.Submitting n w'
  others : ∀ m, m ≠ n →
    ((∀ instanceId, m ∉ openers instanceId w.log) →
      ∀ instanceId, m ∉ openers instanceId w'.log) ∧
    ∀ stage : Stage, stage.Submitting m w → stage.Submitting m w'

namespace Preserves

variable {n : Nat} {φ φ' : Phase} {w w' : World} {event : Event}

theorem of_eq (hw : w.Exclusive) (hmine : φ'.stage.Submitting n w)
    (hlog : w'.log = w.log) (hinstances : w'.db.instances = w.db.instances)
    (happrovals : w'.db.approvals = w.db.approvals) : Preserves n φ' w w' where
  exclusive := hw.congr hlog hinstances happrovals
  mine := hmine.congr hlog happrovals
  others m _ := ⟨fun h => by simpa only [hlog] using h,
    fun stage h => h.congr hlog happrovals⟩

/-- The others, after a step that logs one entry. -/
theorem of_entry (hw : w'.Exclusive) (hmine : φ'.stage.Submitting n w')
    (hlog : w'.log = [(n, event)] ++ w.log)
    (hattended : ∀ instanceId, event.putsToApproval instanceId = false →
      (∀ a ∈ w'.db.approvals.rows, a.workflowInstanceId = instanceId →
        a ∈ w.db.approvals.rows) ∧
      (openers instanceId w.log ≠ [] → openers instanceId w'.log ≠ [])) :
    Preserves n φ' w w' := by
  have hopeners : ∀ m, m ≠ n → ∀ instanceId, m ∉ openers instanceId w.log →
      m ∉ openers instanceId w'.log := by
    intro m hne instanceId h
    rw [hlog]
    exact not_mem_openers_cons hne h
  exact ⟨hw, hmine, fun m hne =>
    ⟨fun h instanceId => hopeners m hne _ (h instanceId),
    fun stage h => h.extend hlog (reads?_ne hne.symm) (hopeners m hne)
      (fun heq => absurd heq.symm hne) hattended⟩⟩

/-- An entry that is about neither an approval nor a save. -/
theorem of_silent (hw : w.Exclusive) (hlog : w'.log = [(n, event)] ++ w.log)
    (hopens : event.opens? = none) (hsaved : event.saved? = none)
    (hinstances : w'.db.instances = w.db.instances)
    (happrovals : w'.db.approvals = w.db.approvals)
    (hmine : (∀ instanceId,
      openers instanceId w'.log = openers instanceId w.log) →
      φ'.stage.Submitting n w') : Preserves n φ' w w' := by
  have hopeners : ∀ instanceId,
      openers instanceId w'.log = openers instanceId w.log := by
    intro instanceId
    rw [hlog]
    simp [openers, hopens, Event.saves, hsaved]
  refine of_entry ⟨?_, by simpa only [happrovals] using hw.unique⟩
    (hmine hopeners) hlog
    fun instanceId _ =>
      ⟨fun a ha _ => happrovals ▸ ha, by rw [hopeners]; exact id⟩
  simpa only [hopeners, hinstances, happrovals] using hw.awaited

end Preserves

/-- Reading the row of an instance that is in progress. -/
theorem World.Exclusive.ready {w w' : World} {n : Nat} {row : WorkflowInstance}
    (hw : w.Exclusive) (hn : n ∉ openers row.id w'.log)
    (hrow : w.db.instances.find? row.id = some row)
    (hstatus : row.status = .inProgress) (hsince : w'.since n = [])
    (happrovals : w'.db.approvals = w.db.approvals)
    (hopeners : openers row.id w'.log = openers row.id w.log) :
    Ready n w' row.id := by
  refine ⟨hn, by simp [hsince], fun _ a ha hid hpending => ?_⟩
  rw [happrovals] at ha
  rw [hopeners, ← hid]
  refine (hw.awaited a ha hpending).resolve_left fun hawaiting => ?_
  have hstatus' := hawaiting row (by rw [hid]; exact hrow)
  rw [hstatus] at hstatus'
  cases hstatus'

/-- A submission saves the row as awaiting approval once it has inserted one,
and otherwise without having put the instance to approval. -/
theorem Stage.Saves.unattended {w : World} {n : Nat} {stage : Stage}
    {row : WorkflowInstance} {stepId : String} {answers : Answers}
    {status : InstanceStatus} (h : stage.Saves row stepId answers status)
    (hstage : stage.Submitting n w)
    (hothers : ∀ other ∈ w.since n, other.2.putsToApproval row.id = true →
      other.1 = n) :
    status = .awaitingApproval ∨ n ∉ openers row.id w.log ∧
      ∀ a ∈ w.db.approvals.rows, a.workflowInstanceId = row.id →
        a.status = .pending → openers row.id w.log ≠ [] := by
  have hready : Ready n w row.id → n ∉ openers row.id w.log ∧
      ∀ a ∈ w.db.approvals.rows, a.workflowInstanceId = row.id →
        a.status = .pending → openers row.id w.log ≠ [] := by
    refine fun hready =>
      ⟨hready.unopened, hready.attended fun entry hentry => ?_⟩
    by_contra hputs
    rw [Bool.not_eq_false] at hputs
    rw [hready.own entry hentry (hothers entry hentry hputs)] at hputs
    cases hputs
  cases h with
  | settled => exact Or.inr (hready hstage)
  | failed => exact Or.inr (hready hstage)
  | opened => exact Or.inl rfl

/-- Inserting an approval when no other is pending. -/
theorem World.Exclusive.open {w w' : World} {n : Nat}
    {approval : PendingApproval} {approvals : Table PendingApproval.id}
    (hw : w.Exclusive)
    (hnone : ∀ a ∈ w.db.approvals.rows,
      a.workflowInstanceId = approval.workflowInstanceId → a.status ≠ .pending)
    (hinsert : w.db.approvals.insert? approval = some approvals)
    (hw' : w' = w.commit n (w.db.withApprovals approvals)
      [.approvalCreated approval]) :
    w'.Exclusive := by
  subst hw'
  have hmem : ∀ a, a ∈ approvals.rows →
      a ∈ w.db.approvals.rows ∨ a = approval :=
    fun a => (Table.mem_insert hinsert).mp
  refine ⟨fun a ha hpending => ?_, fun a ha b hb hpending hpending' hid => ?_⟩
  · rcases hmem a ha with ha | rfl
    · exact (hw.awaited a ha hpending).imp id (openers_cons_of_not_saves rfl)
    · refine Or.inr ?_
      simp [World.commit, openers, Event.opens?]
  · rcases hmem a ha with holda | rfl <;> rcases hmem b hb with holdb | rfl
    · exact hw.unique a holda b holdb hpending hpending' hid
    · exact absurd hpending (hnone a holda hid)
    · exact absurd hpending' (hnone b holdb hid.symm)
    · rfl

/-- Saving the row, as awaiting approval or when a pending approval is another
thread's to save. -/
theorem World.Exclusive.save {w w' : World} {n : Nat} {row : WorkflowInstance}
    {stepId : String} {answers : Answers} {status : InstanceStatus}
    (hw : w.Exclusive)
    (hw' : w' = w.commit n
      (w.db.updateInstance row.id stepId (.object answers) status w.now)
      [.saved row.id stepId (.object answers) status])
    (hsave : status = .awaitingApproval ∨ n ∉ openers row.id w.log ∧
      ∀ a ∈ w.db.approvals.rows, a.workflowInstanceId = row.id →
        a.status = .pending → openers row.id w.log ≠ []) : w'.Exclusive := by
  subst hw'
  refine ⟨fun a ha hpending => ?_, hw.unique⟩
  rw [World.commit_db, Db.find?_updateInstance]
  by_cases hid : a.workflowInstanceId = row.id
  · rcases hsave with rfl | ⟨hn, hopeners⟩
    · refine Or.inl fun row' hrow' => ?_
      rw [if_pos hid] at hrow'
      obtain ⟨row'', -, rfl⟩ := Option.map_eq_some_iff.mp hrow'
      rfl
    · rw [hid]
      exact Or.inr (openers_cons_of_not_mem hn (hopeners a ha hid hpending))
  · rw [if_neg hid]
    refine (hw.awaited a ha hpending).imp id (openers_cons_of_not_saves ?_)
    simp [Event.saves, Event.saved?, Ne.symm hid]

theorem Move.preserves {n : Nat} {φ φ' : Phase} {w w' : World}
    (h : Move n φ w φ' w') (hsubmits : φ.submits = true) (hw : w.Exclusive)
    (hstage : φ.stage.Submitting n w)
    (hallowed : OpensAlone n w w') : Preserves n φ' w w' := by
  cases h with
  | look h =>
      refine .of_eq hw ?_ rfl rfl rfl
      cases h with
      | nothing | approvals => exact hstage
      | definition hnot =>
          rw [hsubmits] at hnot
          cases hnot
      | @task origin t hloaded _ _ =>
          rw [hloaded] at hstage
          cases origin with
          | submit => exact hstage
          | resume => exact hstage.elim
  | @remark _ event h =>
      have hevent : event.opens? = none ∧ event.saved? = none ∧
          reads? n (n, event) = none := by
        cases event with
        | notified | expiryResumeFailed => exact ⟨rfl, rfl, rfl⟩
        | _ => cases h
      refine .of_silent hw rfl hevent.1 hevent.2.1 rfl rfl fun hopeners => ?_
      refine hstage.extend rfl hevent.2.2
        (fun id h => by rw [hopeners]; exact h)
        (fun _ id => by simp [Event.putsToApproval, hevent.1, hevent.2.1])
        fun id _ => ⟨fun a ha _ => ha, by rw [hopeners]; exact fun h => h⟩
  | create hdefined =>
      rw [hdefined] at hstage
      exact hstage.elim
  | @load w row stage hrow h =>
      refine .of_silent hw rfl rfl rfl rfl rfl fun hopeners => ?_
      cases h with
      | turnedAway hquiet =>
          rw [hquiet] at hstage
          exact fun id => by rw [hopeners]; exact hstage id
      | submit fieldKey value hquiet hstatus =>
          rw [hquiet] at hstage
          exact hw.ready (by rw [hopeners]; exact hstage _) hrow hstatus
            (World.since_began ..) rfl (hopeners _)
      | resume hresuming =>
          rw [hresuming] at hstage
          exact hstage.elim
      | start hcreated =>
          rw [hcreated] at hstage
          exact hstage.elim
  | tickets | dispatch => exact .of_eq hw hstage rfl rfl rfl
  | @openApproval w t resolution timeoutSeconds approval approvals
      hdriving h hid hpending hinsert =>
      rw [hdriving] at hstage
      obtain ⟨hopeners, hsince⟩ := (hallowed (n, .approvalCreated approval) (by
        rw [World.added_commit]
        exact List.mem_singleton_self _)).1 approval.workflowInstanceId rfl
      rw [hid] at hopeners hsince
      refine .of_entry (hw.open (fun a ha hid' hpending' => ?_) hinsert rfl)
        trivial rfl
        fun id hputs => ⟨fun a ha hid' => ?_, openers_cons_of_not_saves rfl⟩
      · exact hstage.attended hsince a ha (hid'.trans hid) hpending' hopeners
      · rcases (Table.mem_insert hinsert).mp ha with ha | rfl
        · exact ha
        · simp [Event.putsToApproval, Event.opens?, hid'] at hputs
  | @save w row stepId answers status h =>
      have hothers :=
        (hallowed (n, .saved row.id stepId (.object answers) status) (by
          rw [World.added_commit]
          exact List.mem_singleton_self _)).2 _ rfl
      have hsave := h.unattended hstage hothers
      refine .of_entry (hw.save rfl hsave) trivial rfl
        fun id hputs => ⟨fun a ha _ => ha, fun hopeners => ?_⟩
      by_cases hid : row.id = id
      · subst hid
        rcases hsave with rfl | ⟨hn, -⟩
        · simp [Event.putsToApproval, Event.opens?, Event.saved?] at hputs
        · exact openers_cons_of_not_mem hn hopeners
      · exact openers_cons_of_not_saves
          (by simp [Event.saves, Event.saved?, hid]) hopeners
  | flip hnot =>
      rw [hsubmits] at hnot
      cases hnot
  | resume hflipped =>
      rw [hflipped] at hstage
      exact hstage.elim

/-- The proof outline: at most one approval of an instance is pending. -/
def exclusivity (deps : Deps) : Outline (phases deps) exclusiveSubmissions where
  inv := World.Exclusive
  holds n φ w := φ.submits = true ∧ φ.stage.Submitting n w
  absent n w := ∀ instanceId, n ∉ openers instanceId w.log
  grow _ _ := True
  grow_refl _ := trivial
  grow_trans _ _ := trivial
  entry n request w harrives _ habsent := ⟨harrives, habsent⟩
  drift w w' hw hdrift := by
    refine ⟨hw.congr hdrift.log hdrift.instances hdrift.approvals,
      trivial, fun n =>
      ⟨fun habsent => ?_, fun φ hφ =>
        ⟨hφ.1, hφ.2.congr hdrift.log hdrift.approvals⟩⟩⟩
    rw [hdrift.log]
    exact habsent
  step n φ φ' w w' hw hφ hmove hallowed := by
    have hpreserves := hmove.preserves hφ.1 hw hφ.2 hallowed
    exact ⟨hpreserves.exclusive, trivial,
      ⟨hmove.extends.1.trans hφ.1, hpreserves.mine⟩, fun m hne =>
        ⟨(hpreserves.others m hne).1, fun ψ hψ =>
          ⟨hψ.1, (hpreserves.others m hne).2 _ hψ.2⟩⟩⟩

/-- Operations executed one at a time leave a state to start from. -/
theorem Serial.exclusive {deps : Deps} {w w' : World} (hw : w.Initial)
    (h : Serial deps anyOperation w w') : w'.unlogged.Exclusive := by
  have hagrees : ∀ a ∈ w'.db.approvals.rows,
      a ∈ (w'.core.view a.workflowInstanceId).approvals ∧ ∃ row graph,
        w'.db.instances.find? a.workflowInstanceId = some row ∧
          (w'.core.view a.workflowInstanceId).Agrees graph row := by
    intro a ha
    have hview : a ∈ (w'.core.view a.workflowInstanceId).approvals :=
      List.mem_filter.mpr ⟨ha, by simp⟩
    have hconsistent := h.consistent hw.consistent a.workflowInstanceId
    obtain ⟨row, hrow⟩ :=
      hconsistent.present (Or.inl (List.ne_nil_of_mem hview))
    obtain ⟨graph, -, hagrees⟩ := hconsistent.of_row hrow
    exact ⟨hview, row, graph, hrow, hagrees⟩
  refine ⟨fun a ha hpending => Or.inl fun row hrow => ?_,
    fun a ha b hb hpending hpending' hid => ?_⟩
  · obtain ⟨hview, row', graph, hrow', hagrees⟩ := hagrees a ha
    rw [show w'.db.instances.find? a.workflowInstanceId = some row from hrow,
      Option.some.injEq] at hrow'
    subst hrow'
    exact (hagrees.pending a hview hpending).1
  · obtain ⟨hview, row, graph, -, hagrees'⟩ := hagrees a ha
    exact hagrees'.unique a hview b (by rw [hid]; exact (hagrees b hb).1)
      hpending hpending'

/-- Whatever submissions run concurrently, as long as none of them writes behind
the back of another that has put the instance to approval, an instance never has
two pending approvals. -/
theorem one_pending_approval {deps : Deps} {w₀ w : World} (hw₀ : w₀.Initial)
    (hserial : Serial deps anyOperation w₀ w) {c : ServerConfig}
    (hc : Reaches (system deps) exclusiveSubmissions ⟨w.unlogged, []⟩ c)
    {a b : PendingApproval} (ha : a ∈ c.state.db.approvals.rows)
    (hb : b ∈ c.state.db.approvals.rows) (hpending : a.status = .pending)
    (hpending' : b.status = .pending)
    (hid : a.workflowInstanceId = b.workflowInstanceId) :
    a = b := by
  have hat := ((exclusivity deps).at_reaches ((exclusivity deps).at_nil
    (hserial.exclusive hw₀) fun n id => by simp [World.unlogged, openers]) hc).1
  exact hat.inv.unique a ha b hb hpending hpending' hid

namespace Sample

/-- The instance is at its question. -/
def unanswered : World :=
  ((run [.start item.id requester] 1 (world questionThenApproval)).get
    (by decide)).unlogged

/-- The question is answered twice; each request reads the row before the other
saves it. -/
def answeredTwice : Option ServerConfig :=
  play submissions unanswered
    ([arrive (submit "reason"), arrive (submit "reason")] ++ steps 0 200 1 ++
      steps 1 300 12 ++ steps 0 201 11)

end Sample

theorem one_pending_approval_submitted :
    let c := (Sample.play exclusiveSubmissions Sample.unanswered
      ([Sample.arrive (Sample.submit "reason"),
        Sample.arrive (Sample.submit "reason")] ++
        Sample.steps 0 200 12 ++ Sample.steps 1 300 1)).get (by decide)
    c.state.db.approvals.rows.map PendingApproval.status = [.pending] ∧
    ∀ a ∈ c.state.db.approvals.rows, ∀ b ∈ c.state.db.approvals.rows,
      a.status = .pending → b.status = .pending →
        a.workflowInstanceId = b.workflowInstanceId → a = b :=
  ⟨by decide, fun _ ha _ hb => one_pending_approval
    (Sample.initial Sample.questionThenApproval)
    (Sample.serial_of_run (by simp [anyOperation])
      (by simp [Operation.Admissible]) (Option.some_get _).symm)
    (System.play_reaches (Option.some_get _).symm) ha hb⟩

/-- Both requests find the row in progress at the question, and both insert an
approval for the step behind it. -/
theorem two_pending_approvals :
    let c := Sample.answeredTwice.get (by decide)
    (∃ w, (Sample.world Sample.questionThenApproval).Initial ∧
      Serial Sample.deps anyOperation
        (Sample.world Sample.questionThenApproval) w ∧
      Sample.unanswered = w.unlogged) ∧
    Reaches (system Sample.deps) submissions ⟨Sample.unanswered, []⟩ c ∧
    ¬ ∀ a ∈ c.state.db.approvals.rows, ∀ b ∈ c.state.db.approvals.rows,
      a.status = .pending → b.status = .pending →
        a.workflowInstanceId = b.workflowInstanceId → a = b :=
  ⟨⟨_, Sample.initial _, Sample.serial_of_run (by simp [anyOperation])
      (by simp [Operation.Admissible]) (Option.some_get _).symm, rfl⟩,
    System.play_reaches (Option.some_get _).symm, by decide⟩

end Servcat
