/-
Who decides approvals, and who is told of them: however requests interleave and
whatever fails, an approval is settled by its approver or at its deadline, and
nobody but its approver is told of it, once at most.
-/
import Servcat.Atomic.Labels
import Servcat.Atomic.Moments
import Servcat.Portal.Hearing

namespace Servcat

open Atomic Keyed

/-- The request has made the row what it is. -/
inductive PortalRequest.Settles (request : PortalRequest)
    (a : PendingApproval) : Prop
  | decided {decision : ApprovalDecision} {t : Timestamp}
      (h : request.Decides a.approverUserId a.id decision a.comment)
      (hstatus : a.status = Approvals.statusOf decision)
      (hdecided : a.decidedAt = some t)
  | expired {t t' : Timestamp} (hpoll : request = .poll)
      (hstatus : a.status = .expired)
      (hcomment : a.comment = some PendingApproval.autoExpired)
      (hexpires : a.expiresAt = some t) (hdecided : a.decidedAt = some t')
      (hle : t ≤ t')

/-- A row that is pending says nothing else, and any other was settled
by a request. -/
def PendingApproval.Accounted (A : PortalRequest → Prop)
    (a : PendingApproval) : Prop :=
  (a.status = .pending ∧ a.comment = none ∧ a.decidedAt = none) ∨
    ∃ request, A request ∧ request.Settles a

namespace World

/-- The approvals that were opened, newest first. -/
def opened (w : World) : List Uuid :=
  w.log.filterMap fun entry => entry.2.opensApproval?

/-- The approvals that somebody was told of, newest first. -/
def told (w : World) : List Uuid :=
  w.log.filterMap fun entry => entry.2.tellsOf?

/-- The notification is about an approval that was opened, and goes to the row
of its approver.  It names the row of the user who requested the instance that
the approval is about, the item of that instance, and the timezone that was set.
`V` are the states in which these rows were found. -/
structure Tells (V : World → Prop) (w : World)
    (notification : NewApprovalNotification) :
    Prop where
  read : ∃ a, w.db.approvals.find? notification.approval.id = some a ∧
    notification.approval.Remains a
  approver : ∃ v, V v ∧ v.db.users.find? notification.approval.approverUserId =
    some notification.approver
  about : ∃ row v v',
    w.db.instances.find? notification.approval.workflowInstanceId = some row ∧
    V v ∧ v.db.users.find? row.requesterUserId = some notification.requester ∧
    V v' ∧ notification.catalogItemName =
      ((v'.db.items.find? row.catalogItemId).map ServiceCatalogItem.name).getD
        "(deleted service)"
  timezone : ∃ v, V v ∧ v.db.orgSettings.timezone = notification.orgTimezone

/-- What the table and the log say of approvals, where the threads found the
states `V`. -/
structure Heard (A : PortalRequest → Prop) (V : Nat → World → Prop)
    (w : World) : Prop where
  rows : ∀ id a, w.db.approvals.find? id = some a → a.Accounted A
  created : ∀ n a, (n, Event.approvalCreated a) ∈ w.log →
    ∃ b, w.db.approvals.find? a.id = some b ∧ a.Remains b
  notified : ∀ n notification, (n, Event.notified notification) ∈ w.log →
    Tells (V n) w notification
  openedOnce : w.opened.Nodup
  toldOnce : w.told.Nodup

end World

/-- What thread `n` relies on. -/
structure Hearing.Holds (A : PortalRequest → Prop) (V : Nat → World → Prop)
    (n : Nat) (w : World) (φ : Hearing) : Prop where
  request : A φ.request
  facts : ∀ fact ∈ φ.facts, fact.Holds (V n) w
  opened : ∀ a, φ.opened = some a →
    (n, Event.approvalCreated a) ∈ w.log ∧ a.id ∉ w.told ∧ Fact.read a ∈ φ.facts

section Steps

variable {A : PortalRequest → Prop} {V : Nat → World → Prop} {w w' : World}
  {n m : Nat} {φ φ' ψ : Hearing}

theorem World.mem_opened {id : Uuid} :
    id ∈ w.opened ↔ ∃ n a,
      (n, Event.approvalCreated a) ∈ w.log ∧ a.id = id := by
  constructor
  · intro h
    obtain ⟨⟨n, event⟩, hmem, hevent⟩ := List.mem_filterMap.mp h
    cases event <;> cases hevent
    exact ⟨n, _, hmem, rfl⟩
  · rintro ⟨n, a, hmem, rfl⟩
    exact List.mem_filterMap.mpr ⟨_, hmem, rfl⟩

theorem World.mem_told {id : Uuid} :
    id ∈ w.told ↔ ∃ n notification, (n, Event.notified notification) ∈ w.log ∧
      notification.approval.id = id := by
  constructor
  · intro h
    obtain ⟨⟨n, event⟩, hmem, hevent⟩ := List.mem_filterMap.mp h
    cases event <;> cases hevent
    exact ⟨n, _, hmem, rfl⟩
  · rintro ⟨n, notification, hmem, rfl⟩
    exact List.mem_filterMap.mpr ⟨_, hmem, rfl⟩

/-- Only one thread opens an approval. -/
theorem World.Heard.owner (hw : w.Heard A V) {a b : PendingApproval}
    (ha : (n, Event.approvalCreated a) ∈ w.log)
    (hb : (m, Event.approvalCreated b) ∈ w.log)
    (hid : a.id = b.id) : n = m := by
  by_contra hne
  have hsymm : Std.Symm fun e f : Nat × Event => ∀ id,
      e.2.opensApproval? = some id →
      ∀ id', f.2.opensApproval? = some id' → id ≠ id' :=
    ⟨fun e f hef id' hf id he heq => hef id he id' hf heq.symm⟩
  have hpairs := (List.pairwise_filterMap.mp hw.openedOnce).forall ha hb
    fun heq => hne (congrArg Prod.fst heq)
  exact hpairs a.id rfl b.id rfl hid

theorem World.Remembers.tells (h : w.Remembers w') {found : World → Prop}
    {notification : NewApprovalNotification}
    (hw : World.Tells found w notification) :
    World.Tells found w' notification where
  read := h.read hw.read
  approver := hw.approver
  about := by
    obtain ⟨row, v, v', hrow, hv, hrequester, hv', hname⟩ := hw.about
    obtain ⟨row', hrow', hrequesterId, hitemId⟩ := h.instances _ row hrow
    refine ⟨row', v, v', hrow', hv, ?_, hv', ?_⟩
    · rw [hrequesterId]
      exact hrequester
    · rw [hitemId]
      exact hname
  timezone := hw.timezone

/-- Nobody has been told yet of an approval that is not there. -/
theorem World.Heard.unknown (hw : w.Heard A V) {id : Uuid}
    (hnone : w.db.approvals.find? id = none) : id ∉ w.opened ∧ id ∉ w.told := by
  constructor
  · intro hmem
    obtain ⟨n, a, hevent, rfl⟩ := World.mem_opened.mp hmem
    obtain ⟨b, hb, -⟩ := hw.created n a hevent
    cases hnone.symm.trans hb
  · intro hmem
    obtain ⟨n, notification, hevent, rfl⟩ := World.mem_told.mp hmem
    obtain ⟨b, hb, -⟩ := (hw.notified n notification hevent).read
    cases hnone.symm.trans hb

theorem World.opened_append {newer : List (Nat × Event)}
    (h : ∀ entry ∈ newer, entry.2.Unheard) (hlog : w'.log = newer ++ w.log) :
    w'.opened = w.opened := by
  have hnone : newer.filterMap (fun entry => entry.2.opensApproval?) = [] :=
    List.filterMap_eq_nil_iff.mpr fun entry hentry => (h entry hentry).1
  rw [opened, hlog, List.filterMap_append, hnone]
  rfl

theorem World.told_append {newer : List (Nat × Event)}
    (h : ∀ entry ∈ newer, entry.2.Unheard) (hlog : w'.log = newer ++ w.log) :
    w'.told = w.told := by
  have hnone : newer.filterMap (fun entry => entry.2.tellsOf?) = [] :=
    List.filterMap_eq_nil_iff.mpr fun entry hentry => (h entry hentry).2
  rw [told, hlog, List.filterMap_append, hnone]
  rfl

/-- Steps that the log says nothing about. -/
theorem World.Heard.unheard (hw : w.Heard A V) (hremembers : w.Remembers w')
    (hrows : ∀ id a, w'.db.approvals.find? id = some a → a.Accounted A)
    {newer : List (Nat × Event)} (hunheard : ∀ entry ∈ newer, entry.2.Unheard)
    (hlog : w'.log = newer ++ w.log) : w'.Heard A V := by
  have hold : ∀ entry ∈ w'.log, ¬ entry.2.Unheard → entry ∈ w.log := by
    intro entry hentry hheard
    rw [hlog] at hentry
    exact (List.mem_append.mp hentry).resolve_left fun hnew =>
      hheard (hunheard entry hnew)
  exact
    { rows := hrows
      created := fun m a hmem => hremembers.read <|
        hw.created m a (hold _ hmem fun h => by cases h.1)
      notified := fun m notification hmem => hremembers.tells <|
        hw.notified m notification (hold _ hmem fun h => by cases h.2)
      openedOnce := by rw [opened_append hunheard hlog]; exact hw.openedOnce
      toldOnce := by rw [told_append hunheard hlog]; exact hw.toldOnce }

theorem Hearing.Holds.keeps (hψ : ψ.Holds A V m w) (hremembers : w.Remembers w')
    {newer : List (Nat × Event)} (hlog : w'.log = newer ++ w.log)
    (htold : ∀ a, ψ.opened = some a → a.id ∉ w.told → a.id ∉ w'.told) :
    ψ.Holds A V m w' where
  request := hψ.request
  facts fact hfact := hremembers.holds (hψ.facts fact hfact)
  opened a ha := by
    obtain ⟨hcreated, hnot, hfirst⟩ := hψ.opened a ha
    refine ⟨?_, htold a ha hnot, hfirst⟩
    rw [hlog]
    exact List.mem_append_right _ hcreated

/-- Settling an approval, in a way that a request accounts for. -/
theorem World.Heard.settle (hw : w.Heard A V) {approval : PendingApproval}
    {status : ApprovalStatus} {comment : Option String} {events : List Event}
    (hread : Fact.Holds (V n) w (.read approval))
    (hunheard : ∀ event ∈ events, event.Unheard)
    (hsettles : ∀ a, approval.Remains a → ∃ request, A request ∧
      request.Settles { a with status, comment, decidedAt := some w.now }) :
    let w' :=
      w.commit n (w.db.updateApproval approval.id status comment w.now) events
    w'.Heard A V ∧ w.Remembers w' ∧ ∀ m ψ, Hearing.Holds A V m w ψ →
      ψ.Holds A V m w' := by
  intro w'
  have hfind : ∀ id, w'.db.approvals.find? id =
      if id = approval.id then
        (w.db.approvals.find? id).map (Db.decided status comment w.now)
      else w.db.approvals.find? id :=
    Db.find?_updateApproval w.db approval.id status comment w.now
  have hremembers : w.Remembers w' := by
    refine ⟨fun id a ha => ?_, fun id row hrow => ⟨row, hrow, rfl, rfl⟩,
      le_refl _⟩
    rw [hfind, ha]
    split
    · exact ⟨_, rfl, .decided a _ _ _⟩
    · exact ⟨a, rfl, .refl a⟩
  have hlog : w'.log = events.map (fun event => (n, event)) ++ w.log := rfl
  have hentries : ∀ entry ∈ events.map fun event => (n, event),
      entry.2.Unheard := by
    intro entry hentry
    obtain ⟨event, hevent, rfl⟩ := List.mem_map.mp hentry
    exact hunheard event hevent
  refine ⟨hw.unheard hremembers (fun id a' ha' => ?_) hentries hlog, hremembers,
    fun m ψ hψ => hψ.keeps hremembers hlog fun a _ hnot => ?_⟩
  · obtain ⟨b, hb, hremains⟩ := hread
    rw [hfind] at ha'
    split at ha'
    · rename_i hid
      rw [hid, hb, Option.map_some, Option.some.injEq] at ha'
      rw [← ha', Db.decided]
      split
      · exact .inr (hsettles b hremains)
      · exact hw.rows _ b hb
    · exact hw.rows id a' ha'
  · rw [told_append hentries hlog]
    exact hnot

/-- A row is inserted, of which nobody has been told. -/
theorem World.Heard.opens (hw : w.Heard A V) (hφ : φ.Holds A V n w)
    {approval : PendingApproval} {approvals : Table PendingApproval.id}
    (hpending : approval.status = .pending) (hcomment : approval.comment = none)
    (hdecided : approval.decidedAt = none)
    (hinsert : w.db.approvals.insert? approval = some approvals) :
    let w' :=
      w.commit n (w.db.withApprovals approvals) [.approvalCreated approval]
    w'.Heard A V ∧ w.Remembers w' ∧ Hearing.Holds A V n w'
        { φ with facts := .read approval :: φ.facts, opened := some approval } ∧
      ∀ m ψ, Hearing.Holds A V m w ψ → ψ.Holds A V m w' := by
  intro w'
  have hfind : ∀ id, w'.db.approvals.find? id =
      if id = approval.id then some approval else w.db.approvals.find? id :=
    Table.find?_insert hinsert
  have hremembers : w.Remembers w' :=
    ⟨fun id a ha => ⟨a, Table.find?_insert_of_some hinsert ha, .refl a⟩,
      fun id row hrow => ⟨row, hrow, rfl, rfl⟩, le_refl _⟩
  have hlog : w'.log = [(n, .approvalCreated approval)] ++ w.log := rfl
  have htold : w'.told = w.told := rfl
  obtain ⟨hunopened, huntold⟩ :=
    hw.unknown (Table.insert?_eq_some_iff.mp hinsert).1
  have hothers : ∀ m ψ, Hearing.Holds A V m w ψ → ψ.Holds A V m w' :=
    fun m ψ hψ =>
      hψ.keeps hremembers hlog fun _ _ hnot => hnot
  refine ⟨⟨fun id a ha => ?_, fun m a hmem => ?_, fun m notification hmem => ?_,
    List.nodup_cons.mpr ⟨hunopened, hw.openedOnce⟩, hw.toldOnce⟩, hremembers,
      ?_, hothers⟩
  · rw [hfind] at ha
    split at ha
    · obtain rfl := Option.some.inj ha
      exact .inl ⟨hpending, hcomment, hdecided⟩
    · exact hw.rows id a ha
  · rcases List.mem_cons.mp hmem with heq | hmem
    · cases heq
      exact ⟨approval, Table.find?_inserted hinsert, .refl approval⟩
    · exact hremembers.read (hw.created m a hmem)
  · rcases List.mem_cons.mp hmem with heq | hmem
    · cases heq
    · exact hremembers.tells (hw.notified m notification hmem)
  · refine ⟨hφ.request, fun fact hfact => ?_, ?_⟩
    · rcases List.mem_cons.mp hfact with rfl | hfact
      · exact ⟨approval, Table.find?_inserted hinsert, .refl approval⟩
      · exact (hothers n φ hφ).facts fact hfact
    · rintro _ ⟨⟩
      exact ⟨List.mem_cons_self, huntold, List.mem_cons_self⟩

/-- What is told is what was found. -/
theorem tells_of_facts {found : World → Prop} {facts : List Fact}
    (hholds : ∀ fact ∈ facts, fact.Holds found w) {approval : PendingApproval}
    {notification : NewApprovalNotification}
    (hid : notification.approval.id = approval.id)
    (hread : .read notification.approval ∈ facts)
    (hfirst : .read approval ∈ facts)
    (happrover : notification.approver.id =
      notification.approval.approverUserId)
    (hknown : notification.facts approval.workflowInstanceId ⊆ facts) :
    World.Tells found w notification := by
  -- The row that was read back is about the instance that it was inserted for.
  have hinstance :=
    Fact.Holds.instance_eq (hholds _ hread) (hholds _ hfirst) hid
  rw [← hinstance] at hknown
  have happrover' : Fact.Holds found w (.user notification.approver) :=
    hholds _ (hknown (by simp [NewApprovalNotification.facts]))
  have huser : Fact.Holds found w (.user notification.requester) :=
    hholds _ (hknown (by simp [NewApprovalNotification.facts]))
  have hrequested : Fact.Holds found w (.requested
      notification.approval.workflowInstanceId notification.requester.id) :=
    hholds _ (hknown (by simp [NewApprovalNotification.facts]))
  have hnamed : Fact.Holds found w (.named
      notification.approval.workflowInstanceId notification.catalogItemName) :=
    hholds _ (hknown (by simp [NewApprovalNotification.facts]))
  have hzone : Fact.Holds found w (.zone notification.orgTimezone) :=
    hholds _ (hknown (by simp [NewApprovalNotification.facts]))
  refine ⟨hholds _ hread, ?_, ?_, hzone⟩
  · rw [← happrover]
    exact happrover'
  · obtain ⟨row, hrow, hrequester⟩ := hrequested
    obtain ⟨v, hv, hfound⟩ := huser
    obtain ⟨row', v', hrow', hv', hname⟩ := hnamed
    cases hrow.symm.trans hrow'
    exact ⟨row, v, v', hrow, hv, hrequester ▸ hfound, hv', hname⟩

/-- The approver is told of the approval that the thread has opened. -/
theorem World.Heard.tells (hw : w.Heard A V) (hφ : φ.Holds A V n w)
    {approval : PendingApproval} {notification : NewApprovalNotification}
    (hopened : φ.opened = some approval)
    (hid : notification.approval.id = approval.id)
    (hread : .read notification.approval ∈ φ.facts)
    (happrover : notification.approver.id =
      notification.approval.approverUserId)
    (hknown : notification.facts approval.workflowInstanceId ⊆ φ.facts) :
    let w' := w.record n (.notified notification)
    w'.Heard A V ∧ w.Remembers w' ∧
      Hearing.Holds A V n w' { φ with opened := none } ∧
      ∀ m ψ, m ≠ n → Hearing.Holds A V m w ψ → ψ.Holds A V m w' := by
  intro w'
  obtain ⟨hcreated, huntold, hfirst⟩ := hφ.opened approval hopened
  have hremembers : w.Remembers w' := .of_eq rfl rfl (le_refl _)
  have hlog : w'.log = [(n, .notified notification)] ++ w.log := rfl
  have htold : w'.told = notification.approval.id :: w.told := rfl
  have hnew : World.Tells (V n) w' notification :=
    hremembers.tells (tells_of_facts hφ.facts hid hread hfirst happrover hknown)
  refine ⟨⟨hw.rows, fun m a hmem => ?_, fun m notification' hmem => ?_,
    hw.openedOnce, ?_⟩, hremembers, ⟨hφ.request, hφ.facts,
    fun _ h => by cases h⟩, fun m ψ hm hψ =>
      hψ.keeps hremembers hlog fun a ha hnot => ?_⟩
  · rcases List.mem_cons.mp hmem with heq | hmem
    · cases heq
    · exact hw.created m a hmem
  · rcases List.mem_cons.mp hmem with heq | hmem
    · cases heq
      exact hnew
    · exact hremembers.tells (hw.notified m notification' hmem)
  · rw [htold, hid]
    exact List.nodup_cons.mpr ⟨huntold, hw.toldOnce⟩
  · rw [htold, hid]
    refine fun hmem => (List.mem_cons.mp hmem).elim (fun heq => hm ?_) hnot
    exact hw.owner (hψ.opened a ha).1 hcreated heq

/-- One step of a thread keeps what the table and the log say, and what the
others rely on. -/
theorem Heeds.heard (h : Heeds n φ w φ' w') (hV : V n w) (hw : w.Heard A V)
    (hφ : φ.Holds A V n w) :
    w'.Heard A V ∧ w.Remembers w' ∧ φ'.Holds A V n w' ∧
      ∀ m ψ, m ≠ n → Hearing.Holds A V m w ψ → ψ.Holds A V m w' := by
  cases h with
  | aside facts newer happrovals hremembers hlog hunheard hfacts =>
      have hkeeps : ∀ m ψ, Hearing.Holds A V m w ψ → ψ.Holds A V m w' :=
        fun m ψ hψ =>
          hψ.keeps hremembers hlog fun _ _ hnot => by
            rw [World.told_append hunheard hlog]
            exact hnot
      have hφ' := hkeeps n φ hφ
      refine ⟨hw.unheard hremembers (by rw [happrovals]; exact hw.rows)
        hunheard hlog, hremembers,
        ⟨hφ'.request, fun fact hfact => ?_, fun a ha => ?_⟩,
        fun m ψ _ => hkeeps m ψ⟩
      · exact (List.mem_append.mp hfact).elim (hfacts (V n) hV hφ.facts fact)
          (hφ'.facts fact)
      · obtain ⟨hcreated, hnot, hfirst⟩ := hφ'.opened a ha
        exact ⟨hcreated, hnot, List.mem_append_right _ hfirst⟩
  | opens hpending hcomment hdecided hinsert =>
      obtain ⟨hw', hremembers, hφ', hothers⟩ :=
        hw.opens hφ hpending hcomment hdecided hinsert
      exact ⟨hw', hremembers, hφ', fun m ψ _ => hothers m ψ⟩
  | tells hopened hid hread happrover hknown =>
      exact hw.tells hφ hopened hid hread happrover hknown
  | decides hread hdecides hunheard =>
      obtain ⟨hw', hremembers, hkeeps⟩ := hw.settle (hφ.facts _ hread) hunheard
        fun a hremains => by
          obtain ⟨_, _, _, rfl⟩ := hremains.about
          exact ⟨_, hφ.request, .decided hdecides rfl rfl⟩
      exact ⟨hw', hremembers, hkeeps n _ hφ, fun m ψ _ => hkeeps m ψ⟩
  | expires hread hdue hpoll hunheard =>
      obtain ⟨t, ht, hle⟩ := hφ.facts _ hdue
      obtain ⟨hw', hremembers, hkeeps⟩ := hw.settle (hφ.facts _ hread) hunheard
        fun a hremains => by
          obtain ⟨_, _, _, rfl⟩ := hremains.about
          exact ⟨_, hφ.request, .expired hpoll rfl rfl ht rfl hle⟩
      exact ⟨hw', hremembers, hkeeps n _ hφ, fun m ψ _ => hkeeps m ψ⟩

end Steps

theorem World.Drift.remembers {w w' : World}
    (h : w.Drift w') : w.Remembers w' :=
  .of_eq h.approvals h.instances h.now

section Runs

variable (deps : Deps) (pages : PageDeps)

def hearing : Cover (portal deps pages) Hearing where
  move := Heeds
  entry request := ⟨request.1, [], none⟩
  post _ _ _ := True
  follows _ request :=
    (serve_hears pages request ⟨request.1, [], none⟩ rfl).mono
    fun _ _ _ => trivial

/-- In runs through `V`, of such requests. -/
def heard (A : PortalRequest → Prop) (V : Nat → World → Prop) :
    Outline (hearing deps pages)
      ((Regime.free.during V).among fun request => A request.1) where
  inv := World.Heard A V
  holds n φ w := φ.Holds A V n w
  absent _ _ := True
  grow := World.Remembers
  grow_refl := .refl
  grow_trans := .trans
  entry _ _ _ hA _ _ := ⟨hA, by simp [hearing], by simp [hearing]⟩
  drift w w' hw hdrift := by
    have hremembers := World.Drift.remembers hdrift
    have hlog : w'.log = [] ++ w.log := hdrift.log
    refine ⟨hw.unheard hremembers (by rw [hdrift.approvals]; exact hw.rows)
      (by simp) hlog, hremembers,
      fun n => ⟨id, fun φ hφ => hφ.keeps hremembers hlog fun a _ hnot => ?_⟩⟩
    rw [World.told_append (by simp) hlog]
    exact hnot
  step n φ φ' w w' hw hφ hheeds hallowed := by
    obtain ⟨hw', hremembers, hφ', hothers⟩ := hheeds.heard hallowed.2 hw hφ
    exact ⟨hw', hremembers, hφ', fun m hm => ⟨id, fun ψ => hothers m ψ hm⟩⟩

end Runs

section Results

variable {deps : Deps} {pages : PageDeps} {w : World}
  {c d : Config Input World (PortalRequest × Nat) ApiError PortalReply}

theorem World.Initial.heard (hw : w.Initial) (A : PortalRequest → Prop)
    (V : Nat → World → Prop) : w.Heard A V where
  rows id a ha := by
    rw [hw.approvals] at ha
    cases ha
  created n a hmem := by simp [hw.log] at hmem
  notified n notification hmem := by simp [hw.log] at hmem
  openedOnce := by simp [World.opened, hw.log]
  toldOnce := by simp [World.told, hw.log]

theorem heard_at (hw : w.Initial) {V : Nat → World → Prop}
    (hc : Reaches (portal deps pages) (Regime.free.during V) ⟨w, []⟩ c)
    {A : PortalRequest → Prop}
    (hA : ∀ request ∈ c.threads.map Prod.fst, A request.1) :
    (heard deps pages A V).At c := by
  have hnil : (heard deps pages A V).At ⟨w, []⟩ :=
    (heard deps pages A V).at_nil (hw.heard A V) fun _ => trivial
  exact ((heard deps pages A V).at_reaches hnil (hc.among hA)).1

/-- Threads may find any state. -/
theorem reaches_anywhere (hc : Reaches (portal deps pages) .free c d) :
    Reaches (portal deps pages) (Regime.free.during fun _ _ => True) c d := by
  obtain ⟨moments, hrun⟩ := hc.timed
  exact hrun.during fun _ _ _ => trivial

/-- However requests interleave and whatever fails, an approval is settled once
and for all: by a request of its approver, with the decision and the comment of
that request, or by the poller after its deadline. -/
theorem approvals_accounted (hw : w.Initial)
    (hc : Reaches (portal deps pages) .free ⟨w, []⟩ c)
    (hd : Reaches (portal deps pages) .free c d) {id : Uuid}
    {a : PendingApproval} (ha : c.state.db.approvals.find? id = some a) :
    a.Accounted (fun request => ∃ rounds,
      (request, rounds) ∈ c.threads.map Prod.fst) ∧
      ∃ a', d.state.db.approvals.find? id = some a' ∧ a.Remains a' := by
  have hat := heard_at hw (reaches_anywhere hc)
    (A := fun request => ∃ rounds, (request, rounds) ∈ c.threads.map Prod.fst)
    fun request hmem => ⟨request.2, hmem⟩
  refine ⟨hat.inv.rows id a ha, ?_⟩
  have hanyone :=
    heard_at hw (reaches_anywhere hc) (A := fun _ => True) fun _ _ => trivial
  have hlater := (heard deps pages _ _).at_reaches hanyone
    ((reaches_anywhere hd).among fun _ _ => trivial)
  exact hlater.2.approvals id a ha

/-- The approver turns a request down on the page of their approvals. -/
def turnedDown :
    Option (Config Input World (PortalRequest × Nat) ApiError PortalReply) :=
  (portal Sample.deps Sample.pages).play .free
    ⟨Sample.world Sample.approvalThenTicket, []⟩ <|
    Sample.visit 0 100 14 (.start Sample.requester Sample.item.id) ++
      Sample.visit 1 200 8
        (.decidePage Sample.approver (Sample.id 105)
          ⟨"reject", some "too dear"⟩)

theorem approvals_accounted_turned_down :
    let c := turnedDown.get (by decide)
    let a := (c.state.db.approvals.find? (Sample.id 105)).get (by decide)
    a.status = .rejected ∧ a.comment = some "too dear" ∧
      a.Accounted fun request => ∃ rounds,
        (request, rounds) ∈ c.threads.map Prod.fst := by
  intro c a
  have hrun : Reaches _ .free _ c := System.play_reaches
    (Option.some_get (by decide : turnedDown.isSome = true)).symm
  have hfound : c.state.db.approvals.find? (Sample.id 105) = some a :=
    (Option.some_get _).symm
  have h := approvals_accounted (Sample.initial _) hrun .refl hfound
  exact ⟨by decide, by decide, h.1⟩

/-- However requests interleave and whatever fails, nobody but the approver is
told of an approval, once at most, and of whoever requested what it is about;
the thread that tells has found the rows in question. -/
theorem approvers_told_once (hw : w.Initial) {moments : List (Nat × World)}
    (hc : Timed (portal deps pages) .free ⟨w, []⟩ moments c) :
    c.state.told.Nodup ∧ ∀ n notification,
      (n, Event.notified notification) ∈ c.state.log →
        World.Tells (Met moments n) c.state notification := by
  have hrun := hc.during (V := Met moments) fun _ _ hmet => hmet
  have hat := heard_at hw hrun (A := fun _ => True) fun _ _ => trivial
  exact ⟨hat.inv.toldOnce, hat.inv.notified⟩

theorem approvers_told_once_turned_down :
    let c := turnedDown.get (by decide)
    c.state.told = [Sample.id 105] ∧ ∃ moments,
      Timed (portal Sample.deps Sample.pages) .free
        ⟨Sample.world Sample.approvalThenTicket, []⟩ moments c ∧
      c.state.told.Nodup ∧ ∀ n notification,
        (n, Event.notified notification) ∈ c.state.log →
          World.Tells (Met moments n) c.state notification := by
  intro c
  have hreach : Reaches (portal Sample.deps Sample.pages) .free
      ⟨Sample.world Sample.approvalThenTicket, []⟩ c :=
    System.play_reaches (Option.some_get
      (by decide : turnedDown.isSome = true)).symm
  obtain ⟨moments, hrun⟩ := hreach.timed
  exact ⟨by decide, moments, hrun, approvers_told_once (Sample.initial _) hrun⟩

end Results

end Servcat
