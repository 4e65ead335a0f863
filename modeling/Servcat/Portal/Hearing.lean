/-
What requests do about approvals: they open them, tell somebody of those that
they have opened, and settle those that they have read.
-/
import Servcat.Atomic.Rely
import Servcat.Portal.Serving

namespace Servcat

open Atomic Keyed

/-- The comment the poller leaves. -/
def PendingApproval.autoExpired : String :=
  "auto-expired: approval timeout reached"

namespace PendingApproval

/-- The same approval later: what it is about never changes, and once it is
settled, nothing does. -/
structure Remains (a a' : PendingApproval) : Prop where
  about : ∃ status comment decidedAt, a' = { a with status, comment, decidedAt }
  settled : a.status ≠ .pending → a' = a

namespace Remains

theorem refl (a : PendingApproval) : a.Remains a :=
  ⟨⟨_, _, _, rfl⟩, fun _ => rfl⟩

theorem trans {a b c : PendingApproval} (h : a.Remains b) (h' : b.Remains c) :
    a.Remains c where
  about := by
    obtain ⟨_, _, _, rfl⟩ := h.about
    obtain ⟨_, _, _, rfl⟩ := h'.about
    exact ⟨_, _, _, rfl⟩
  settled hne := by
    obtain rfl := h.settled hne
    exact h'.settled hne

theorem decided (a : PendingApproval) (status : ApprovalStatus)
    (comment : Option String) (now : Timestamp) :
    a.Remains (Db.decided status comment now a) := by
  rw [Db.decided]
  split
  · exact ⟨⟨_, _, _, rfl⟩, fun hne => absurd ‹_› hne⟩
  · exact .refl a

end Remains

end PendingApproval

/-- No approval is lost or settled twice, no instance changes hands or its item,
and time goes on. -/
structure World.Remembers (w w' : World) : Prop where
  approvals : ∀ id a, w.db.approvals.find? id = some a →
    ∃ a', w'.db.approvals.find? id = some a' ∧ a.Remains a'
  instances : ∀ id row, w.db.instances.find? id = some row →
    ∃ row', w'.db.instances.find? id = some row' ∧
      row'.requesterUserId = row.requesterUserId ∧
      row'.catalogItemId = row.catalogItemId
  now : w.now ≤ w'.now

namespace World.Remembers

variable {w w' w'' : World}

theorem of_eq (happrovals : w'.db.approvals = w.db.approvals)
    (hinstances : w'.db.instances = w.db.instances) (hnow : w.now ≤ w'.now) :
    w.Remembers w' where
  approvals _ a ha := ⟨a, by rw [happrovals]; exact ha, .refl a⟩
  instances _ row hrow := ⟨row, by rw [hinstances]; exact hrow, rfl, rfl⟩
  now := hnow

theorem refl (w : World) : w.Remembers w :=
  of_eq rfl rfl (le_refl _)

theorem trans (h : w.Remembers w')
    (h' : w'.Remembers w'') : w.Remembers w'' where
  approvals id a ha := by
    obtain ⟨a', ha', hremains⟩ := h.approvals id a ha
    obtain ⟨a'', ha'', hremains'⟩ := h'.approvals id a' ha'
    exact ⟨a'', ha'', hremains.trans hremains'⟩
  instances id row hrow := by
    obtain ⟨row', hrow', hrequester, hitem⟩ := h.instances id row hrow
    obtain ⟨row'', hrow'', hrequester', hitem'⟩ := h'.instances id row' hrow'
    exact ⟨row'', hrow'', hrequester'.trans hrequester, hitem'.trans hitem⟩
  now := h.now.trans h'.now

end World.Remembers

/-- What a thread has learned, and can rely on from then on. -/
inductive Fact where
  /-- The row of an approval as it was read. -/
  | read (approval : PendingApproval)
  /-- The approval was past its deadline. -/
  | due (approval : PendingApproval)
  /-- Who requested the instance. -/
  | requested (instanceId requesterUserId : Uuid)
  /-- The row of a user as it was found. -/
  | user (row : User)
  /-- The item of the instance. -/
  | concerns (instanceId catalogItemId : Uuid)
  /-- What the item of the instance was called. -/
  | named (instanceId : Uuid) (catalogItemName : String)
  /-- The timezone that was set. -/
  | zone (orgTimezone : String)

/-- `V` are the states that the thread has found. -/
def Fact.Holds (V : World → Prop) (w : World) : Fact → Prop
  | .read approval =>
      ∃ a, w.db.approvals.find? approval.id = some a ∧ approval.Remains a
  | .due approval => ∃ t, approval.expiresAt = some t ∧ t ≤ w.now
  | .requested instanceId requesterUserId =>
      ∃ row, w.db.instances.find? instanceId = some row ∧
        row.requesterUserId = requesterUserId
  | .user row => ∃ v, V v ∧ v.db.users.find? row.id = some row
  | .concerns instanceId catalogItemId =>
      ∃ row, w.db.instances.find? instanceId = some row ∧
        row.catalogItemId = catalogItemId
  | .named instanceId catalogItemName =>
      ∃ row v, w.db.instances.find? instanceId = some row ∧ V v ∧
        catalogItemName =
        ((v.db.items.find? row.catalogItemId).map ServiceCatalogItem.name).getD
          "(deleted service)"
  | .zone orgTimezone => ∃ v, V v ∧ v.db.orgSettings.timezone = orgTimezone

theorem World.Remembers.read {w w' : World} (h : w.Remembers w')
    {approval : PendingApproval}
    (hread : ∃ a, w.db.approvals.find? approval.id = some a ∧
      approval.Remains a) :
    ∃ a, w'.db.approvals.find? approval.id = some a ∧ approval.Remains a := by
  obtain ⟨a, ha, hremains⟩ := hread
  obtain ⟨a', ha', hremains'⟩ := h.approvals _ a ha
  exact ⟨a', ha', hremains.trans hremains'⟩

theorem World.Remembers.holds {V : World → Prop} {w w' : World}
    (h : w.Remembers w') {fact : Fact}
    (hfact : fact.Holds V w) : fact.Holds V w' := by
  cases fact with
  | read approval => exact h.read hfact
  | due approval =>
      obtain ⟨t, ht, hle⟩ := hfact
      exact ⟨t, ht, hle.trans h.now⟩
  | requested instanceId requesterUserId =>
      obtain ⟨row, hrow, hrequester⟩ := hfact
      obtain ⟨row', hrow', hsame, -⟩ := h.instances _ row hrow
      exact ⟨row', hrow', hsame.trans hrequester⟩
  | concerns instanceId catalogItemId =>
      obtain ⟨row, hrow, hitem⟩ := hfact
      obtain ⟨row', hrow', -, hsame⟩ := h.instances _ row hrow
      exact ⟨row', hrow', hsame.trans hitem⟩
  | named instanceId catalogItemName =>
      obtain ⟨row, v, hrow, hv, hname⟩ := hfact
      obtain ⟨row', hrow', -, hsame⟩ := h.instances _ row hrow
      exact ⟨row', v, hrow', hv, hsame ▸ hname⟩
  | user | zone => exact hfact

/-- Rows of one approval are about one instance. -/
theorem Fact.Holds.instance_eq {V : World → Prop} {w : World}
    {a b : PendingApproval} (ha : Fact.Holds V w (.read a))
    (hb : Fact.Holds V w (.read b)) (hid : a.id = b.id) :
    a.workflowInstanceId = b.workflowInstanceId := by
  obtain ⟨row, hrow, hremains⟩ := ha
  obtain ⟨row', hrow', hremains'⟩ := hb
  rw [hid, hrow', Option.some.injEq] at hrow
  subst hrow
  obtain ⟨_, _, _, heq⟩ := hremains.about
  obtain ⟨_, _, _, heq'⟩ := hremains'.about
  have hsame :=
    congrArg PendingApproval.workflowInstanceId (heq.symm.trans heq')
  exact hsame

/-- A thread that serves `request`: what it has learned, and the approval that
it has opened last, if it has told nobody of it. -/
structure Hearing where
  request : PortalRequest
  facts : List Fact
  opened : Option PendingApproval

/-- Entries of the log about approvals that were opened, or that somebody
was told of. -/
def Event.opensApproval? : Event → Option Uuid
  | .approvalCreated approval => some approval.id
  | _ => none

def Event.tellsOf? : Event → Option Uuid
  | .notified notification => some notification.approval.id
  | _ => none

def Event.Unheard (event : Event) : Prop :=
  event.opensApproval? = none ∧ event.tellsOf? = none

/-- What a notification says of an instance and those concerned. -/
def NewApprovalNotification.facts (notification : NewApprovalNotification)
    (instanceId : Uuid) : List Fact :=
  [.user notification.approver, .user notification.requester,
    .requested instanceId notification.requester.id,
    .named instanceId notification.catalogItemName,
      .zone notification.orgTimezone]

/-- What one step of thread `n` may do to approvals. -/
inductive Heeds (n : Nat) : Hearing → World → Hearing → World → Prop
  | aside {φ : Hearing} {w w' : World} (facts : List Fact)
      (newer : List (Nat × Event))
      (happrovals : w'.db.approvals = w.db.approvals)
      (hremembers : w.Remembers w') (hlog : w'.log = newer ++ w.log)
      (hunheard : ∀ entry ∈ newer, entry.2.Unheard)
      (hfacts : ∀ V : World → Prop, V w → (∀ fact ∈ φ.facts, fact.Holds V w) →
        ∀ fact ∈ facts, fact.Holds V w') :
      Heeds n φ w { φ with facts := facts ++ φ.facts } w'
  | opens {φ : Hearing} {w : World} {approval : PendingApproval}
      {approvals : Table PendingApproval.id}
      (hpending : approval.status = .pending)
      (hcomment : approval.comment = none)
      (hdecided : approval.decidedAt = none)
      (hinsert : w.db.approvals.insert? approval = some approvals) :
      Heeds n φ w
        { φ with facts := .read approval :: φ.facts, opened := some approval }
        (w.commit n (w.db.withApprovals approvals) [.approvalCreated approval])
  | tells {φ : Hearing} {w : World} {approval : PendingApproval}
      {notification : NewApprovalNotification}
      (hopened : φ.opened = some approval)
      (hid : notification.approval.id = approval.id)
      (hread : .read notification.approval ∈ φ.facts)
      (happrover : notification.approver.id =
        notification.approval.approverUserId)
      (hknown : notification.facts approval.workflowInstanceId ⊆ φ.facts) :
      Heeds n φ w { φ with opened := none }
        (w.record n (.notified notification))
  | decides {φ : Hearing} {w : World} {approval : PendingApproval}
      {decision : ApprovalDecision} {comment : Option String}
      {events : List Event}
      (hread : .read approval ∈ φ.facts)
      (hdecides : φ.request.Decides approval.approverUserId approval.id
        decision comment)
      (hunheard : ∀ event ∈ events, event.Unheard) :
      Heeds n φ w φ (w.commit n (w.db.updateApproval approval.id
        (Approvals.statusOf decision) comment w.now) events)
  | expires {φ : Hearing} {w : World} {approval : PendingApproval}
      {events : List Event} (hread : .read approval ∈ φ.facts)
      (hdue : .due approval ∈ φ.facts) (hpoll : φ.request = .poll)
      (hunheard : ∀ event ∈ events, event.Unheard) :
      Heeds n φ w φ (w.commit n (w.db.updateApproval approval.id .expired
        (some PendingApproval.autoExpired) w.now) events)

/-- The automaton of thread `n`. -/
abbrev hearings (n : Nat) : Automaton Input World Hearing :=
  ⟨fun _ i _ => i.thread = n, Heeds n⟩

/-- The same request, which may have learned more. -/
def Hearing.Extends (φ ψ : Hearing) : Prop :=
  ψ.request = φ.request ∧ φ.facts ⊆ ψ.facts

theorem Hearing.Extends.refl (φ : Hearing) : φ.Extends φ :=
  ⟨rfl, List.Subset.refl _⟩

theorem Hearing.Extends.trans {φ ψ χ : Hearing} (h : φ.Extends ψ)
    (h' : ψ.Extends χ) : φ.Extends χ :=
  ⟨h'.1.trans h.1, List.Subset.trans h.2 h'.2⟩

theorem Heeds.extends {n : Nat} {φ φ' : Hearing} {w w' : World}
    (h : Heeds n φ w φ' w') : φ.Extends φ' := by
  cases h with
  | aside => exact ⟨rfl, List.subset_append_right _ _⟩
  | opens => exact ⟨rfl, List.subset_cons_self _ _⟩
  | tells | decides | expires => exact .refl _

/-- The program goes on as `Heeds` allows, and `Q` holds if it succeeds. -/
abbrev Hears {ε α : Type} (n : Nat) (p : Async ε α) (Q : α → Hearing → Prop)
    (φ : Hearing) : Prop :=
  Follows (hearings n) (Delivers Q) p φ

/-- The program goes on so whatever it knows. -/
abbrev Deaf {ε α : Type} (n : Nat) (p : Async ε α) : Prop :=
  Within (hearings n) (fun _ => True) p

section Rules

variable {ε ε' α β : Type} {n : Nat} {φ : Hearing} {Q : β → Hearing → Prop}

/-- A step that leaves approvals alone and is not about any. -/
theorem Heeds.still {w w' : World}
    (happrovals : w'.db.approvals = w.db.approvals)
    (hinstances : w'.db.instances = w.db.instances) (hnow : w'.now = w.now)
    (newer : List (Nat × Event)) (hlog : w'.log = newer ++ w.log)
    (hunheard : ∀ entry ∈ newer, entry.2.Unheard) : Heeds n φ w φ w' :=
  .aside [] newer happrovals (.of_eq happrovals hinstances hnow.ge)
    hlog hunheard fun V _ _ => by simp

/-- Learning from what is found. -/
theorem Heeds.look {w : World} (facts : List Fact)
    (hfacts : ∀ V : World → Prop, V w → (∀ fact ∈ φ.facts, fact.Holds V w) →
      ∀ fact ∈ facts, fact.Holds V w) :
    Heeds n φ w { φ with facts := facts ++ φ.facts } w :=
  .aside facts [] rfl (.refl w) rfl (by simp) hfacts

theorem Heeds.pass {w : World} : Heeds n φ w φ w :=
  .look [] fun V _ _ => by simp

theorem hearings_looks (I : Hearing → Prop) : Looks (hearings n) I :=
  fun φ _ _ hφ _ => ⟨φ, .pass, hφ⟩

theorem hears_extends {post : Exit ε α → Hearing → Prop} {p : Async ε α}
    (h : Follows (hearings n) post p φ) :
    Follows (hearings n) (fun x ψ => post x ψ ∧ φ.Extends ψ) p φ :=
  h.keeps (fun _ _ _ _ hheeds hψ => hψ.trans (Heeds.extends hheeds)) (.refl φ)

theorem hears_bind {p : Async ε α} {k : α → Async ε β} {P : α → Hearing → Prop}
    (hp : Hears n p P φ) (hk : ∀ a ψ, φ.Extends ψ → P a ψ → Hears n (k a) Q ψ) :
    Hears n (p >>= k) Q φ := by
  refine (follows_bind _ _ _ _).mpr
    (Follows.mono (fun x ψ hx => ?_) (hears_extends hp))
  cases x with
  | ok a => exact hk a ψ hx.2 hx.1
  | error | panicked => trivial

theorem hears_mapError {g : ε → ε'} {p : Async ε β} (h : Hears n p Q φ) :
    Hears n (p.mapError g) Q φ := by
  refine (follows_mapError _ _ _ _).mpr (Follows.mono (fun x ψ hx => ?_) h)
  cases x with
  | ok a => exact hx
  | error | panicked => trivial

theorem hears_atomic {f : Input → World → Exit ε β × World}
    (h : ∀ i w,
      i.thread = n → ∃ φ', Heeds n φ w φ' (f i w).2 ∧ Delivers Q (f i w).1 φ') :
    Hears n (.atomic f) Q φ :=
  (follows_atomic _ _).mpr h

/-- Learning from what is read. -/
theorem hears_select {f : World → β} (h : ∀ w, ∃ facts : List Fact,
    (∀ V : World → Prop, V w → (∀ fact ∈ φ.facts, fact.Holds V w) →
      ∀ fact ∈ facts, fact.Holds V w) ∧
        Q (f w) { φ with facts := facts ++ φ.facts }) :
    Hears n (select f) Q φ := by
  refine hears_atomic fun i w _ => ?_
  obtain ⟨facts, hfacts, hQ⟩ := h w
  cases i.fault with
  | none => exact ⟨_, .look facts hfacts, hQ⟩
  | lostRequest | lostReply => exact ⟨φ, .pass, trivial⟩

theorem hears_execute {f : Input → World → Option (β × Db × List Event)}
    (h : ∀ i w b db events, f i w = some (b, db, events) →
      ∃ φ', Heeds n φ w φ' (w.commit n db events) ∧ Q b φ') : Hears n
        (execute f) Q φ := by
  refine hears_atomic fun i w hi => ?_
  subst hi
  cases hf : f i w with
  | none => exact ⟨φ, .pass, trivial⟩
  | some result =>
      obtain ⟨b, db, events⟩ := result
      obtain ⟨φ', hheeds, hQ⟩ := h i w b db events hf
      cases i.fault with
      | none => exact ⟨φ', hheeds, hQ⟩
      | lostRequest => exact ⟨φ, .pass, trivial⟩
      | lostReply => exact ⟨φ', hheeds, trivial⟩

/-- Reading in front of the rest of a program. -/
theorem hears_read {f : World → α} {g : DbError → ε} {k : α → Async ε β}
    (h : ∀ w, ∃ facts : List Fact, (∀ V : World → Prop, V w →
        (∀ fact ∈ φ.facts, fact.Holds V w) → ∀ fact ∈ facts, fact.Holds V w) ∧
      Hears n (k (f w)) Q { φ with facts := facts ++ φ.facts }) :
    Hears n ((select f).mapError g >>= k) Q φ :=
  hears_bind (hears_mapError (hears_select h)) fun _ _ _ hk => hk

/-- Reading without learning. -/
theorem hears_pass {f : World → α} {g : DbError → ε} {k : α → Async ε β}
    (h : ∀ w, Hears n (k (f w)) Q φ) :
    Hears n ((select f).mapError g >>= k) Q φ :=
  hears_read fun w => ⟨[], fun V _ _ => by simp, h w⟩

/-- Learning one thing. -/
theorem hears_learn {f : World → α} {g : DbError → ε} {k : α → Async ε β}
    (h : ∀ w, ∃ fact : Fact, (∀ V : World → Prop, V w →
        (∀ known ∈ φ.facts, known.Holds V w) → fact.Holds V w) ∧
      Hears n (k (f w)) Q { φ with facts := fact :: φ.facts }) :
    Hears n ((select f).mapError g >>= k) Q φ := by
  refine hears_read fun w => ?_
  obtain ⟨fact, hfact, hk⟩ := h w
  refine ⟨[fact], fun V hV hknown other hother => ?_, hk⟩
  rw [List.mem_singleton.mp hother]
  exact hfact V hV hknown

theorem hears_okOr {e : ε} {value : Option α} {k : α → Async ε β}
    (h : ∀ a, value = some a → Hears n (k a) Q φ) :
    Hears n (Program.okOr e value >>= k) Q φ := by
  cases value with
  | none => trivial
  | some a => exact h a rfl

theorem hears_liftExcept {result : Except ε α} {k : α → Async ε β}
    (h : ∀ a, Hears n (k a) Q φ) :
    Hears n (Program.liftExcept result >>= k) Q φ := by
  cases result with
  | error e => trivial
  | ok a => exact h a

namespace Deaf

/-- Programs whose ends do not matter go on whatever they know. -/
theorem of_hears {p : Async ε α}
    (h : ∀ φ, Hears n p (fun _ _ => True) φ) : Deaf n p :=
  fun φ _ => (h φ).mono fun _ _ _ => trivial

theorem hears {p : Async ε α} (h : Deaf n p) (φ : Hearing) :
    Hears n p (fun _ _ => True) φ :=
  (h φ trivial).mono fun x _ _ => by cases x <;> trivial

/-- A program that learns nothing, in front of another. -/
theorem before {p : Async ε α} {k : α → Async ε β} (hp : Deaf n p)
    (hk : ∀ a ψ, φ.Extends ψ → Hears n (k a) Q ψ) : Hears n (p >>= k) Q φ :=
  hears_bind (hp.hears φ) fun a ψ hextends _ => hk a ψ hextends

/-- The request that is served stays the same. -/
theorem within {p : Async ε α} (hp : Deaf n p) (request : PortalRequest) :
    Within (hearings n) (fun φ => φ.request = request) p := by
  intro φ hφ
  refine (hears_extends (hp φ trivial)).mono fun x ψ hψ => ?_
  exact hψ.2.1.trans hφ

/-- Programs that write neither approvals nor instances nor the log. -/
theorem of_leaves {still : World → World → Prop}
    (hstill : ∀ w w', still w w' → w'.db.approvals = w.db.approvals ∧
      w'.db.instances = w.db.instances ∧ w'.now = w.now ∧ w'.log = w.log)
    {p : Async ε α} (hp : Leaves still p) : Deaf n p := by
  refine Within.of_leaves (fun φ i w w' _ _ h => ?_) hp
  obtain ⟨happrovals, hinstances, hnow, hlog⟩ := hstill w w' h
  exact ⟨φ, .still happrovals hinstances hnow [] hlog (by simp), trivial⟩

theorem readOnly {p : Async ε α} (hp : ReadOnly p) : Deaf n p :=
  ReadOnly.within (hearings_looks _) hp

end Deaf

end Rules

section Programs

variable {n : Nat} {φ : Hearing} {deps : Deps}

theorem note_deaf {ε : Type} {event : Event} (h : event.Unheard) :
    Deaf n (note event : Async ε Unit) :=
  .of_hears fun φ => hears_atomic fun i _ _ =>
    ⟨φ, .still rfl rfl rfl [(i.thread, event)] rfl (by simpa using h), trivial⟩

namespace Approvals

/-- The name that the item was found to have, and the timezone, are
told as well. -/
theorem announce_hears {opened approval : PendingApproval}
    {approver requester : User} {catalogItemName : String}
    (hopened : φ.opened = some opened) (hid : approval.id = opened.id)
    (hread : .read approval ∈ φ.facts)
    (happrover : approver.id = approval.approverUserId)
    (hknown : [Fact.user approver, .user requester,
      .requested opened.workflowInstanceId requester.id,
      .named opened.workflowInstanceId catalogItemName] ⊆ φ.facts) :
    Hears n (do
      let settings ← db Repositories.OrgSettings.get
      note (.notified
        { approval, approver, requester, catalogItemName
          orgTimezone := settings.timezone })) (fun _ _ => True) φ := by
  refine hears_learn fun w => ⟨.zone w.db.orgSettings.timezone, ?_, ?_⟩
  · exact fun V hV _ => ⟨w, hV, rfl⟩
  refine hears_atomic fun i v hi => ?_
  subst hi
  refine ⟨_, .tells hopened hid (List.mem_cons_of_mem _ hread) happrover
    ?_, trivial⟩
  intro fact hfact
  simp only [NewApprovalNotification.facts, List.mem_cons,
    List.not_mem_nil, or_false] at hfact
  rcases hfact with rfl | rfl | rfl | rfl | rfl
  · exact List.mem_cons_of_mem _ (hknown (by simp))
  · exact List.mem_cons_of_mem _ (hknown (by simp))
  · exact List.mem_cons_of_mem _ (hknown (by simp))
  · exact List.mem_cons_of_mem _ (hknown (by simp))
  · exact List.mem_cons_self

/-- The approver is told of the approval that has been opened. -/
theorem notifyNewApproval_hears {opened approval : PendingApproval}
    {requester : User} (hopened : φ.opened = some opened)
    (hid : approval.id = opened.id) (hread : .read approval ∈ φ.facts)
    (hfirst : .read opened ∈ φ.facts)
    (hrequester : .requested opened.workflowInstanceId requester.id ∈ φ.facts)
    (huser : .user requester ∈ φ.facts) :
    Hears n (notifyNewApproval approval requester) (fun _ _ => True) φ := by
  refine hears_read fun w => ?_
  cases hfound : w.db.users.find? approval.approverUserId with
  | none => exact ⟨[], fun V _ _ => by simp, trivial⟩
  | some approver =>
      have happrover : approver.id = approval.approverUserId :=
        Table.key_of_find? hfound
      refine ⟨[.user approver], fun V hV _ fact hfact => ?_,
        hears_learn fun v => ?_⟩
      · obtain rfl := List.mem_singleton.mp hfact
        exact ⟨w, hV, happrover ▸ hfound⟩
      -- What is read back is about the instance that the approval was opened
      -- for.
      have hsame : ∀ V : World → Prop,
          (∀ fact ∈ Fact.user approver :: φ.facts, fact.Holds V v) →
            approval.workflowInstanceId = opened.workflowInstanceId :=
          fun V hholds =>
        Fact.Holds.instance_eq (hholds _ (List.mem_cons_of_mem _ hread))
          (hholds _ (List.mem_cons_of_mem _ hfirst)) hid
      cases hrow : v.db.instances.find? approval.workflowInstanceId with
      | none =>
          refine ⟨.named opened.workflowInstanceId "(unknown request)",
            fun V _ hholds => ?_, announce_hears hopened hid ?_ happrover ?_⟩
          · obtain ⟨row, hrow', -⟩ :=
              hholds _ (List.mem_cons_of_mem _ hrequester)
            rw [← hsame V hholds, hrow] at hrow'
            cases hrow'
          · simp [hread]
          · simp [hrequester, huser]
      | some row =>
          refine ⟨.concerns opened.workflowInstanceId row.catalogItemId,
            fun V _ hholds => ⟨row, hsame V hholds ▸ hrow, rfl⟩, ?_⟩
          refine hears_learn fun u => ?_
          refine ⟨.named opened.workflowInstanceId
            (((u.db.items.find? row.catalogItemId).map
              ServiceCatalogItem.name).getD
              "(deleted service)"), fun V hV hholds => ?_,
            announce_hears hopened hid ?_ happrover ?_⟩
          · obtain ⟨row', hrow', hitem⟩ := hholds _ List.mem_cons_self
            exact ⟨row', u, hrow', hV, by rw [hitem]⟩
          · simp [hread]
          · simp [hrequester, huser]

/-- The row is inserted, and read back. -/
theorem create_hears (instanceId : Uuid) (stepId : String)
    (approverUserId : Uuid) (expiresAt : Option Timestamp) :
    Hears n
      (Repositories.Approvals.create instanceId stepId approverUserId expiresAt)
      (fun approval ψ => ∃ opened,
        ψ.opened = some opened ∧ approval.id = opened.id ∧
        opened.workflowInstanceId = instanceId ∧ .read opened ∈ ψ.facts ∧
        .read approval ∈ ψ.facts) φ := by
  refine hears_bind (P := fun id ψ => ∃ opened, ψ.opened = some opened ∧
    id = opened.id ∧ opened.workflowInstanceId = instanceId ∧
      .read opened ∈ ψ.facts)
    (hears_execute fun i w id db events hsome => ?_) fun id ψ _ hψ => ?_
  · obtain ⟨⟨row, db'⟩, hinsert, heq⟩ := Option.map_eq_some_iff.mp hsome
    cases heq
    obtain ⟨rfl, approvals, happrovals, rfl⟩ :=
      Db.insertApproval_inserts hinsert
    exact ⟨_, .opens rfl rfl rfl happrovals, _, rfl, rfl, rfl,
      List.mem_cons_self⟩
  obtain ⟨opened, hopened, rfl, hinstance, hfirst⟩ := hψ
  refine hears_bind (hears_select fun w => ?_) fun found χ _ hχ => hχ
  cases hrow : w.db.approvals.find? opened.id with
  | none => exact ⟨[], fun V _ _ => by simp, trivial⟩
  | some approval =>
      have hid := Table.key_of_find? hrow
      refine ⟨[.read approval], fun V _ _ fact hfact => ?_, opened,
        hopened, hid, hinstance, List.mem_cons_of_mem _ hfirst,
        List.mem_cons_self⟩
      obtain rfl := List.mem_singleton.mp hfact
      exact ⟨approval, hid ▸ hrow, .refl approval⟩

theorem createForInstance_hears {instanceId : Uuid} {stepId : String}
    {requester : User} {resolution : ApproverResolution}
    {timeoutSeconds : Option Int64}
    (hrequester : .requested instanceId requester.id ∈ φ.facts)
    (huser : .user requester ∈ φ.facts) :
    Hears n (createForInstance deps instanceId stepId requester resolution
      timeoutSeconds) (fun _ _ => True) φ := by
  have hresolve := resolveApproverUserId_readOnly deps requester resolution
  refine Deaf.before (.readOnly hresolve) fun approverUserId ψ hψ => ?_
  refine Deaf.before (.readOnly (expiresAt_readOnly _)) fun expiresAt χ hχ => ?_
  refine hears_bind (hears_mapError (create_hears _ _ _ _))
    fun approval ω hω hcreated => ?_
  obtain ⟨opened, hopened, hid, rfl, hfirst, hread⟩ := hcreated
  have hknown : φ.facts ⊆ ω.facts := ((hψ.trans hχ).trans hω).2
  refine hears_bind (notifyNewApproval_hears hopened hid hread hfirst
    (hknown hrequester) (hknown huser)) fun _ _ _ _ => trivial

end Approvals

namespace Orchestrator

theorem dispatchTicket_deaf (definition : WorkflowDefinition)
    (instanceId : Uuid) (stepId : String) (requesterUserId : Uuid)
    (answers : Answers) :
    Deaf n (dispatchTicket deps definition instanceId stepId requesterUserId
      answers) := by
  refine .of_leaves (fun w w' h => ?_) (dispatchTicket_leaves deps definition
    instanceId stepId requesterUserId answers)
  obtain ⟨tickets, newer, rfl⟩ := h
  exact ⟨rfl, rfl, rfl, rfl⟩

theorem saveProgress_deaf (instanceId : Uuid) (stepId : String)
    (answersJson : JsonValue) (status : InstanceStatus) :
    Deaf n
      (db (Repositories.Instances.saveProgress instanceId stepId answersJson
      status)) := by
  refine .mapError (.bind (Deaf.of_hears fun φ => hears_execute ?_) fun _ => ?_)
  · intro i w a db events hsome
    cases hsome
    have hremembers : ∀ events, w.Remembers (w.commit n
        (w.db.updateInstance instanceId stepId answersJson status w.now)
          events) := by
      refine fun events =>
        ⟨fun id a ha => ⟨a, ha, .refl a⟩, fun id row hrow => ?_, le_refl _⟩
      rw [World.commit_db, Db.find?_updateInstance, hrow]
      split
      · exact ⟨_, rfl, rfl, rfl⟩
      · exact ⟨row, rfl, rfl, rfl⟩
    refine ⟨_, .aside [] [_] rfl (hremembers _) rfl ?_
      fun V _ _ => by simp, trivial⟩
    simp [Event.Unheard, Event.opensApproval?, Event.tellsOf?]
  · exact Deaf.readOnly (select_leaves (fun _ => rfl) _)

/-- Driving an instance, of whose approvals its requester's
approvers are told. -/
theorem applyOutcome_hears {definition : WorkflowDefinition}
    {instanceId requesterUserId : Uuid} {answers : Answers} {rounds : Nat}
    {stepId : String} {outcome : Outcome}
    (hrequester : .requested instanceId requesterUserId ∈ φ.facts) :
    Hears n
      (applyOutcome deps definition instanceId requesterUserId answers rounds
      stepId outcome) (fun _ _ => True) φ := by
  have hsave : ∀ stepId status ψ,
      Hears n (saveProgress instanceId stepId answers status)
        (fun _ _ => True) ψ :=
    fun stepId status => Deaf.hears <|
      .bind (saveProgress_deaf _ _ _ _) fun saved => .exit _
  induction rounds generalizing φ stepId outcome with
  | zero => trivial
  | succ rounds ih =>
      cases outcome with
      | awaitingAnswer fieldKey => exact hsave _ _ φ
      | finished endOutcome => exact hsave _ _ φ
      | awaitingApproval resolution timeoutSeconds =>
          refine hears_read fun w => ?_
          cases hfound : w.db.users.find? requesterUserId with
          | none => exact ⟨[], fun V _ _ => by simp, trivial⟩
          | some requester =>
              obtain rfl := Table.key_of_find? hfound
              refine ⟨[.user requester], fun V hV _ fact hfact => ?_, ?_⟩
              · obtain rfl := List.mem_singleton.mp hfact
                exact ⟨w, hV, hfound⟩
              refine hears_okOr fun row heq => ?_
              cases heq
              refine hears_bind (hears_mapError
                (Approvals.createForInstance_hears
                (List.mem_cons_of_mem _ hrequester) List.mem_cons_self)) ?_
              intro approval ψ _ _
              exact hsave _ _ ψ
      | readyToSubmitTicket =>
          refine (follows_bind _ _ _ _).mpr ((follows_attempt _ _ _).mpr ?_)
          have hdispatch : Deaf n
              (dispatchTicket deps definition instanceId stepId
              requesterUserId answers) := dispatchTicket_deaf _ _ _ _ _
          refine (hears_extends (hdispatch.hears φ)).mono fun x ψ hx => ?_
          cases x with
          | ok value =>
              exact hears_liftExcept fun next => ih (hx.2.2 hrequester)
          | error err =>
              exact (saveProgress_deaf _ _ _ _).before fun _ _ _ => trivial
          | panicked => trivial

theorem load_hears (id : Uuid) (fieldKey : Option String) :
    Hears n (Repositories.Instances.load id fieldKey) (fun found ψ => ∀ row,
      found = some row → row.id = id ∧
        .requested row.id row.requesterUserId ∈ ψ.facts) φ := by
  refine hears_atomic fun i w _ => ?_
  cases hrow : w.db.instances.find? id with
  | none => cases i.fault with
    | none => exact ⟨φ, .pass, fun row h => by cases h⟩
    | lostRequest | lostReply => exact ⟨φ, .pass, trivial⟩
  | some row =>
      have hid := Table.key_of_find? hrow
      cases i.fault with
      | none =>
          refine ⟨_, .aside [.requested row.id row.requesterUserId] [_] rfl
            (.of_eq rfl rfl (le_refl _)) rfl
            (by simp [Event.Unheard, Event.opensApproval?, Event.tellsOf?])
            fun V _ _ fact hfact => ?_, ?_⟩
          · obtain rfl := List.mem_singleton.mp hfact
            exact ⟨row, hid ▸ hrow, rfl⟩
          · rintro _ ⟨⟩
            exact ⟨hid, List.mem_cons_self⟩
      | lostRequest | lostReply => exact ⟨φ, .pass, trivial⟩

theorem create_hears (definitionId catalogItemId requesterUserId : Uuid)
    (entryStepId : String) :
    Hears n
      (Repositories.Instances.create definitionId catalogItemId requesterUserId
      entryStepId)
        (fun row ψ => .requested row.id requesterUserId ∈ ψ.facts) φ := by
  refine hears_bind (P := fun id ψ => .requested id requesterUserId ∈ ψ.facts)
    (hears_execute fun i w id db events hsome => ?_) fun id ψ _ hknown => ?_
  · obtain ⟨db', hinsert, heq⟩ := Option.map_eq_some_iff.mp hsome
    cases heq
    obtain ⟨instances, hinstances, rfl⟩ := Db.insertInstance_inserts hinsert
    have hremembers : w.Remembers
        (w.commit n { w.db with instances := instances } []) :=
      ⟨fun id a ha => ⟨a, ha, .refl a⟩, fun id row hrow =>
        ⟨row, Table.find?_insert_of_some hinstances hrow, rfl, rfl⟩, le_refl _⟩
    refine ⟨_, .aside [.requested i.uuid requesterUserId] [] rfl hremembers rfl
      (by simp) fun V _ _ fact hfact => ?_, List.mem_cons_self⟩
    obtain rfl := List.mem_singleton.mp hfact
    exact ⟨_, Table.find?_inserted hinstances, rfl⟩
  · refine hears_bind (load_hears _ _) fun found χ hχ hfound => ?_
    cases found with
    | none => trivial
    | some row =>
        obtain ⟨rfl, -⟩ := hfound row rfl
        exact hχ.2 hknown

theorem startInstance_deaf (rounds : Nat) (catalogItemId : Uuid)
    (requester : User) :
    Deaf n (startInstance deps rounds catalogItemId requester) := by
  refine read_within (hearings_looks _) fun item => .okOr fun item => ?_
  split
  · exact .exit _
  refine read_within (hearings_looks _) fun definition =>
    .okOr fun definition => ?_
  refine .liftExcept fun next => Deaf.of_hears fun φ => ?_
  exact hears_bind (hears_mapError (create_hears _ _ _ _))
    fun row ψ _ hrequester =>
    applyOutcome_hears hrequester

theorem submitAnswer_deaf (rounds : Nat) (instanceId : Uuid) (requester : User)
    (fieldKey : String) (value : JsonValue) :
    Deaf n (submitAnswer deps rounds instanceId requester fieldKey value) := by
  refine Deaf.of_hears fun φ => hears_bind (hears_mapError (load_hears _ _))
    fun found ψ _ hfound => hears_okOr fun row hrow => ?_
  obtain ⟨-, hknown⟩ := hfound row hrow
  split
  · trivial
  rename_i hrequester
  rw [not_not.mp hrequester] at hknown
  split
  · trivial
  exact hears_pass fun w => hears_okOr fun definition _ =>
    hears_liftExcept fun next =>
    applyOutcome_hears hknown

theorem resumeAfterApproval_deaf (rounds : Nat) (instanceId : Uuid)
    (stepId : String) (decision : ApprovalDecision) :
    Deaf n (resumeAfterApproval deps rounds instanceId stepId decision) := by
  refine Deaf.of_hears fun φ => hears_bind (hears_mapError (load_hears _ _))
    fun found ψ _ hfound => hears_okOr fun row hrow => ?_
  exact hears_pass fun w => hears_okOr fun definition _ =>
    hears_liftExcept fun next =>
    applyOutcome_hears (hfound row hrow).2

end Orchestrator

/-- The guarded update, where the row may be settled so. -/
theorem flip_hears {id : Uuid} {status : ApprovalStatus}
    {comment : Option String}
    (h : ∀ w events, (∀ event ∈ events, event.Unheard) →
      Heeds n φ w φ
        (w.commit n (w.db.updateApproval id status comment w.now) events)) :
    Hears n (Repositories.Approvals.decide id status comment)
      (fun _ _ => True) φ := by
  refine hears_execute fun i w b db events hsome => ?_
  cases hsome
  refine ⟨φ, h w _ fun event hevent => ?_, trivial⟩
  split at hevent
  · obtain rfl := List.mem_singleton.mp hevent
    exact ⟨rfl, rfl⟩
  · cases hevent

/-- The user decides an approval that is theirs. -/
theorem Approvals.decide_hears {approvalId userId : Uuid}
    {decision : ApprovalDecision} {comment : Option String}
    (h : φ.request.Decides userId approvalId decision comment) :
    Hears n (decide approvalId userId decision comment)
      (fun _ _ => True) φ := by
  refine hears_read fun w => ?_
  cases hfound : w.db.approvals.find? approvalId with
  | none => exact ⟨[], fun V _ _ => by simp, trivial⟩
  | some approval =>
      obtain rfl := Table.key_of_find? hfound
      refine ⟨[.read approval], fun V _ _ fact hfact => ?_,
        hears_okOr fun a ha => ?_⟩
      · obtain rfl := List.mem_singleton.mp hfact
        exact ⟨approval, hfound, .refl approval⟩
      cases ha
      split
      · trivial
      rename_i huser
      split
      · trivial
      rw [← not_not.mp huser] at h
      refine hears_bind (hears_mapError (flip_hears fun w events hevents =>
        .decides List.mem_cons_self h hevents)) fun flipped ψ _ _ => ?_
      split
      · exact hears_pass fun w => Deaf.hears (.exit _) ψ
      · trivial

theorem Server.decide_hears {rounds : Nat} {approvalId userId : Uuid}
    {decision : ApprovalDecision} {comment : Option String}
    (h : φ.request.Decides userId approvalId decision comment) :
    Hears n (decide deps rounds approvalId userId decision comment)
      (fun _ _ => True) φ := by
  refine hears_bind (hears_mapError (Approvals.decide_hears h))
    fun approval ψ _ _ => ?_
  refine Deaf.before (note_deaf ⟨rfl, rfl⟩) fun _ χ _ => ?_
  exact (Orchestrator.resumeAfterApproval_deaf _ _ _ _).hears χ

theorem Server.handleExpired_deaf (rounds : Nat) (approval : PendingApproval) :
    Deaf n (handleExpired deps rounds approval) := by
  refine .bind (note_deaf ⟨rfl, rfl⟩) fun _ => ?_
  refine .bind (.attempt
    (Orchestrator.resumeAfterApproval_deaf rounds _ _ _)) ?_
  intro result
  cases result with
  | ok row => exact .exit _
  | error err => exact note_deaf ⟨rfl, rfl⟩

/-- The poller settles what it has found past its deadline. -/
theorem Approvals.expireEach_hears (rounds : Nat) {rows : List PendingApproval}
    (hpoll : φ.request = .poll)
    (hrows : ∀ a ∈ rows, Fact.read a ∈ φ.facts ∧ Fact.due a ∈ φ.facts) :
    Hears n (expireEach (Server.handleExpired deps rounds) rows)
      (fun _ _ => True) φ := by
  induction rows generalizing φ with
  | nil => trivial
  | cons approval rest ih =>
      obtain ⟨⟨hread, hdue⟩, hrest⟩ := List.forall_mem_cons.mp hrows
      have hgoes : ∀ ψ, φ.Extends ψ →
          Hears n (expireEach (Server.handleExpired deps rounds) rest)
            (fun _ _ => True) ψ := by
        intro ψ hψ
        refine ih (hψ.1.trans hpoll) fun a ha => ?_
        obtain ⟨hread, hdue⟩ := hrest a ha
        exact ⟨hψ.2 hread, hψ.2 hdue⟩
      refine hears_bind (flip_hears fun w events hevents =>
        .expires hread hdue hpoll hevents) fun flipped ψ hψ _ => ?_
      cases flipped with
      | true =>
          exact (Server.handleExpired_deaf rounds approval).before fun _ χ hχ =>
            hgoes χ (hψ.trans hχ)
      | false => exact hgoes ψ hψ

theorem Approvals.pollOnce_hears (rounds : Nat) (hpoll : φ.request = .poll) :
    Hears n (pollOnce (Server.handleExpired deps rounds))
      (fun _ _ => True) φ := by
  refine hears_bind (P := fun rows ψ => ∀ a ∈ rows,
    Fact.read a ∈ ψ.facts ∧ Fact.due a ∈ ψ.facts) (hears_select fun w => ?_)
    fun rows ψ hextends hrows =>
      expireEach_hears rounds (hextends.1.trans hpoll) hrows
  let expired := w.db.approvals.rows.filter fun row =>
    row.status == .pending && row.expiresAt.any fun t =>
      Decidable.decide (t ≤ w.now)
  refine ⟨expired.flatMap fun a => [.read a, .due a],
    fun V _ _ fact hfact => ?_, fun a ha => ?_⟩
  · obtain ⟨a, ha, hfact⟩ := List.mem_flatMap.mp hfact
    obtain ⟨hmem, hexpired⟩ := List.mem_filter.mp ha
    rcases List.mem_pair.mp hfact with rfl | rfl
    · exact ⟨a, Table.find?_of_mem hmem, .refl a⟩
    · rw [Fact.Holds]
      simpa [Option.any_eq_true] using (Bool.and_eq_true_iff.mp hexpired).2
  · have hmem : ∀ fact ∈ [Fact.read a, .due a],
        fact ∈ (expired.flatMap fun a => [Fact.read a, .due a]) ++ φ.facts := by
      intro fact hfact
      exact List.mem_append_left _ (List.mem_flatMap.mpr ⟨a, ha, hfact⟩)
    exact ⟨hmem _ List.mem_cons_self, hmem _ (by simp)⟩

theorem hears_within {ε α : Type} {p : Async ε α} {request : PortalRequest}
    (h : ∀ φ, φ.request = request → Hears n p (fun _ _ => True) φ) :
    Within (hearings n) (fun φ => φ.request = request) p := by
  intro φ hφ
  exact (hears_extends (h φ hφ)).mono fun x ψ hψ => hψ.2.1.trans hφ

theorem serve_hears (pages : PageDeps) (request : PortalRequest × Nat) :
    Within (hearings n) (fun φ => φ.request = request.1)
      (PortalRequest.serve deps pages request) := by
  apply serve_within (hearings_looks _)
  · intro rounds id user
    exact (Orchestrator.startInstance_deaf rounds id user).within _
  · intro rounds id user fieldKey value _
    exact (Orchestrator.submitAnswer_deaf rounds id user fieldKey
      value).within _
  · intro rounds id userId decision comment h
    exact hears_within fun φ hφ => Server.decide_hears (hφ ▸ h)
  · intro hpoll rounds
    exact hears_within fun φ hφ =>
      Approvals.pollOnce_hears rounds (hφ.trans hpoll)

end Programs

end Servcat
