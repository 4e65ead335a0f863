/-
Who sees what: what a user is answered who only reads depends on the
catalog, on their own requests and on the approvals they have been asked
for, and on nothing else.
-/
import Servcat.Atomic.Observing
import Servcat.Concurrent.Conduct
import Servcat.Portal.Serving

namespace Servcat

open Atomic Keyed

theorem Move.retains {n : Nat} {φ φ' : Phase} {w w' : World}
    (h : Move n φ w φ' w') : w.Retains w' := by
  have hgrows := h.grows
  cases h with
  | look | dispatch => exact .of_eq hgrows rfl (List.Subset.refl _)
  | remark | load | resume =>
      exact .of_eq hgrows rfl (List.subset_cons_self _ _)
  | tickets => exact .of_eq hgrows rfl (List.Subset.refl _)
  | openApproval | flip => exact .of_eq hgrows rfl (List.subset_cons_self _ _)
  | create hstage hstart hinsert =>
      refine ⟨hgrows, fun id row hrow => ?_, List.Subset.refl _⟩
      exact ⟨row, Table.find?_insert_of_some hinsert hrow, rfl⟩
  | save hsaves =>
      refine ⟨hgrows, fun id row hrow => ?_, List.subset_cons_self _ _⟩
      rw [World.commit_db, Db.find?_updateInstance, hrow]
      split
      · exact ⟨_, rfl, rfl⟩
      · exact ⟨row, rfl, rfl⟩

/-- The steps of a thread that loses nothing. -/
def retaining (n : Nat) : Automaton Input World Unit :=
  ⟨fun _ i _ => i.thread = n, fun _ w _ w' => w.Retains w'⟩

/-- What follows the automaton of the requests loses nothing. -/
theorem retaining_of_requests {ε α : Type} {n : Nat}
    {post : Exit ε α → Phase → Prop} {p : Async ε α} {φ : Phase}
    (h : Follows (requests n) post p φ) :
    Within (retaining n) (fun _ => True) p := by
  intro ψ _
  induction p generalizing φ ψ with
  | exit x => trivial
  | spin => trivial
  | step act next ih =>
      intro i w hi
      obtain ⟨φ', hmove, hnext⟩ := h i w hi
      exact ⟨(), hmove.retains, ih i w hnext ()⟩

theorem serve_retaining {deps : Deps} {pages : PageDeps} {n : Nat}
    (request : PortalRequest × Nat) :
    Within (retaining n) (fun _ => True)
      (PortalRequest.serve deps pages request) := by
  apply serve_within
  · exact fun _ i w _ _ => ⟨(), .refl w, trivial⟩
  · intro rounds id user
    apply retaining_of_requests (φ := ⟨false, [], .quiet⟩)
    exact Orchestrator.startInstance_follows rfl
  · intro rounds id user fieldKey value _
    apply retaining_of_requests (φ := ⟨true, [], .quiet⟩)
    exact Orchestrator.submitAnswer_follows rfl
  · intro rounds id userId decision comment _
    apply retaining_of_requests (φ := ⟨false, [], .quiet⟩)
    exact Server.decide_follows rfl
  · intro _ rounds
    apply retaining_of_requests (φ := ⟨false, [], .quiet⟩)
    exact Approvals.pollOnce_follows rfl

/-- The phase of a thread says nothing. -/
def retention (deps : Deps) (pages : PageDeps) :
    Cover (portal deps pages) Unit where
  move _ _ w _ w' := w.Retains w'
  entry _ := ()
  post _ _ _ := True
  follows _ request :=
    (serve_retaining request () trivial).mono fun _ _ _ => trivial

theorem World.Drift.retains {w w' : World} (h : w.Drift w') : w.Retains w' :=
  .of_eq h.grows h.instances (by rw [h.log]; exact List.Subset.refl _)

def retained (deps : Deps) (pages : PageDeps) :
    Outline (retention deps pages) .free where
  inv _ := True
  holds _ _ _ := True
  absent _ _ := True
  grow := World.Retains
  grow_refl := .refl
  grow_trans := .trans
  entry _ _ _ _ _ _ := trivial
  drift _ _ _ h := ⟨trivial, World.Drift.retains h, fun _ => ⟨id, fun _ => id⟩⟩
  step _ _ _ _ _ _ _ h _ := ⟨trivial, h, trivial, fun _ _ => ⟨id, fun _ => id⟩⟩

theorem portal_retains {deps : Deps} {pages : PageDeps} {w : World}
    {c d : Config Input World (PortalRequest × Nat) ApiError PortalReply}
    (hc : Reaches (portal deps pages) .free ⟨w, []⟩ c)
    (hstep : Atomic.Step (portal deps pages) .free c d) :
    c.state.Retains d.state := by
  have hnil : (retained deps pages).At ⟨w, []⟩ :=
    (retained deps pages).at_nil trivial fun _ => trivial
  exact ((retained deps pages).at_step
    ((retained deps pages).at_reaches hnil hc).1 hstep).2

/-- What a user may see of the tables. -/
structure Sight where
  orgSettings : OrgSettings
  items : Table ServiceCatalogItem.id
  definitions : Table WorkflowDefinition.id
  /-- The requests they have made. -/
  mine : List WorkflowInstance
  /-- Which requests there are, and those they may read. -/
  instances : Uuid → Option (Option WorkflowInstance)
  /-- What is said of the tickets of these. -/
  tickets : Uuid → Option Web.TicketNote
  /-- The approvals that wait for them. -/
  inbox : List PendingApproval
  /-- Of the requests they were asked to approve: the item and the
  requester's name. -/
  matters : Uuid → Option (Uuid × Option String)

/-- The user has been asked for an approval of this request. -/
def World.asks (w : World) (user : User) (instanceId : Uuid) : Bool :=
  w.db.approvals.rows.any fun a =>
    a.workflowInstanceId == instanceId && a.approverUserId == user.id

def World.mayRead (w : World) (user : User) (instanceId : Uuid) : Bool :=
  (w.db.instances.find? instanceId).any fun row => Servcat.mayRead user row

/-- What the tables show to this user. -/
def World.seenBy (pages : PageDeps) (user : User) (w : World) : Sight where
  orgSettings := w.db.orgSettings
  items := w.db.items
  definitions := w.db.definitions
  mine := w.db.instances.rows.filter fun row => row.requesterUserId == user.id
  instances id := (w.db.instances.find? id).map fun row =>
    if Servcat.mayRead user row then some row else none
  tickets id :=
    if w.mayRead user id then
      (((w.db.tickets.rows.filter fun row =>
        row.workflowInstanceId == id).insertionSort
        fun a b => pages.createdAt b.id ≤ pages.createdAt a.id).head?).map
          fun ticket =>
            Web.ticketNote
              (if user.role.isStaff then ticket.lastError else none) ticket
    else none
  inbox := w.db.approvals.rows.filter fun a =>
    a.approverUserId == user.id && a.status == .pending
  matters id :=
    if w.asks user id then
      (w.db.instances.find? id).map fun row =>
        (row.catalogItemId, (w.db.users.find? row.requesterUserId).map
          User.displayName)
    else none

/-- How a step looks to the user that it is taken for. -/
def looks (pages : PageDeps) (user : User) (i : Input)
    (w : World) : Fault × Sight :=
  (i.fault, w.seenBy pages user)

section Reading

variable {deps : Deps} {pages : PageDeps} {user : User} {α α' β β' γ : Type}
  {s t : World}

/-- Programs that read for this user. -/
abbrev ReadsAlike (pages : PageDeps) (user : User) (V : α → α' → Prop)
    (p : Async ApiError α) (q : Async ApiError α') (s t : World) : Prop :=
  Alongside World.Retains (looks pages user) (Exit.Agree V) p q s t

namespace ReadsAlike

variable {V : α → α' → Prop} {W : β → β' → Prop}

theorem pure {a : α} {b : α'} (h : V a b) :
    ReadsAlike pages user V (Pure.pure a) (Pure.pure b) s t :=
  .ok h

theorem throw (e : ApiError) :
    ReadsAlike pages user V (Program.throw e) (Program.throw e) s t :=
  .error e

theorem bind {p : Async ApiError α} {q : Async ApiError α'}
    {k : α → Async ApiError β} {k' : α' → Async ApiError β'}
    (h : ReadsAlike pages user V p q s t)
    (hk : ∀ a b s' t', V a b → s.Retains s' → t.Retains t' →
      ReadsAlike pages user W (k a) (k' b) s' t') :
    ReadsAlike pages user W (p >>= k) (q >>= k') s t :=
  Alongside.bind .refl (fun _ _ _ => .trans) h hk

theorem okOr (e : ApiError) (value : Option γ) {k : γ → Async ApiError β}
    {k' : γ → Async ApiError β'}
    (h : ∀ a, value = some a → ReadsAlike pages user W (k a) (k' a) s t) :
    ReadsAlike pages user W (Program.okOr e value >>= k)
      (Program.okOr e value >>= k') s t := by
  cases value with
  | none => exact .throw e
  | some a => exact h a rfl

theorem read {f : World → γ} {g : World → γ} {k k' : γ → Async ApiError β}
    {W : β → β → Prop}
    (h : ∀ s' t', s.Retains s' → t.Retains t' →
      s'.seenBy pages user = t'.seenBy pages user →
        ReadsAlike pages user W (k (f s')) (k' (g t')) s' t') :
    ReadsAlike pages user W (Orchestrator.db (select f) >>= k)
      (Orchestrator.db (select g) >>= k') s t := by
  intro i j s' t' hs ht hlook
  obtain ⟨hfault, hseen⟩ := Prod.mk.inj hlook
  have hrest := h s' t' hs ht hseen
  cases hi : i.fault with
  | none =>
      rw [hi] at hfault
      simp only [hi, ← hfault]
      exact hrest
  | lostRequest | lostReply =>
      rw [hi] at hfault
      simp only [hi, ← hfault]
      exact .error _

/-- A query about what the user sees. -/
theorem readSeen {f : World → γ} {k k' : γ → Async ApiError β}
    {W : β → β → Prop}
    (hf : ∀ s t : World, s.seenBy pages user = t.seenBy pages user → f s = f t)
    (hk : ∀ a s' t', s.Retains s' → t.Retains t' →
      s'.seenBy pages user = t'.seenBy pages user → a = f s' →
        ReadsAlike pages user W (k a) (k' a) s' t') :
    ReadsAlike pages user W (Orchestrator.db (select f) >>= k)
      (Orchestrator.db (select f) >>= k') s t :=
  read fun s' t' hs ht hseen => hf s' t' hseen ▸ hk (f s') s' t' hs ht hseen rfl

end ReadsAlike

theorem layout_alike (activeNav : String) :
    ReadsAlike pages user Eq (Web.Layout.load user activeNav)
      (Web.Layout.load user activeNav)
      s t :=
  .readSeen (fun _ _ h => congrArg Sight.orgSettings h)
    fun _ _ _ _ _ _ _ => .pure rfl

theorem mine_seen (s t : World)
    (h : s.seenBy pages user = t.seenBy pages user) :
    ((s.db.instances.rows.filter fun row =>
      row.requesterUserId == user.id).insertionSort
        fun a b => pages.createdAt b.id ≤ pages.createdAt a.id) =
      ((t.db.instances.rows.filter fun row =>
        row.requesterUserId == user.id).insertionSort
        fun a b => pages.createdAt b.id ≤ pages.createdAt a.id) :=
  congrArg (List.insertionSort _) (congrArg Sight.mine h)

theorem inbox_seen (s t : World)
    (h : s.seenBy pages user = t.seenBy pages user) :
    ((s.db.approvals.rows.filter fun row =>
        row.approverUserId == user.id && row.status == .pending).insertionSort
          fun a b => pages.createdAt a.id ≤ pages.createdAt b.id) =
      ((t.db.approvals.rows.filter fun row =>
        row.approverUserId == user.id && row.status == .pending).insertionSort
          fun a b => pages.createdAt a.id ≤ pages.createdAt b.id) :=
  congrArg (List.insertionSort _) (congrArg Sight.inbox h)

theorem items_seen
    (h : s.seenBy pages user = t.seenBy pages user) : s.db.items = t.db.items :=
  congrArg Sight.items h

theorem item_seen (id : Uuid) (s t : World)
    (h : s.seenBy pages user = t.seenBy pages user) :
    s.db.items.find? id = t.db.items.find? id :=
  congrArg (Table.find? · id) (items_seen h)

theorem definition_seen (id : Uuid) (s t : World)
    (h : s.seenBy pages user = t.seenBy pages user) :
    s.db.definitions.find? id = t.db.definitions.find? id :=
  congrArg (fun sight => sight.definitions.find? id) h

/-- A request that is looked up is missing, or may be read, or may
not, for both. -/
theorem instance_seen (h : s.seenBy pages user = t.seenBy pages user)
    (id : Uuid) :
    (s.db.instances.find? id = none ∧ t.db.instances.find? id = none) ∨
      (∃ row, s.db.instances.find? id = some row ∧
        t.db.instances.find? id = some row ∧ mayRead user row = true) ∨
      ∃ row row', s.db.instances.find? id = some row ∧
        t.db.instances.find? id = some row' ∧
        mayRead user row = false ∧ mayRead user row' = false := by
  have hid : (s.db.instances.find? id).map
        (fun row => if mayRead user row then some row else none) =
      (t.db.instances.find? id).map fun row =>
        if mayRead user row then some row else none :=
    congrFun (congrArg Sight.instances h) id
  cases hs : s.db.instances.find? id with
  | none =>
      rw [hs] at hid
      exact .inl ⟨rfl, Option.map_eq_none_iff.mp hid.symm⟩
  | some row =>
      cases ht : t.db.instances.find? id with
      | none =>
          rw [hs, ht] at hid
          cases hid
      | some row' =>
          rw [hs, ht, Option.map_some, Option.map_some,
            Option.some.injEq] at hid
          cases hread : mayRead user row <;>
            cases hread' : mayRead user row' <;>
            simp only [hread, hread', if_true, Bool.false_eq_true,
              if_false] at hid
          · exact .inr (.inr ⟨row, row', rfl, rfl, hread, hread'⟩)
          · cases hid
          · cases hid
          · cases hid
            exact .inr (.inl ⟨row, rfl, rfl, hread⟩)

theorem asks_of_retains (h : s.Retains t) {id : Uuid}
    (hasks : s.asks user id = true) : t.asks user id = true := by
  obtain ⟨a, ha, hid⟩ := List.any_eq_true.mp hasks
  obtain ⟨a', ha', hbecomes⟩ := h.approvals _ a (Table.find?_of_mem ha)
  refine List.any_eq_true.mpr ⟨a', Table.mem_of_find? ha', ?_⟩
  rw [hbecomes.workflowInstanceId, hbecomes.approverUserId]
  exact hid

theorem mayRead_of_retains (h : s.Retains t) {id : Uuid}
    {row : WorkflowInstance} (hrow : s.db.instances.find? id = some row)
    (hread : mayRead user row = true) : t.mayRead user id = true := by
  obtain ⟨row', hrow', hrequester⟩ := h.requesters id row hrow
  rw [World.mayRead, hrow', Option.any_some, Servcat.mayRead, hrequester]
  exact hread

theorem getOne_alike (id : Uuid) :
    ReadsAlike pages user Eq (Routes.Instances.getOne user id)
      (Routes.Instances.getOne user id)
      s t := by
  refine .read fun s' t' _ _ hseen => ?_
  rcases instance_seen hseen id with
    ⟨hs, ht⟩ | ⟨row, hs, ht, hread⟩ | ⟨row, row', hs, ht, hread, hread'⟩
  · rw [hs, ht]
    exact .throw _
  · rw [hs, ht]
    refine .okOr _ (some row) fun row heq => ?_
    cases heq
    rw [if_pos hread]
    exact .pure rfl
  · rw [hs, ht]
    show ReadsAlike pages user Eq (if _ then _ else _)
      (if _ then _ else _) s' t'
    rw [hread, hread']
    exact .throw _

theorem ticketNote_bind (staff : Bool) (ticket : Option Ticket) :
    ticket.map
      (Web.ticketNote (if staff then ticket.bind Ticket.lastError else none)) =
      ticket.map fun k =>
        Web.ticketNote (if staff then k.lastError else none) k := by
  cases ticket <;> rfl

/-- Of the ticket, the page says what the user sees of it. -/
theorem showRequest_alike (id : Uuid) :
    ReadsAlike pages user (fun a b => a.render = b.render)
      (Web.Requests.showRequest pages user id)
        (Web.Requests.showRequest pages user id) s t := by
  refine .bind (layout_alike _) fun layout _ s t heq _ _ => ?_
  subst heq
  refine .read fun s' t' _ _ hseen => ?_
  rcases instance_seen hseen id with
    ⟨hs, ht⟩ | ⟨row, hs, ht, hread⟩ | ⟨row, row', hs, ht, hread, hread'⟩
  · rw [hs, ht]
    exact .throw _
  · rw [hs, ht]
    refine .okOr _ (some row) fun row heq => ?_
    cases heq
    rw [if_pos hread]
    have hid : row.id = id := Table.key_of_find? hs
    refine .readSeen (item_seen row.catalogItemId) fun item s₁ t₁ hs₁ ht₁ _ _ =>
      .okOr _ item fun item _ => ?_
    refine .readSeen (definition_seen row.workflowDefinitionId)
      fun definition s₂ t₂ hs₂ ht₂ _ _ =>
        .okOr _ definition fun definition _ => ?_
    refine .read fun s₃ t₃ hs₃ ht₃ hseen₃ => .pure ?_
    have hreads := mayRead_of_retains ((hs₁.trans hs₂).trans hs₃) hs hread
    have hreadt := mayRead_of_retains ((ht₁.trans ht₂).trans ht₃) ht hread
    have hnote := congrFun (congrArg Sight.tickets hseen₃) id
    simp only [World.seenBy, hreads, hreadt, if_true] at hnote
    simp only [Web.RequestDetailTemplate.render, ticketNote_bind, hid, hnote]
  · rw [hs, ht]
    show ReadsAlike pages user _ (if _ then _ else _) (if _ then _ else _) s' t'
    rw [hread, hread']
    exact .throw _

variable (pages) in
/-- What the user sees of a request that they were asked to approve. -/
theorem matters_of_retains (h : s.Retains t) {id : Uuid}
    {row : WorkflowInstance} (hrow : s.db.instances.find? id = some row)
    (hasks : t.asks user id = true) :
    ∃ itemId, (t.seenBy pages user).matters id =
      some (itemId, (t.db.users.find? row.requesterUserId).map
        User.displayName) := by
  obtain ⟨row', hrow', hrequester⟩ := h.requesters id row hrow
  refine ⟨row'.catalogItemId, ?_⟩
  simp only [World.seenBy, hasks, if_true, hrow', Option.map_some, hrequester]

/-- One approval of the inbox, whose request and requester are looked up one
after the other. -/
theorem approvalRow_alike {approval : PendingApproval}
    (hs : s.asks user approval.workflowInstanceId = true)
    (ht : t.asks user approval.workflowInstanceId = true) :
    ReadsAlike pages user Eq (Web.Approvals.approvalRow pages approval)
      (Web.Approvals.approvalRow pages approval) s t := by
  refine .read fun s₁ t₁ hs₁ ht₁ hseen => ?_
  have hs := asks_of_retains hs₁ hs
  have ht := asks_of_retains ht₁ ht
  have hmatters :=
    congrFun (congrArg Sight.matters hseen) approval.workflowInstanceId
  cases hrow : s₁.db.instances.find? approval.workflowInstanceId with
  | none =>
      simp only [World.seenBy, hs, ht, if_true, hrow,
        Option.map_none] at hmatters
      rw [Option.map_eq_none_iff.mp hmatters.symm]
      exact .pure rfl
  | some row =>
      simp only [World.seenBy, hs, ht, if_true, hrow,
        Option.map_some] at hmatters
      obtain ⟨row', hrow', hsame⟩ := Option.map_eq_some_iff.mp hmatters.symm
      obtain ⟨hitem, -⟩ := Prod.mk.inj hsame
      rw [hrow']
      show ReadsAlike pages user Eq (_ >>= _) (_ >>= _) s₁ t₁
      rw [hitem]
      refine .readSeen (item_seen row.catalogItemId)
        fun item s₂ t₂ hs₂ ht₂ _ _ => ?_
      refine .read fun s₃ t₃ hs₃ ht₃ hseen₃ => .pure ?_
      have hs₃ := hs₂.trans hs₃
      have ht₃ := ht₂.trans ht₃
      obtain ⟨itemId, hmatter⟩ :=
        matters_of_retains pages hs₃ hrow (asks_of_retains hs₃ hs)
      obtain ⟨itemId', hmatter'⟩ :=
        matters_of_retains pages ht₃ hrow' (asks_of_retains ht₃ ht)
      rw [hseen₃, hmatter', Option.some.injEq, Prod.mk.injEq] at hmatter
      rw [hmatter.2]

theorem approvalRows_alike {pending : List PendingApproval}
    (hs : ∀ a ∈ pending, s.asks user a.workflowInstanceId = true)
    (ht : ∀ a ∈ pending, t.asks user a.workflowInstanceId = true) :
    ReadsAlike pages user Eq (Web.Approvals.approvalRows pages pending)
      (Web.Approvals.approvalRows pages pending) s t := by
  induction pending generalizing s t with
  | nil => exact .pure rfl
  | cons approval pending ih =>
      obtain ⟨hs, hrests⟩ := List.forall_mem_cons.mp hs
      obtain ⟨ht, hrestt⟩ := List.forall_mem_cons.mp ht
      refine .bind (approvalRow_alike hs ht) fun row _ s' t' heq hs' ht' => ?_
      subst heq
      refine .bind (ih (fun a ha => asks_of_retains hs' (hrests a ha))
        fun a ha => asks_of_retains ht' (hrestt a ha))
          fun rows _ _ _ heq _ _ => ?_
      subst heq
      exact .pure rfl

theorem listApprovals_alike :
    ReadsAlike pages user Eq (Web.Approvals.listMine pages user)
      (Web.Approvals.listMine pages user) s t := by
  refine .bind (layout_alike _) fun layout _ s t heq _ _ => ?_
  subst heq
  refine .readSeen inbox_seen fun pending s t _ _ hseen hpending => ?_
  have hasks : ∀ w : World, pending = ((w.db.approvals.rows.filter fun row =>
      row.approverUserId == user.id && row.status == .pending).insertionSort
        fun a b => pages.createdAt a.id ≤ pages.createdAt b.id) →
      ∀ a ∈ pending, w.asks user a.workflowInstanceId = true := by
    rintro w rfl a ha
    obtain ⟨hmem, hfilter⟩ :=
      List.mem_filter.mp ((List.mem_insertionSort _).mp ha)
    refine List.any_eq_true.mpr ⟨a, hmem, ?_⟩
    simp_all
  refine .bind (approvalRows_alike (hasks s hpending)
    (hasks t (hpending.trans (inbox_seen s t hseen))))
      fun rows _ _ _ heq _ _ => ?_
  subst heq
  exact .pure rfl

theorem itemDetail_alike (rounds : Nat) (id : Uuid) :
    ReadsAlike pages user Eq (Web.CatalogPage.itemDetail rounds user id)
      (Web.CatalogPage.itemDetail rounds user id) s t := by
  refine .bind (layout_alike _) fun layout _ s t heq _ _ => ?_
  subst heq
  refine .readSeen (item_seen id) fun found s t _ _ _ _ =>
    .okOr _ _ fun item _ => ?_
  refine .readSeen (definition_seen _) fun found s t _ _ _ _ =>
    .okOr _ found fun definition _ => ?_
  split
  · exact .pure rfl
  · trivial

theorem showDashboard_alike :
    ReadsAlike pages user Eq (Web.Dashboard.showDashboard pages user)
      (Web.Dashboard.showDashboard pages user) s t := by
  refine .bind (layout_alike _) fun layout _ s t heq _ _ => ?_
  subst heq
  exact .readSeen mine_seen fun _ _ _ _ _ _ _ =>
    .readSeen inbox_seen fun _ _ _ _ _ _ _ =>
    .pure rfl

theorem showCatalog_alike :
    ReadsAlike pages user Eq (Web.CatalogPage.showCatalog deps pages user)
      (Web.CatalogPage.showCatalog deps pages user) s t := by
  refine .bind (layout_alike _) fun layout _ s t heq _ _ => ?_
  subst heq
  exact .readSeen (fun s t h => by rw [items_seen h])
    fun _ _ _ _ _ _ _ => .pure rfl

theorem listRequests_alike :
    ReadsAlike pages user Eq (Web.Requests.listMine pages user)
      (Web.Requests.listMine pages user) s t := by
  refine .bind (layout_alike _) fun layout _ s t heq _ _ => ?_
  subst heq
  exact .readSeen mine_seen fun _ _ _ _ _ _ _ => .pure rfl

/-- Who only reads is served alike. -/
theorem serve_alike (request : PortalRequest) (rounds : Nat)
    (h : request.reader = some user) :
    ReadsAlike pages user Eq (PortalRequest.serve deps pages (request, rounds))
      (PortalRequest.serve deps pages (request, rounds)) s t := by
  have hreply : ∀ {γ : Type} {V : γ → γ → Prop} {p : Async ApiError γ}
      {reply : γ → PortalReply}, ReadsAlike pages user V p p s t →
      (∀ a b, V a b → reply a = reply b) →
        ReadsAlike pages user Eq (p >>= fun a => Pure.pure (reply a))
          (p >>= fun a => Pure.pure (reply a)) s t :=
    fun hp hV => hp.bind fun a b _ _ hab _ _ => .pure (hV a b hab)
  cases request with
  | start | submitAnswer | decide | startPage | answerPage | decidePage
  | poll => cases h
  | listInstances =>
      cases h
      exact .readSeen mine_seen fun _ _ _ _ _ _ _ => .pure rfl
  | getInstance _ id =>
      cases h
      exact hreply (getOne_alike id) fun _ _ => congrArg _
  | listApprovals =>
      cases h
      exact .readSeen inbox_seen fun _ _ _ _ _ _ _ => .pure rfl
  | dashboardPage =>
      cases h
      exact hreply showDashboard_alike fun _ _ => congrArg _
  | catalogPage =>
      cases h
      exact hreply showCatalog_alike fun _ _ => congrArg _
  | itemPage _ id =>
      cases h
      exact hreply (itemDetail_alike rounds id) fun _ _ => congrArg _
  | requestsPage =>
      cases h
      exact hreply listRequests_alike fun _ _ => congrArg _
  | requestPage _ id =>
      cases h
      exact hreply (showRequest_alike id) fun _ _ => congrArg _
  | approvalsPage =>
      cases h
      exact hreply listApprovals_alike fun _ _ => congrArg _

end Reading

/-- Who only reads is answered by what they see: whatever else happens in
two runs, a request that finds the same sight at each of its steps has the
same answer. -/
theorem reads_confined {deps : Deps} {pages : PageDeps} {w w' : World}
    {c c' : Config Input World (PortalRequest × Nat) ApiError PortalReply}
    {moments moments' : List (Input × World)} {n n' : Nat}
    {request : PortalRequest} {rounds : Nat} {user : User}
    {x y : Exit ApiError PortalReply}
    (h : Watched (portal deps pages) .free n ⟨w, []⟩ moments c)
    (h' : Watched (portal deps pages) .free n' ⟨w', []⟩ moments' c')
    (hn : c.threads[n]? = some ((request, rounds), .exit x))
    (hn' : c'.threads[n']? = some ((request, rounds), .exit y))
    (hreader : request.reader = some user)
    (hlooks : moments.map (fun m => looks pages user m.1 m.2) =
      moments'.map fun m => looks pages user m.1 m.2) : x = y :=
  h.same_answer .refl (fun _ _ _ => .trans)
    (fun _ _ _ => portal_retains) h' hn hn'
    (fun _ _ => serve_alike request rounds hreader) hlooks

namespace Sample

/-- Someone else's request, and what it has been answered. -/
def foreign (answer : String) : World where
  db :=
    { (world ticketOnly).db with
      instances := ⟨[{
        id := id 5
        workflowDefinitionId := id 4
        catalogItemId := item.id
        requesterUserId := approver.id
        status := .inProgress
        currentStepId := "file"
        answersJson := .object [("reason", .string answer)]
        completedAt := none }], by simp⟩ }
  now := 0
  dispatches := []
  log := []

theorem foreign_seen (answer answer' : String) :
    (foreign answer).seenBy pages requester =
      (foreign answer').seenBy pages requester := by
  have hnone : ∀ answer id, (foreign answer).mayRead requester id = false := by
    intro answer id
    rw [World.mayRead, Table.find?, foreign, List.find?_singleton]
    split <;> rfl
  rw [World.seenBy, World.seenBy, Sight.mk.injEq]
  refine ⟨rfl, rfl, rfl, rfl, funext fun id => ?_,
    funext fun id => ?_, rfl, rfl⟩
  · rw [Table.find?, Table.find?, foreign, foreign, List.find?_singleton,
      List.find?_singleton]
    split <;> rfl
  · rw [hnone, hnone]
    rfl

end Sample

theorem reads_confined_foreign :
    ∃ c c' :
      Config Input World (PortalRequest × Nat) ApiError PortalReply, ∃ x y,
      Reaches (portal Sample.deps Sample.pages) .free
        ⟨Sample.foreign "slow", []⟩ c ∧
      Reaches (portal Sample.deps Sample.pages) .free
        ⟨Sample.foreign "broken", []⟩ c' ∧
      c.threads =
        [((.getInstance Sample.requester (Sample.id 5), 0), .exit x)] ∧
      c'.threads = [((.getInstance Sample.requester (Sample.id 5), 0),
        .exit y)] ∧ x = y := by
  have hwatched : ∀ answer, Watched (portal Sample.deps Sample.pages) .free 0
      ⟨Sample.foreign answer, []⟩
        [(⟨0, Sample.id 100, .none⟩, Sample.foreign answer)]
      ⟨Sample.foreign answer,
        [((.getInstance Sample.requester (Sample.id 5), 0),
          .exit (.error .forbidden))]⟩ := by
    intro answer
    have harrived : Watched (portal Sample.deps Sample.pages) .free 0
        ⟨Sample.foreign answer, []⟩ [] ⟨Sample.foreign answer, _⟩ :=
      .arrive .refl (PortalRequest.getInstance Sample.requester (Sample.id 5),
        0) trivial
    have hread := Watched.own (i := Input.mk 0 (Sample.id 100) .none) harrived
      rfl rfl trivial
    exact hread
  refine ⟨_, _, _, _, (hwatched "slow").reaches, (hwatched "broken").reaches,
    rfl, rfl, ?_⟩
  refine reads_confined (hwatched "slow") (hwatched "broken") rfl rfl rfl ?_
  exact congrArg (fun sight => [(Fault.none, sight)])
    (Sample.foreign_seen "slow" "broken")

end Servcat
