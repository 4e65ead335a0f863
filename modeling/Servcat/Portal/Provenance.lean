/-
Where answers come from: what is stored as an answer of a request, and what a
connector is told about it, was submitted for this request by its requester.
-/
import Servcat.Atomic.Labels
import Servcat.Atomic.Moments
import Servcat.Atomic.Rely
import Servcat.Concurrent.Growth
import Servcat.Portal.Serving

namespace Servcat

open Atomic Keyed

/-- Each of the answers was submitted for the instance by the user. -/
def Submitted (A : PortalRequest × Nat → Prop) (instanceId userId : Uuid)
    (answers : Answers) : Prop :=
  ∀ entry ∈ answers, ∃ request, A request ∧
    request.1.Submits instanceId userId entry.1 entry.2

/-- What an instance is about never changes, and of a definition only whether it
is published. -/
structure World.Upholds (w w' : World) : Prop where
  instances : ∀ id row, w.db.instances.find? id = some row →
    ∃ row', w'.db.instances.find? id = some row' ∧
      row'.workflowDefinitionId = row.workflowDefinitionId ∧
      row'.catalogItemId = row.catalogItemId ∧
        row'.requesterUserId = row.requesterUserId
  definitions : ∀ id definition, w.db.definitions.find? id = some definition →
    ∃ isPublished,
      w'.db.definitions.find? id = some { definition with isPublished }

namespace World

/-- The instance was requested by this user, and follows this definition. -/
def Concerns (w : World) (instanceId requesterUserId : Uuid)
    (definition : WorkflowDefinition) : Prop :=
  ∃ row isPublished, w.db.instances.find? instanceId = some row ∧
    row.requesterUserId = requesterUserId ∧
    w.db.definitions.find? row.workflowDefinitionId =
      some { definition with isPublished }

/-- The connector was told what the mapping of the definition makes of
answers that were submitted, and of the rows of the requester and of the item
of the instance.  `V` are the states that threads have found: one thread has
found both rows. -/
def Vouches (A : PortalRequest × Nat → Prop) (oneOff : OneOff)
    (V : Nat → World → Prop) (w : World) (d : Dispatch) : Prop :=
  ∃ row definition mapping requester item answers n v v',
    w.db.instances.find? d.instanceId = some row ∧
    w.db.definitions.find? row.workflowDefinitionId = some definition ∧
    definition.fieldMapping = some mapping ∧
    definition.targetSystem = some d.targetSystem ∧
    V n v ∧ v.db.users.find? row.requesterUserId = some requester ∧
    V n v' ∧ v'.db.items.find? row.catalogItemId = some item ∧
    Submitted A d.instanceId row.requesterUserId answers ∧
    renderFieldMapping oneOff mapping
      { answers := .object answers
        requesterEmail := requester.email
        requesterDisplayName := requester.displayName
        instanceId := d.instanceId.toString
        catalogItemName := item.name } = .ok d.payload

/-- Nothing is known of any request but what its requester submitted. -/
structure Sourced (A : PortalRequest × Nat → Prop) (oneOff : OneOff)
    (V : Nat → World → Prop) (w : World) : Prop where
  rows : ∀ id row, w.db.instances.find? id = some row →
    Submitted A id row.requesterUserId (Orchestrator.answersMap row.answersJson)
  dispatches : ∀ d ∈ w.dispatches, Vouches A oneOff V w d

namespace Upholds

variable {w w' w'' : World}

theorem of_eq (hinstances : w'.db.instances = w.db.instances)
    (hdefinitions : w'.db.definitions = w.db.definitions) : w.Upholds w' where
  instances id row hrow := ⟨row, by rw [hinstances]; exact hrow, rfl, rfl, rfl⟩
  definitions id definition hdefinition :=
    ⟨definition.isPublished, by rw [hdefinitions]; exact hdefinition⟩

theorem refl (w : World) : w.Upholds w :=
  of_eq rfl rfl

theorem trans (h : w.Upholds w') (h' : w'.Upholds w'') : w.Upholds w'' where
  instances id row hrow := by
    obtain ⟨row', hrow', hdefinition, hitem, hrequester⟩ :=
      h.instances id row hrow
    obtain ⟨row'', hrow'', hdefinition', hitem', hrequester'⟩ :=
      h'.instances id row' hrow'
    exact ⟨row'', hrow'', hdefinition'.trans hdefinition, hitem'.trans hitem,
      hrequester'.trans hrequester⟩
  definitions id definition hdefinition := by
    obtain ⟨isPublished, hdefinition'⟩ :=
      h.definitions id definition hdefinition
    obtain ⟨isPublished', hdefinition''⟩ := h'.definitions id _ hdefinition'
    exact ⟨isPublished', hdefinition''⟩

theorem concerns (h : w.Upholds w') {instanceId requesterUserId : Uuid}
    {definition : WorkflowDefinition}
    (hw : w.Concerns instanceId requesterUserId definition) :
    w'.Concerns instanceId requesterUserId definition := by
  obtain ⟨row, isPublished, hrow, hrequester, hdefinition⟩ := hw
  obtain ⟨row', hrow', hsame, -, hrequester'⟩ := h.instances _ row hrow
  obtain ⟨isPublished', hdefinition'⟩ := h.definitions _ _ hdefinition
  refine ⟨row', isPublished', hrow', hrequester'.trans hrequester, ?_⟩
  rw [hsame]
  exact hdefinition'

theorem vouches (h : w.Upholds w') {A : PortalRequest × Nat → Prop}
    {oneOff : OneOff} {V : Nat → World → Prop} {d : Dispatch}
    (hw : Vouches A oneOff V w d) : Vouches A oneOff V w' d := by
  obtain ⟨row, definition, mapping, requester, item, answers, n, v, v', hrow,
    hdefinition, hmapping, htarget, hv, hrequester, hv', hitem, hsubmitted,
    hpayload⟩ := hw
  obtain ⟨row', hrow', hdefinitionId, hitemId, hrequesterId⟩ :=
    h.instances _ row hrow
  obtain ⟨isPublished, hdefinition'⟩ := h.definitions _ _ hdefinition
  rw [← hdefinitionId] at hdefinition'
  rw [← hrequesterId] at hrequester hsubmitted
  rw [← hitemId] at hitem
  exact ⟨row', { definition with isPublished }, mapping, requester, item,
    answers, n, v, v', hrow', hdefinition', hmapping, htarget, hv, hrequester,
    hv', hitem, hsubmitted, hpayload⟩

end Upholds

theorem Drift.upholds {w w' : World} (h : w.Drift w') : w.Upholds w' where
  instances id row hrow := ⟨row, by rw [h.instances]; exact hrow, rfl, rfl, rfl⟩
  definitions := h.definitions

/-- Steps that write neither instances nor calls of connectors. -/
theorem Sourced.of_eq {A : PortalRequest × Nat → Prop} {oneOff : OneOff}
    {V : Nat → World → Prop} {w w' : World} (hw : Sourced A oneOff V w)
    (h : w.Upholds w') (hinstances : w'.db.instances = w.db.instances)
    (hdispatches : w'.dispatches = w.dispatches) : Sourced A oneOff V w' where
  rows := by
    rw [hinstances]
    exact hw.rows
  dispatches := by
    rw [hdispatches]
    exact fun d hd => h.vouches (hw.dispatches d hd)

end World

/-- What thread `n` finds at its steps, and what each of them may do. -/
abbrev honesty (A : PortalRequest × Nat → Prop) (oneOff : OneOff)
    (V : Nat → World → Prop) (n : Nat) : Automaton Input World World :=
  relying World.Upholds (fun i t => i.thread = n ∧ t.Sourced A oneOff V ∧ V n t)
    fun t t' => t.Upholds t' ∧ t'.Sourced A oneOff V

/-- The program takes such steps only, and delivers a value with `Q`. -/
abbrev Honest {ε α : Type} (A : PortalRequest × Nat → Prop) (oneOff : OneOff)
    (V : Nat → World → Prop) (n : Nat) (p : Async ε α) (Q : α → World → Prop)
    (w : World) : Prop :=
  Follows (honesty A oneOff V n) (Delivers Q) p w

section Rules

variable {ε ε' α β : Type} {A : PortalRequest × Nat → Prop} {oneOff : OneOff}
  {V : Nat → World → Prop} {n : Nat} {w : World} {Q : β → World → Prop}

theorem honesty_looks (I : World → Prop) (hI : ∀ w, I w) :
    Looks (honesty A oneOff V n) I := by
  rintro φ i w - ⟨-, -, hsourced, -⟩
  exact ⟨w, ⟨rfl, .refl w, hsourced⟩, hI w⟩

theorem select_honest {f : World → β}
    (h : ∀ t, w.Upholds t → V n t → Q (f t) t) :
    Honest A oneOff V n (select f) Q w := by
  refine (follows_atomic _ _).mpr fun i t ht => ?_
  obtain ⟨hwt, -, hsourced, hV⟩ := ht
  refine ⟨t, ⟨?_, ?_⟩⟩
  · cases i.fault <;> exact ⟨rfl, .refl t, hsourced⟩
  · cases i.fault with
    | none => exact h t hwt hV
    | lostRequest | lostReply => trivial

theorem execute_honest {f : Input → World → Option (β × Db × List Event)}
    (h : ∀ i t b db events, w.Upholds t → t.Sourced A oneOff V →
      f i t = some (b, db, events) → t.Upholds (t.commit n db events) ∧
        (t.commit n db events).Sourced A oneOff V ∧
        Q b (t.commit n db events)) :
    Honest A oneOff V n (execute f) Q w := by
  refine (follows_atomic _ _).mpr fun i t ht => ?_
  obtain ⟨hwt, rfl, hsourced, -⟩ := ht
  cases hf : f i t with
  | none => exact ⟨t, ⟨rfl, .refl t, hsourced⟩, trivial⟩
  | some result =>
      obtain ⟨b, db, events⟩ := result
      obtain ⟨hupholds, hsourced', hQ⟩ := h i t b db events hwt hsourced hf
      cases i.fault with
      | none => exact ⟨_, ⟨rfl, hupholds, hsourced'⟩, hQ⟩
      | lostRequest => exact ⟨t, ⟨rfl, .refl t, hsourced⟩, trivial⟩
      | lostReply => exact ⟨_, ⟨rfl, hupholds, hsourced'⟩, trivial⟩

/-- What was upheld before is upheld afterwards, however the program ends. -/
theorem follows_upholds {p : Async ε α} {post : Exit ε α → World → Prop}
    (h : Follows (honesty A oneOff V n) post p w) :
    Follows (honesty A oneOff V n) (fun x t => post x t ∧ w.Upholds t) p w :=
  h.since World.Upholds.refl (fun _ _ _ => .trans) fun _ _ h => h.1

theorem bind_honest {p : Async ε α} {k : α → Async ε β} {P : α → World → Prop}
    (hp : Honest A oneOff V n p P w)
    (hk : ∀ a t, w.Upholds t → P a t → Honest A oneOff V n (k a) Q t) :
    Honest A oneOff V n (p >>= k) Q w := by
  refine (follows_bind _ _ _ _).mpr ((follows_upholds hp).mono fun x t hx => ?_)
  cases x with
  | ok a => exact hk a t hx.2 hx.1
  | error | panicked => trivial

theorem mapError_honest {g : ε → ε'} {p : Async ε β}
    (h : Honest A oneOff V n p Q w) : Honest A oneOff V n (p.mapError g) Q w :=
  Abides.mapError h

theorem okOr_honest {e : ε} {value : Option α} {k : α → Async ε β}
    (h : ∀ a, value = some a → Honest A oneOff V n (k a) Q w) :
    Honest A oneOff V n (Program.okOr e value >>= k) Q w :=
  Abides.okOr h

theorem liftExcept_honest {result : Except ε α} {k : α → Async ε β}
    (h : ∀ a, result = .ok a → Honest A oneOff V n (k a) Q w) :
    Honest A oneOff V n (Program.liftExcept result >>= k) Q w :=
  Abides.liftExcept h

/-- Reading in front of the rest of a program. -/
theorem read_honest {f : World → α} {g : DbError → ε} {k : α → Async ε β}
    (h : ∀ t, w.Upholds t → V n t → Honest A oneOff V n (k (f t)) Q t) :
    Honest A oneOff V n ((select f).mapError g >>= k) Q w :=
  Abides.bind (Abides.mapError (select_honest h))

end Rules

/-- The program does so in whatever state it starts. -/
abbrev Blameless {ε α : Type} (A : PortalRequest × Nat → Prop) (oneOff : OneOff)
    (V : Nat → World → Prop) (n : Nat) (p : Async ε α) : Prop :=
  Within (honesty A oneOff V n) (fun _ => True) p

namespace Blameless

variable {ε α β : Type} {A : PortalRequest × Nat → Prop} {oneOff : OneOff}
  {V : Nat → World → Prop} {n : Nat} {w : World} {Q : β → World → Prop}

theorem of_honest {p : Async ε α}
    (h : ∀ w, Honest A oneOff V n p (fun _ _ => True) w) :
    Blameless A oneOff V n p :=
  fun w _ => (h w).mono fun _ _ _ => trivial

theorem honest {p : Async ε α} (h : Blameless A oneOff V n p) (w : World) :
    Honest A oneOff V n p (fun _ _ => True) w :=
  (h w trivial).mono fun x _ _ => by cases x <;> trivial

/-- A program in front of another that relies on nothing it does. -/
theorem before {p : Async ε α} {k : α → Async ε β}
    (hp : Blameless A oneOff V n p)
    (hk : ∀ a t, w.Upholds t → Honest A oneOff V n (k a) Q t) :
    Honest A oneOff V n (p >>= k) Q w :=
  bind_honest (hp.honest w) fun a t hwt _ => hk a t hwt

/-- Programs that write neither instances nor definitions, and call
no connector. -/
theorem of_leaves {still : World → World → Prop}
    (hstill : ∀ w w', still w w' → w'.db.instances = w.db.instances ∧
      w'.db.definitions = w.db.definitions ∧ w'.dispatches = w.dispatches)
    {p : Async ε α} (hp : Leaves still p) : Blameless A oneOff V n p := by
  refine Within.of_leaves (fun φ i w w' _ hw h => ?_) hp
  obtain ⟨-, -, hsourced, -⟩ := hw
  obtain ⟨hinstances, hdefinitions, hdispatches⟩ := hstill w w' h
  have hupholds : w.Upholds w' := .of_eq hinstances hdefinitions
  exact ⟨w', ⟨rfl, hupholds,
    hsourced.of_eq hupholds hinstances hdispatches⟩, trivial⟩

theorem logsOnly {p : Async ε α} (hp : Leaves World.LogsOnly p) :
    Blameless A oneOff V n p :=
  of_leaves (fun _ _ ⟨_, h⟩ => by rw [h]; exact ⟨rfl, rfl, rfl⟩) hp

theorem approvalsOnly {p : Async ε α} (hp : Leaves World.ApprovalsOnly p) :
    Blameless A oneOff V n p :=
  of_leaves (fun _ _ ⟨_, _, h⟩ => by rw [h]; exact ⟨rfl, rfl, rfl⟩) hp

theorem ticketsOnly {p : Async ε α} (hp : Leaves World.TicketsOnly p) :
    Blameless A oneOff V n p :=
  of_leaves (fun _ _ ⟨_, h⟩ => by rw [h]; exact ⟨rfl, rfl, rfl⟩) hp

end Blameless

theorem JsonMap.mem_insert {map : JsonMap} {key : String} {value : JsonValue}
    {entry : String × JsonValue} (h : entry ∈ map.insert key value) :
    entry = (key, value) ∨ entry ∈ map := by
  induction map with
  | nil => exact .inl (List.mem_singleton.mp h)
  | cons head rest ih =>
      unfold JsonMap.insert at h
      split at h
      · exact (List.mem_cons.mp h).imp id (List.mem_cons_of_mem _)
      split at h
      · exact (List.mem_cons.mp h).imp id id
      · rcases List.mem_cons.mp h with rfl | h
        · exact .inr List.mem_cons_self
        · exact (ih h).imp id (List.mem_cons_of_mem _)

/-- The only new answer is the one that is submitted. -/
theorem Engine.mem_submitAnswer {graph : WorkflowGraph} {stepId : String}
    {answers : Answers} {fieldKey : String} {value : JsonValue}
    {entry : String × JsonValue}
    (h : entry ∈ (submitAnswer graph stepId answers fieldKey value).1) :
    entry = (fieldKey, value) ∨ entry ∈ answers := by
  unfold submitAnswer at h
  split at h
  · exact .inr h
  split at h
  · split at h
    · exact .inr h
    · exact JsonMap.mem_insert h
  · exact .inr h

section Programs

variable {A : PortalRequest × Nat → Prop} {deps : Deps} {V : Nat → World → Prop}
  {n : Nat} {w : World}

/-- The connector is told what was submitted, and of the rows that the
thread has found. -/
theorem callConnector_honest {connector : TicketConnector}
    {definition : WorkflowDefinition} {instanceId requesterUserId : Uuid}
    {stepId : String} {answers : Answers} {target : TargetSystem}
    {mapping : FieldMapping} {requester : User} {row : WorkflowInstance}
    {item : ServiceCatalogItem} {v v' : World} {payload : JsonValue}
    (hconcerns : w.Concerns instanceId requesterUserId definition)
    (hrow : ∃ row', w.db.instances.find? instanceId = some row' ∧
      row'.catalogItemId = row.catalogItemId)
    (hsubmitted : Submitted A instanceId requesterUserId answers)
    (htarget : definition.targetSystem = some target)
    (hmapping : definition.fieldMapping = some mapping)
    (hv : V n v) (hrequester : v.db.users.find? requesterUserId =
      some requester)
    (hv' : V n v') (hitem : v'.db.items.find? row.catalogItemId = some item)
    (hpayload : renderFieldMapping deps.oneOff mapping
      { answers := .object answers
        requesterEmail := requester.email
        requesterDisplayName := requester.displayName
        instanceId := instanceId.toString
        catalogItemName := item.name } = .ok payload) :
    Honest (ε := ApiError) A deps.oneOff V n
      (Orchestrator.callConnector connector instanceId stepId target payload)
      (fun _ _ => True) w := by
  refine (follows_atomic _ _).mpr fun i t ht => ⟨_, ⟨rfl, ?_⟩, trivial⟩
  obtain ⟨hwt, -, hsourced, -⟩ := ht
  obtain ⟨found, isPublished, hfound, hrequesterId, hdefinition⟩ :=
    hwt.concerns hconcerns
  obtain ⟨row', hrow', hitemId⟩ := hrow
  obtain ⟨row'', hrow'', -, hitemId', -⟩ := hwt.instances _ _ hrow'
  cases hfound.symm.trans hrow''
  have hupholds : ∀ dispatches, t.Upholds { t with dispatches } :=
    fun _ => .of_eq rfl rfl
  refine ⟨hupholds _, hsourced.rows, fun d hd => ?_⟩
  rcases List.mem_cons.mp hd with rfl | hd
  · rw [← hrequesterId] at hrequester hsubmitted
    rw [← hitemId, ← hitemId'] at hitem
    exact ⟨found, { definition with isPublished }, mapping, requester, item,
      answers, n, v, v', hfound, hdefinition, hmapping, htarget, hv, hrequester,
      hv', hitem, hsubmitted, hpayload⟩
  · exact (hupholds _).vouches (hsourced.dispatches d hd)

theorem dispatchTicket_honest {definition : WorkflowDefinition}
    {instanceId requesterUserId : Uuid} {stepId : String} {answers : Answers}
    (hconcerns : w.Concerns instanceId requesterUserId definition)
    (hsubmitted : Submitted A instanceId requesterUserId answers) :
    Honest A deps.oneOff V n
      (Orchestrator.dispatchTicket deps definition instanceId stepId
        requesterUserId answers) (fun _ _ => True) w := by
  unfold Orchestrator.dispatchTicket
  refine okOr_honest fun target htarget =>
    okOr_honest fun mapping hmapping => ?_
  refine okOr_honest fun connector _ => ?_
  refine read_honest fun v h₁ hv => okOr_honest fun requester hrequester => ?_
  refine read_honest fun u h₂ _ => okOr_honest fun row hrow => ?_
  refine read_honest fun v' h₃ hv' => okOr_honest fun item hitem => ?_
  refine liftExcept_honest fun payload hpayload => ?_
  have hcreate := Repositories.Tickets.create_leaves instanceId target payload
  refine Blameless.before (Within.mapError (Blameless.ticketsOnly hcreate))
    fun ticket t h₄ => ?_
  have hrendered : renderFieldMapping deps.oneOff mapping
      { answers := .object answers
        requesterEmail := requester.email
        requesterDisplayName := requester.displayName
        instanceId := instanceId.toString
        catalogItemName := item.name } = .ok payload := by
    revert hpayload
    cases renderFieldMapping deps.oneOff mapping _ with
    | error e => exact fun h => by cases h
    | ok rendered => exact fun h => by cases h; rfl
  have hut : u.Upholds t := h₃.trans h₄
  obtain ⟨row', hrow', -, hitemId, -⟩ := hut.instances _ _ hrow
  refine bind_honest (callConnector_honest
    ((h₁.trans (h₂.trans hut)).concerns hconcerns)
    ⟨row', hrow', hitemId⟩ hsubmitted htarget hmapping hv hrequester hv' hitem
    hrendered) fun result t' _ _ => ?_
  cases result with
  | ok result =>
      have hmark := Repositories.Tickets.markSent_leaves ticket.id result
      exact Blameless.honest (Within.mapError (Blameless.ticketsOnly hmark)) t'
  | error err =>
      have hmark := Repositories.Tickets.markFailed_leaves ticket.id err.message
      exact Blameless.before (Within.mapError (Blameless.ticketsOnly hmark))
        fun _ _ _ => trivial

/-- Answers that were submitted are saved. -/
theorem saveProgress_honest {instanceId requesterUserId : Uuid}
    {definition : WorkflowDefinition} {answers : Answers}
    (hconcerns : w.Concerns instanceId requesterUserId definition)
    (hsubmitted : Submitted A instanceId requesterUserId answers)
    (stepId : String) (status : InstanceStatus) :
    Honest A deps.oneOff V n
      (Orchestrator.db <|
        Repositories.Instances.saveProgress instanceId stepId
          (.object answers) status)
      (fun _ _ => True) w := by
  refine mapError_honest (bind_honest (P := fun _ _ => True)
    (execute_honest fun i t b db events hwt hsourced hsome => ?_) fun _ t _ _ =>
      select_honest fun _ _ _ => trivial)
  cases hsome
  obtain ⟨row, -, hrow, hrequester, -⟩ := hwt.concerns hconcerns
  have hupholds : ∀ thread events, t.Upholds (t.commit thread
      (t.db.updateInstance instanceId stepId (.object answers) status t.now)
        events) := by
    refine fun _ _ => ⟨fun id row hrow => ?_, fun id definition hdefinition =>
      ⟨definition.isPublished, hdefinition⟩⟩
    rw [World.commit_db, Db.find?_updateInstance, hrow]
    split
    · exact ⟨_, rfl, rfl, rfl, rfl⟩
    · exact ⟨row, rfl, rfl, rfl, rfl⟩
  refine ⟨hupholds _ _, ⟨fun id row' hrow' => ?_, fun d hd => ?_⟩, trivial⟩
  · rw [World.commit_db, Db.find?_updateInstance] at hrow'
    split at hrow'
    · rename_i hid
      subst hid
      rw [hrow] at hrow'
      cases hrow'
      change Submitted A id row.requesterUserId answers
      rw [hrequester]
      exact hsubmitted
    · exact hsourced.rows id row' hrow'
  · exact (hupholds _ _).vouches (hsourced.dispatches d hd)

/-- Round by round, with the answers that were submitted. -/
theorem applyOutcome_honest {definition : WorkflowDefinition}
    {instanceId requesterUserId : Uuid} {answers : Answers} {rounds : Nat}
    {stepId : String} {outcome : Outcome}
    (hconcerns : w.Concerns instanceId requesterUserId definition)
    (hsubmitted : Submitted A instanceId requesterUserId answers) :
    Honest A deps.oneOff V n
      (Orchestrator.applyOutcome deps definition instanceId
        requesterUserId answers rounds stepId outcome) (fun _ _ => True) w := by
  induction rounds generalizing w stepId outcome with
  | zero => trivial
  | succ rounds ih =>
      have hsave : ∀ {t : World},
          w.Upholds t → ∀ status, Honest A deps.oneOff V n
          (Orchestrator.saveProgress instanceId stepId answers status)
          (fun _ _ => True) t := by
        intro t h status
        exact bind_honest
          (saveProgress_honest (h.concerns hconcerns) hsubmitted stepId status)
          fun saved u _ _ => Blameless.honest (.exit _) u
      cases outcome with
      | awaitingAnswer fieldKey => exact hsave (.refl w) _
      | finished endOutcome => exact hsave (.refl w) _
      | awaitingApproval resolution timeoutSeconds =>
          refine read_honest fun t hwt _ => okOr_honest fun requester _ => ?_
          have hcreate :=
            Approvals.createForInstance_leaves deps instanceId stepId
              requester resolution timeoutSeconds
          refine Blameless.before
            (Within.mapError (Blameless.approvalsOnly hcreate))
            fun _ u htu => ?_
          exact hsave (hwt.trans htu) _
      | readyToSubmitTicket =>
          have hdispatch : Honest A deps.oneOff V n
              (Orchestrator.dispatchTicket deps definition instanceId stepId
                requesterUserId answers) (fun _ _ => True) w :=
            dispatchTicket_honest hconcerns hsubmitted
          refine Abides.attempt ((follows_upholds hdispatch).mono
            fun x t hx r hr => ?_)
          have hnow := hx.2.concerns hconcerns
          cases r with
          | error err =>
              exact bind_honest (saveProgress_honest hnow hsubmitted stepId _)
                fun _ _ _ _ => trivial
          | ok value => exact liftExcept_honest fun next _ => ih hnow

/-- Reading the row a request works from. -/
theorem load_honest (id : Uuid) (fieldKey : Option String) :
    Honest A deps.oneOff V n (Repositories.Instances.load id fieldKey)
      (fun found t => ∀ row,
        found = some row → t.db.instances.find? id = some row ∧
        Submitted A id row.requesterUserId
          (Orchestrator.answersMap row.answersJson)) w := by
  refine (follows_atomic _ _).mpr fun i t ht => ?_
  obtain ⟨-, -, hsourced, -⟩ := ht
  have hsame : t.Upholds t ∧ t.Sourced A deps.oneOff V := ⟨.refl t, hsourced⟩
  cases hrow : t.db.instances.find? id with
  | none => cases i.fault with
    | none => exact ⟨t, ⟨rfl, hsame⟩, fun _ h => by cases h⟩
    | lostRequest | lostReply => exact ⟨t, ⟨rfl, hsame⟩, trivial⟩
  | some row => cases i.fault with
    | none =>
        have hupholds : t.Upholds
            (t.record i.thread (.began { row, fieldKey })) :=
          .of_eq rfl rfl
        refine ⟨_, ⟨rfl, hupholds, hsourced.of_eq hupholds rfl rfl⟩, ?_⟩
        rintro _ ⟨⟩
        exact ⟨hrow, hsourced.rows id row hrow⟩
    | lostRequest | lostReply => exact ⟨t, ⟨rfl, hsame⟩, trivial⟩

theorem concerns_of_find? {t : World} (h : w.Upholds t) {id : Uuid}
    {row : WorkflowInstance} {definition : WorkflowDefinition}
    (hrow : w.db.instances.find? id = some row)
    (hdefinition : t.db.definitions.find? row.workflowDefinitionId =
      some definition) :
    t.Concerns row.id row.requesterUserId definition := by
  obtain ⟨row', hrow', hdefinitionId, -, hrequesterId⟩ :=
    h.instances id row hrow
  refine ⟨row', definition.isPublished, ?_, hrequesterId, ?_⟩
  · rw [Table.key_of_find? hrow]
    exact hrow'
  · rw [hdefinitionId]
    exact hdefinition

theorem submitAnswer_blameless (rounds : Nat) (instanceId : Uuid)
    (requester : User) (fieldKey : String) (value : JsonValue)
    (hA : ∃ request, A request ∧
      request.1.Submits instanceId requester.id fieldKey value) :
    Blameless A deps.oneOff V n
      (Orchestrator.submitAnswer deps rounds instanceId requester fieldKey
        value) := by
  refine .of_honest fun w => bind_honest
    (mapError_honest (load_honest instanceId (some fieldKey)))
      fun found v _ hfound => ?_
  refine okOr_honest fun row hrow => ?_
  obtain ⟨hrow, hsubmitted⟩ := hfound row hrow
  split
  · trivial
  rename_i hrequester
  split
  · trivial
  refine read_honest fun t hvt _ => okOr_honest fun definition hdefinition => ?_
  refine liftExcept_honest fun next hnext => ?_
  have hconcerns := concerns_of_find? hvt hrow hdefinition
  have hid : row.id = instanceId := Table.key_of_find? hrow
  rw [hid, not_not.mp hrequester] at hconcerns
  rw [not_not.mp hrequester] at hsubmitted
  rw [hid]
  refine applyOutcome_honest hconcerns fun entry hentry => ?_
  rcases Engine.mem_submitAnswer hentry with rfl | hold
  · exact hA
  · exact hsubmitted entry hold

theorem resumeAfterApproval_blameless (rounds : Nat) (instanceId : Uuid)
    (stepId : String) (decision : ApprovalDecision) :
    Blameless A deps.oneOff V n
      (Orchestrator.resumeAfterApproval deps rounds instanceId stepId
        decision) := by
  refine .of_honest fun w =>
    bind_honest (mapError_honest (load_honest instanceId none))
    fun found v _ hfound => ?_
  refine okOr_honest fun row hrow => ?_
  obtain ⟨hrow, hsubmitted⟩ := hfound row hrow
  refine read_honest fun t hvt _ => okOr_honest fun definition hdefinition => ?_
  refine liftExcept_honest fun next _ => ?_
  refine applyOutcome_honest (concerns_of_find? hvt hrow hdefinition) ?_
  rw [show row.id = instanceId from Table.key_of_find? hrow]
  exact hsubmitted

/-- The row of a new request has no answers. -/
theorem createInstance_honest {definition : WorkflowDefinition}
    {itemId requesterId : Uuid} {stepId : String}
    (hdefinition : w.db.definitions.find? definition.id = some definition) :
    Honest A deps.oneOff V n
      (Repositories.Instances.create definition.id itemId requesterId stepId)
      (fun row t => t.Concerns row.id requesterId definition ∧
        Submitted A row.id requesterId
          (Orchestrator.answersMap row.answersJson)) w := by
  refine Abides.bind
    (execute_honest fun i t id db events hwt hsourced hsome => ?_)
  obtain ⟨db', hinsert, heq⟩ := Option.map_eq_some_iff.mp hsome
  cases heq
  obtain ⟨instances, hinstances, rfl⟩ := Db.insertInstance_inserts hinsert
  have hupholds : t.Upholds
      (t.commit n { t.db with instances := instances } []) :=
    { instances := fun id row hrow =>
        ⟨row, Table.find?_insert_of_some hinstances hrow, rfl, rfl, rfl⟩
      definitions := fun id definition hdefinition =>
        ⟨definition.isPublished, hdefinition⟩ }
  refine ⟨hupholds, ⟨fun id row hrow => ?_, fun d hd => ?_⟩, ?_⟩
  · rw [World.commit_db, Table.find?_insert hinstances] at hrow
    split at hrow
    · cases hrow
      exact fun entry hentry => by cases hentry
    · exact hsourced.rows id row hrow
  · exact hupholds.vouches (hsourced.dispatches d hd)
  refine bind_honest (load_honest i.uuid none) fun found u hu hfound => ?_
  refine Abides.ofOption fun row hrow => ?_
  obtain ⟨hrow, hsubmitted⟩ := hfound row hrow
  obtain ⟨isPublished, hdefinition'⟩ :=
    (hwt.trans hupholds).definitions _ _ hdefinition
  have hconcerns : World.Concerns
      (t.commit n { t.db with instances := instances } [])
      i.uuid requesterId definition :=
    ⟨_, isPublished, Table.find?_inserted hinstances, rfl, hdefinition'⟩
  have hnow := hu.concerns hconcerns
  obtain ⟨row', -, hrow', hrequesterId, -⟩ := hnow
  cases hrow.symm.trans hrow'
  rw [Table.key_of_find? hrow]
  exact ⟨hu.concerns hconcerns, hrequesterId ▸ hsubmitted⟩

theorem startInstance_blameless (rounds : Nat) (catalogItemId : Uuid)
    (requester : User) :
    Blameless A deps.oneOff V n
      (Orchestrator.startInstance deps rounds catalogItemId requester) := by
  have hlooks : Looks (honesty A deps.oneOff V n) fun _ => True :=
    honesty_looks _ fun _ => trivial
  refine read_within hlooks fun item => .okOr fun item => ?_
  split
  · exact .exit _
  refine Blameless.of_honest fun w => read_honest fun t _ _ => ?_
  refine okOr_honest fun definition hdefinition =>
    liftExcept_honest fun next _ => ?_
  have hdefinition' : t.db.definitions.find? definition.id =
      some definition := by
    rw [Table.key_of_find? hdefinition]
    exact hdefinition
  refine bind_honest (mapError_honest (createInstance_honest hdefinition')) ?_
  intro row u _ h
  exact applyOutcome_honest h.1 h.2

/-- Only requests that submit an answer need to be accounted for. -/
theorem serve_blameless (pages : PageDeps) (request : PortalRequest × Nat)
    (hA : A request) :
    Blameless A deps.oneOff V n (PortalRequest.serve deps pages request) := by
  have hlooks : Looks (honesty A deps.oneOff V n) fun _ => True :=
    honesty_looks _ fun _ => trivial
  have hflip : ∀ id status comment, Blameless A deps.oneOff V n
      (Repositories.Approvals.decide id status comment) := fun _ _ _ =>
    Blameless.approvalsOnly (Repositories.Approvals.decide_leaves _ _ _)
  apply serve_within hlooks
  · exact startInstance_blameless
  · intro rounds id user fieldKey value h
    exact submitAnswer_blameless rounds id user fieldKey value ⟨request, hA, h⟩
  · intro rounds id userId decision comment _
    refine decide_within hlooks hflip
      (fun _ => Blameless.logsOnly (note_leaves _)) ?_
    intro instanceId stepId
    exact resumeAfterApproval_blameless rounds instanceId stepId decision
  · intro _ rounds
    refine pollOnce_within hlooks hflip
      (fun _ => Blameless.logsOnly (note_leaves _)) ?_
    intro instanceId stepId
    exact resumeAfterApproval_blameless rounds instanceId stepId .reject

end Programs

/-- The discipline of requests that have arrived, in runs through `V`. -/
def provenance (deps : Deps) (pages : PageDeps) (A : PortalRequest × Nat → Prop)
    (V : Nat → World → Prop) : Discipline ((portal deps pages).on A) where
  visits := V
  inv := World.Sourced A deps.oneOff V
  rely := World.Upholds
  may _ _ w w' := w.Upholds w' ∧ w'.Sourced A deps.oneOff V
  rely_refl := .refl
  rely_trans _ _ _ := .trans
  drift _ _ hw hdrift :=
    ⟨hw.of_eq hdrift.upholds hdrift.instances hdrift.dispatches, hdrift.upholds⟩
  step _ _ _ _ _ h := ⟨h.2, h.1⟩
  abides _ request :=
    Blameless.honest (serve_blameless pages request.1 request.2)

/-- However requests interleave and whatever fails, each answer that is stored
for a request, and each answer that a connector was told about it, was submitted
for this very request on behalf of its requester; the connector was told of the
requester and of the item as the thread that called it had found them. -/
theorem answers_from_requester {deps : Deps} {pages : PageDeps} {w : World}
    (hw : w.Initial) {moments : List (Nat × World)}
    {c : Config Input World (PortalRequest × Nat) ApiError PortalReply}
    (hc : Timed (portal deps pages) .free ⟨w, []⟩ moments c) :
    c.state.Sourced (· ∈ c.threads.map Prod.fst) deps.oneOff (Met moments) := by
  have hrun := hc.during (V := Met moments) fun _ _ hmet => hmet
  obtain ⟨d, hd, hforget⟩ :=
    hrun.on (A := (· ∈ c.threads.map Prod.fst)) fun _ hl => hl
  have hinitial :
      w.Sourced (· ∈ c.threads.map Prod.fst) deps.oneOff (Met moments) := by
    refine ⟨fun id row hrow => ?_, fun d hd => ?_⟩
    · rw [hw.instances] at hrow
      cases hrow
    · rw [hw.dispatches] at hd
      cases hd
  have hat :=
    (Discipline.at_nil (provenance deps pages _ _) hinitial).reaches hd
      fun _ _ _ hallowed => hallowed.2
  have hstate : d.state = c.state := congrArg Config.state hforget
  rw [← hstate]
  exact hat.inv

/-- A request is made, and its question answered. -/
def answeredRun :
    Option (Config Input World (PortalRequest × Nat) ApiError PortalReply) :=
  (portal Sample.deps Sample.pages).play .free
    ⟨Sample.world Sample.questionThenTicket, []⟩ <|
    Sample.visit 0 100 6 (.start Sample.requester Sample.item.id) ++
      Sample.visit 1 200 13
        (.answerPage Sample.requester (Sample.id 102) ⟨"reason", "broken"⟩)

theorem answers_from_requester_answered :
    let c := answeredRun.get (by decide)
    (∃ moments, Timed (portal Sample.deps Sample.pages) .free
        ⟨Sample.world Sample.questionThenTicket, []⟩ moments c ∧
      c.state.Sourced (· ∈ c.threads.map Prod.fst) Sample.deps.oneOff
        (Met moments)) ∧
    c.state.dispatches.length = 1 ∧
    (c.state.db.instances.find? (Sample.id 102)).map
      WorkflowInstance.answersJson =
      some (.object [("reason", .string "broken")]) := by
  intro c
  have hreach : Reaches (portal Sample.deps Sample.pages) .free
      ⟨Sample.world Sample.questionThenTicket, []⟩ c :=
    System.play_reaches (Option.some_get
      (by decide : answeredRun.isSome = true)).symm
  obtain ⟨moments, hrun⟩ := hreach.timed
  exact ⟨⟨moments, hrun, answers_from_requester (Sample.initial _)
    hrun⟩, rfl, rfl⟩

end Servcat
