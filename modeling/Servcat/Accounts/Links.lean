/-
Callbacks of single sign-on look for their user by subject and by email before
they link or create one: when a link, once made, stays.
-/
import Servcat.Accounts.SingleUse

namespace Servcat

open Atomic Keyed

namespace Accounts

/-- Any number of callbacks, with faults at any of their statements. -/
def callbacks (deps : AuthDeps) :
    System Draw Accounts AuthenticatedIdentity ApiError User where
  code := provisionOrLinkUser deps
  input n i := i.thread = n
  drift := Drift

instance (deps : AuthDeps) (n : Nat) (i : Draw) :
    Decidable ((callbacks deps).input n i) :=
  inferInstanceAs (Decidable (_ = _))

/-- A link is made only for a user without one, or with that one, and a user
found by subject has that very subject. -/
def Fair (s : Accounts) : AccountEvent → Prop
  | .linked id subject => ∀ row ∈ s.users.rows, row.id = id →
      row.externalIdpSubject = none ∨ row.externalIdpSubject = some subject
  | .matched user subject => user.externalIdpSubject = some subject
  | _ => True

instance (s : Accounts) (event : AccountEvent) : Decidable (s.Fair event) := by
  cases event <;> unfold Fair <;> infer_instance

def fairly : Regime Accounts AuthenticatedIdentity where
  arrives _ := True
  allowed n s t := ∀ event, t.log = (n, event) :: s.log → s.Fair event

instance : Regime.Checked fairly where
  arrives _ := isTrue trivial
  allowed n s t :=
    match ht : t.log with
    | [] => isTrue fun event h => by rw [ht] at h; cases h
    | (m, event) :: rest =>
        decidable_of_iff (m = n → rest = s.log → s.Fair event)
          ⟨fun h event' heq => by
            rw [ht] at heq
            cases heq
            exact h rfl rfl, fun h hm hrest => h event (by rw [ht, hm, hrest])⟩

namespace Links

/-- How far a callback has come, whose identity has this subject. -/
inductive Stage where
  | looking
  | unlinked (userId : Uuid)
  | settled (userId : Uuid)

structure Phase where
  subject : String
  stage : Stage

/-- What a callback may do to the accounts. -/
inductive Move (collation : String → String → Bool) (n : Nat) :
    Phase → Accounts → Phase → Accounts → Prop
  | idle {φ : Phase} {s : Accounts} : Move collation n φ s φ s
  | match {subject : String} {s : Accounts} {user : User}
      (hfound : s.bySubject? collation subject = some user) :
      Move collation n ⟨subject, .looking⟩ s ⟨subject, .settled user.id⟩
        (s.record n (.matched user subject))
  | find {subject : String} {s : Accounts} {user : User}
      (huser : user ∈ s.users.rows) :
      Move collation n ⟨subject, .looking⟩ s ⟨subject, .unlinked user.id⟩ s
  | link {subject : String} {s t : Accounts} {userId : Uuid}
      (hlink : s.linkSubject collation userId subject = some t) :
      Move collation n ⟨subject, .unlinked userId⟩ s ⟨subject, .settled userId⟩
        (t.record n (.linked userId subject))
  | create {s t : Accounts} {subject : String} {id : Uuid} {new : NewUser}
      (hsubject : new.externalIdpSubject = some subject)
      (hinsert : s.insertUser collation id new none = some t) :
      Move collation n ⟨subject, .looking⟩ s ⟨subject, .settled id⟩ t

variable {deps : AuthDeps}

/-- The row that is read back at the end is that of the user the callback
settled on. -/
theorem settled_of_read {ε ε' : Type} {n : Nat} {subject : String} {id : Uuid}
    {err : ε'} {x : Exit ε (Option User)} {ψ : Phase}
    (h : Yields (fun found ψ => ψ = ⟨subject, .settled id⟩ ∧
      ∀ user, found = some user → user.id = id) x ψ) :
    Yields (fun found ψ => Follows (thread (Move deps.collation) n)
      (Yields fun user ψ => ψ = ⟨subject, .settled user.id⟩)
      (.okOr err found : Async ε' User) ψ) x ψ := by
  cases x with
  | error | panicked => trivial
  | ok found =>
      obtain ⟨rfl, hid⟩ := h
      cases found with
      | none => trivial
      | some user =>
          exact congrArg (Phase.mk subject <| .settled ·) (hid user rfl).symm

theorem provisionOrLinkUser_follows (n : Nat)
    (identity : AuthenticatedIdentity) :
    Follows (thread (Move deps.collation) n)
      (Yields fun user ψ => ψ = ⟨identity.externalIdpSubject, .settled user.id⟩)
      (provisionOrLinkUser deps identity)
        ⟨identity.externalIdpSubject, .looking⟩ := by
  refine yields_bind (yields_db (yields_execute (fun _ _ _ => .idle) ?_))
  rintro i s found t hi hsome
  cases hfound : s.bySubject? deps.collation identity.externalIdpSubject with
  | some user =>
      simp only [hfound, Option.some.injEq, Prod.mk.injEq] at hsome
      obtain ⟨rfl, rfl⟩ := hsome
      rw [hi]
      exact ⟨_, .match hfound, rfl⟩
  | none =>
  simp only [hfound, Option.some.injEq, Prod.mk.injEq] at hsome
  obtain ⟨rfl, rfl⟩ := hsome
  refine ⟨_, .idle, yields_read (fun _ _ _ => .idle) fun s => ?_⟩
  cases hemail : s.users.rows.find? fun row =>
      sameText deps.collation row.email identity.email with
  | some user =>
      refine ⟨_, .find (List.mem_of_find?_eq_some hemail), ?_⟩
      dsimp only
      split
      · trivial
      refine yields_bind (yields_db
        (yields_bind (yields_execute (fun _ _ _ => .idle) ?_)))
      rintro i s _ t hi hsome
      obtain ⟨t', hlink, heq⟩ := Option.map_eq_some_iff.mp hsome
      cases heq
      rw [hi]
      refine ⟨_, .link hlink,
        (getById_yields (fun _ _ _ => .idle) user.id).mono ?_⟩
      exact fun x ψ => settled_of_read
  | none =>
      refine ⟨_, .idle, yields_db
        (yields_bind (yields_execute (fun _ _ _ => .idle) ?_))⟩
      rintro i s id t hi hsome
      obtain ⟨t', hinsert, heq⟩ := Option.map_eq_some_iff.mp hsome
      cases heq
      refine ⟨_, .create rfl hinsert, yields_bind ?_⟩
      exact (getById_yields (fun _ _ _ => .idle) i.uuid).mono fun x ψ =>
        settled_of_read

def cover (deps : AuthDeps) : Cover (callbacks deps) Phase where
  move := Move deps.collation
  entry identity := ⟨identity.externalIdpSubject, .looking⟩
  post identity :=
    Yields fun user ψ => ψ = ⟨identity.externalIdpSubject, .settled user.id⟩
  follows := provisionOrLinkUser_follows

/-- The user exists. -/
def Exists (s : Accounts) (id : Uuid) : Prop :=
  ∃ row, s.users.find? id = some row

/-- The user is linked to this subject. -/
def Linked (s : Accounts) (id : Uuid) (subject : String) : Prop :=
  ∃ row, s.users.find? id = some row ∧ row.externalIdpSubject = some subject

/-- Users stay, and so do their links. -/
structure Grows (s t : Accounts) : Prop where
  users : ∀ id, Exists s id → Exists t id
  links : ∀ id subject, Linked s id subject → Linked t id subject

theorem Grows.refl (s : Accounts) : Grows s s :=
  ⟨fun _ => id, fun _ _ => id⟩

theorem Grows.trans {s t u : Accounts} (h : Grows s t)
    (h' : Grows t u) : Grows s u :=
  ⟨fun id => h'.users id ∘ h.users id,
    fun id subject => h'.links id subject ∘ h.links id subject⟩

theorem Drift.grows {s t : Accounts} (h : s.Drift t) : Grows s t := by
  refine ⟨?_, ?_⟩
  · rintro id ⟨row, hrow⟩
    obtain ⟨departmentId, hrow'⟩ := h.after hrow
    exact ⟨_, hrow'⟩
  · rintro id subject ⟨row, hrow, hsubject⟩
    obtain ⟨departmentId, hrow'⟩ := h.after hrow
    exact ⟨_, hrow', hsubject⟩

/-- What a thread relies on in each phase. -/
def Holds (φ : Phase) (s : Accounts) : Prop :=
  match φ.stage with
  | .looking => True
  | .unlinked userId => Exists s userId
  | .settled userId => Linked s userId φ.subject

theorem Grows.holds {s t : Accounts} (h : Grows s t) {φ : Phase}
    (hφ : Holds φ s) : Holds φ t := by
  obtain ⟨subject, stage⟩ := φ
  cases stage with
  | looking => trivial
  | unlinked userId => exact h.users userId hφ
  | settled userId => exact h.links userId subject hφ

/-- Linking a user who has no link, or has that one. -/
theorem grows_link {collation : String → String → Bool} {s t : Accounts}
    {userId : Uuid} {subject : String}
    (hlink : s.linkSubject collation userId subject = some t)
    (hfair : s.Fair (.linked userId subject)) : Grows s t := by
  have hfind := find?_linkSubject hlink
  refine ⟨?_, ?_⟩
  · rintro id ⟨row, hrow⟩
    by_cases hid : id = userId
    · exact ⟨_, (hfind id).trans (by rw [if_pos hid, hrow]; rfl)⟩
    · exact ⟨row, (hfind id).trans (by rw [if_neg hid, hrow])⟩
  · rintro id subject' ⟨row, hrow, hsubject⟩
    by_cases hid : id = userId
    · refine ⟨_, (hfind id).trans (by rw [if_pos hid, hrow]; rfl), ?_⟩
      rcases hfair row (Table.mem_of_find? hrow)
        ((Table.key_of_find? hrow).trans hid) with
        hnone | hsame
      · rw [hnone] at hsubject
        cases hsubject
      · exact hsame.symm.trans hsubject
    · exact ⟨row, (hfind id).trans (by rw [if_neg hid, hrow]), hsubject⟩

theorem linked_link {collation : String → String → Bool} {s t : Accounts}
    {userId : Uuid} {subject : String}
    (hlink : s.linkSubject collation userId subject = some t)
    (hexists : Exists s userId) : Linked t userId subject := by
  obtain ⟨row, hrow⟩ := hexists
  refine ⟨{ row with externalIdpSubject := some subject }, ?_, rfl⟩
  rw [find?_linkSubject hlink, if_pos rfl, hrow, Option.map_some]

theorem grows_insertUser {collation : String → String → Bool} {s t : Accounts}
    {id : Uuid} {new : NewUser} {passwordHash : Option String}
    (hinsert : s.insertUser collation id new passwordHash = some t) :
    Grows s t := by
  obtain ⟨users, husers, rfl⟩ := insertUser_eq_some hinsert
  refine ⟨?_, ?_⟩
  · rintro id ⟨row, hrow⟩
    exact ⟨row, Table.find?_insert_of_some husers hrow⟩
  · rintro id subject ⟨row, hrow, hsubject⟩
    exact ⟨row, Table.find?_insert_of_some husers hrow, hsubject⟩

theorem Move.grows {collation : String → String → Bool} {n : Nat} {φ φ' : Phase}
    {s t : Accounts} (h : Move collation n φ s φ' t)
    (hallowed : fairly.allowed n s t) : Grows s t := by
  cases h with
  | idle | find => exact .refl s
  | «match» => exact ⟨fun _ => id, fun _ _ => id⟩
  | create _ hinsert => exact grows_insertUser hinsert
  | link hlink =>
      have hfair := hallowed _ (by rw [log_record, (linkSubject_eq_some hlink)])
      have hgrows := grows_link hlink hfair
      exact ⟨hgrows.users, hgrows.links⟩

/-- What a thread relies on after its own step. -/
theorem Move.holds {collation : String → String → Bool} {n : Nat} {φ φ' : Phase}
    {s t : Accounts} (h : Move collation n φ s φ' t) (hφ : Holds φ s)
    (hallowed : fairly.allowed n s t) : Holds φ' t := by
  cases h with
  | idle => exact hφ
  | @«match» subject s user hfound =>
      exact ⟨user, Table.find?_of_mem (List.mem_of_find?_eq_some hfound),
        hallowed (.matched user subject) rfl⟩
  | find huser => exact ⟨_, Table.find?_of_mem huser⟩
  | link hlink =>
      obtain ⟨row, hrow, hsubject⟩ := linked_link hlink hφ
      exact ⟨row, hrow, hsubject⟩
  | create hsubject hinsert =>
      obtain ⟨users, husers, rfl⟩ := insertUser_eq_some hinsert
      exact ⟨_, Table.find?_inserted husers, hsubject⟩

def outline (deps : AuthDeps) : Outline (cover deps) fairly where
  inv _ := True
  holds _ := Holds
  absent _ _ := True
  grow := Grows
  grow_refl := .refl
  grow_trans := .trans
  entry _ _ _ _ _ _ := trivial
  drift _ _ _ h :=
    ⟨trivial, Drift.grows h,
      fun _ => ⟨fun _ => trivial, fun _ => (Drift.grows h).holds⟩⟩
  step _ _ _ _ _ _ hφ hmove hallowed :=
    have hgrows := Move.grows hmove hallowed
    ⟨trivial, hgrows, hmove.holds hφ hallowed,
      fun _ _ => ⟨fun _ => trivial, fun _ => hgrows.holds⟩⟩

end Links

/-- As long as links are made fairly, none is changed ever after, and every
callback that has succeeded returned a user who is linked to its own subject
and stays so. -/
theorem sso_links_stay {deps : AuthDeps} {s : Accounts}
    {c d : Config Draw Accounts AuthenticatedIdentity ApiError User}
    (hc : Reaches (callbacks deps) fairly ⟨s, []⟩ c)
    (hd : Reaches (callbacks deps) fairly c d) :
    (∀ row ∈ c.state.users.rows, ∀ subject,
      row.externalIdpSubject = some subject →
      ∃ row' ∈ d.state.users.rows, row'.id = row.id ∧
        row'.externalIdpSubject = some subject) ∧
    ∀ (n : Nat) (identity : AuthenticatedIdentity) (user : User),
      c.threads[n]? = some (identity, .exit (.ok user)) →
      ∃ row ∈ d.state.users.rows, row.id = user.id ∧
        row.externalIdpSubject = some identity.externalIdpSubject := by
  have hat := ((Links.outline deps).at_reaches
    ((Links.outline deps).at_nil (s := s) trivial fun _ => trivial) hc).1
  have hgrows : Links.Grows c.state d.state :=
    ((Links.outline deps).at_reaches hat hd).2
  have hlinked : ∀ {id : Uuid} {subject : String},
      Links.Linked c.state id subject →
      ∃ row ∈ d.state.users.rows,
        row.id = id ∧ row.externalIdpSubject = some subject := by
    intro id subject h
    obtain ⟨row, hrow, hsubject⟩ := hgrows.links id subject h
    exact ⟨row, Table.mem_of_find? hrow, Table.key_of_find? hrow, hsubject⟩
  constructor
  · intro row hrow subject hsubject
    exact hlinked ⟨row, Table.find?_of_mem hrow, hsubject⟩
  · intro n identity user hn
    obtain ⟨φ, hφ, rfl⟩ := hat.thread n _ _ hn
    exact hlinked hφ

namespace Sample

/-- An identity with the email of user 13. -/
def identity (subject : String) : AuthenticatedIdentity :=
  ⟨subject, "ada@example.org", "ada"⟩

abbrev CallbackSchedule := List (Action Draw AuthenticatedIdentity)

/-- The second callback begins when the first is over. -/
def oneByOne : CallbackSchedule :=
  .arrive (identity "a") :: steps 0 100 4 ++
    .arrive (identity "b") :: steps 1 200 2

/-- The second callback is about to link the user when the first is over. -/
def linkedByFirst : CallbackSchedule :=
  [.arrive (identity "a"), .arrive (identity "b")] ++ steps 1 200 2 ++
    steps 0 100 4

def calledBack (R : Regime Accounts AuthenticatedIdentity) [R.Checked]
    (schedule : CallbackSchedule) :
    Option (Config Draw Accounts AuthenticatedIdentity ApiError User) :=
  (callbacks deps).play R ⟨issued, []⟩ schedule

end Sample

theorem sso_links_stay_called_back :
    let d := (Sample.calledBack fairly Sample.oneByOne).get (by decide)
    (∀ row ∈ d.state.users.rows, ∀ subject,
      row.externalIdpSubject = some subject →
      ∃ row' ∈ d.state.users.rows, row'.id = row.id ∧
        row'.externalIdpSubject = some subject) ∧
    ∀ (n : Nat) (identity : AuthenticatedIdentity) (user : User),
      d.threads[n]? = some (identity, .exit (.ok user)) →
      ∃ row ∈ d.state.users.rows, row.id = user.id ∧
        row.externalIdpSubject = some identity.externalIdpSubject :=
  sso_links_stay (System.play_reaches (Option.some_get _).symm) .refl

/-- Two people share an email: the second is given the account of the first, who
has signed in with it. -/
theorem sso_link_reassigned :
    let c := (Sample.calledBack .free Sample.linkedByFirst).get (by decide)
    let d := ((callbacks Sample.deps).play .free c (Sample.steps 1 202 2)).get
      (by decide)
    Reaches (callbacks Sample.deps) .free ⟨Sample.issued, []⟩ c ∧
    Reaches (callbacks Sample.deps) .free c d ∧
    (c.threads.map fun t => match t.2 with
      | .exit (.ok user) => some (user.id, user.externalIdpSubject)
      | _ => none) = [some (Sample.id 13, some "a"), none] ∧
    (d.threads.map fun t => match t.2 with
      | .exit (.ok user) => some (user.id, user.externalIdpSubject)
      | _ => none) =
        [some (Sample.id 13, some "a"), some (Sample.id 13, some "b")] ∧
    c.state.users.rows.map User.externalIdpSubject = [some "a"] ∧
    d.state.users.rows.map User.externalIdpSubject = [some "b"] :=
  ⟨System.play_reaches (Option.some_get _).symm,
    System.play_reaches (Option.some_get _).symm, by
      decide, by decide, by decide,
    by decide⟩

end Accounts

end Servcat
