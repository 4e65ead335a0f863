/-
What a request may do to accounts: the rows of users that it may change, the
tokens that it may issue, and whom its entries of the audit log may name.
-/
import Servcat.Accounts.Admins
import Servcat.Accounts.SingleUse
import Servcat.Atomic.Rely

namespace Servcat

open Atomic Keyed

namespace AccountRequest

/-- The credentials a request bears; the `Authorization` header is in the place
of the access cookie. -/
def cookies : AccountRequest → Cookies
  | .createUser bearer _ | .updateUser bearer _ _ | .deactivateUser bearer _ =>
      ⟨bearer, none⟩
  | .createUserPage cookies _ | .updateUserPage cookies _ _
  | .deactivateUserPage cookies _ | .page cookies _ => cookies
  | _ => ⟨none, none⟩

/-- The email and the role of the account an admin asks for. -/
def creates? : AccountRequest → Option (String × Role)
  | .createUser _ new => some (new.email, new.role)
  | .createUserPage _ form =>
      (Role.parse form.role).map fun role => (form.email, role)
  | _ => none

def deactivates? : AccountRequest → Option Uuid
  | .deactivateUser _ id | .deactivateUserPage _ id => some id
  | _ => none

/-- The email and the password of a login. -/
def logsIn? : AccountRequest → Option (String × String)
  | .login email password | .submitLogin email password _ =>
      some (email, password)
  | _ => none

/-- The refresh token that is traded for a new one. -/
def refreshes? : AccountRequest → Option String
  | .refresh refreshToken => some refreshToken
  | req => req.cookies.refresh

/-- The user a handoff code was issued for. -/
def handsOff? : AccountRequest → Option Uuid
  | .ssoToken userId | .ssoComplete userId _ => some userId
  | _ => none

/-- The email of a password that was forgotten. -/
def forgets? : AccountRequest → Option String
  | .requestPasswordReset email | .submitForgotPassword email => some email
  | _ => none

/-- The token and the password of a reset. -/
def resets? : AccountRequest → Option (String × String)
  | .confirmPasswordReset token newPassword
  | .submitResetPassword token newPassword =>
      some (token, newPassword)
  | _ => none

end AccountRequest

namespace Accounts

/-- All requests about accounts, interleaved at statement granularity. -/
def server (deps : AuthDeps) :
    System Draw Accounts AccountRequest ApiError AccountReply where
  code := AccountRequest.serve deps
  input n i := i.thread = n
  drift := Drift

instance (deps : AuthDeps) (n : Nat) (i : Draw) :
    Decidable ((server deps).input n i) :=
  inferInstanceAs (Decidable (_ = _))

/-- A token of this kind was good, and its user's.  `visits` are the states that
were gone through. -/
def Granted (deps : AuthDeps) (visits : Accounts → Prop) (kind : TokenKind)
    (rawToken : String) (userId : Uuid) : Prop :=
  ∃ s token, visits s ∧ s.valid? kind (deps.sha256Hex rawToken) = some token ∧
    token.userId = userId

def WasActive (visits : Accounts → Prop) (user : User) : Prop :=
  ∃ s, visits s ∧ s.Active user

/-- The credentials are those of the user, who was active: an access token that
was good, or the refresh token of a session. -/
inductive Signed (deps : AuthDeps) (visits : Accounts → Prop)
    (cookies : Cookies) (user : User) : Prop
  | access {token : String} {role : Role} {s : Accounts} (hs : visits s)
      (htoken : cookies.access = some token)
      (hverified : deps.verifyAccessToken s.now token = some (user.id, role))
      (huser : WasActive visits user)
  | session {rawToken : String} (htoken : cookies.refresh = some rawToken)
      (hgranted : Granted deps visits .refresh rawToken user.id)
      (huser : WasActive visits user)

/-- The request was made by an admin. -/
structure ByAdmin (deps : AuthDeps) (visits : Accounts → Prop)
    (req : AccountRequest) (actor : User) : Prop where
  signed : Signed deps visits req.cookies actor
  admin : actor.ActiveAdmin

/-- What a request may make of the row of a user. -/
inductive Change (deps : AuthDeps) (visits : Accounts → Prop)
    (req : AccountRequest) : Option User → Option User → Prop
  | same (row : Option User) : Change deps visits req row row
  /-- Anyone signs up, where that is allowed. -/
  | register {user : User} {email displayName password : String} {s : Accounts}
      (hreq : req = .register email displayName password) (hs : visits s)
      (hallowed : s.orgSettings.allowLocalSignup = true)
      (hrole : user.role = .requester)
      (hemail : user.email = email) : Change deps visits req none (some user)
  /-- Single sign-on makes an account. -/
  | provision {user : User} {identity : AuthenticatedIdentity}
      (hreq : req = .ssoCallback identity) (hrole : user.role = .requester)
      (hemail : user.email = identity.email)
      (hsubject : user.externalIdpSubject = some identity.externalIdpSubject) :
      Change deps visits req none (some user)
  /-- The configured admin is made, while there is none. -/
  | bootstrap {user : User} {email password : String} {s : Accounts}
      (hreq : req = .bootstrapAdmin email password) (hs : visits s)
      (hnone : ∀ u ∈ s.users.rows, u.role ≠ .admin)
      (hemail : user.email = email) :
      Change deps visits req none (some user)
  | create {user actor : User} (hactor : ByAdmin deps visits req actor)
      (hreq : req.creates? = some (user.email, user.role)) :
      Change deps visits req none (some user)
  | update {user actor : User} {patch : UpdateUser}
      (hactor : ByAdmin deps visits req actor)
      (hreq : req.update? deps = some (user.id, patch)) :
      Change deps visits req (some user) (some (patched patch user))
  | deactivate {user actor : User} (hactor : ByAdmin deps visits req actor)
      (hreq : req.deactivates? = some user.id) (hother : actor.id ≠ user.id) :
      Change deps visits req (some user) (some { user with isActive := false })
  /-- The link in an email that was sent to the user. -/
  | reset {user : User} {rawToken newPassword salt passwordHash : String}
      (hreq : req.resets? = some (rawToken, newPassword))
      (hgranted : Granted deps visits .passwordReset rawToken user.id)
      (hhash : deps.argon2Hash salt newPassword = some passwordHash) :
      Change deps visits req (some user)
        (some { user with passwordHash := some passwordHash })
  /-- Single sign-on is linked to an account that had the email and
  no subject. -/
  | link {user matched : User} {identity : AuthenticatedIdentity} {s : Accounts}
      (hreq : req = .ssoCallback identity) (hs : visits s)
      (hmatched : s.users.find? user.id = some matched)
      (hemail : sameText deps.collation matched.email identity.email = true)
      (hunlinked : matched.externalIdpSubject = none) :
      Change deps visits req (some user)
        (some { user with
          externalIdpSubject := some identity.externalIdpSubject })

/-- To whom a request may issue a token of this kind. -/
inductive Entitled (deps : AuthDeps) (visits : Accounts → Prop)
    (req : AccountRequest) : TokenKind → Uuid → Prop
  | password {user : User} {email password passwordHash : String}
      (hreq : req.logsIn? = some (email, password))
      (huser : WasActive visits user)
      (hemail : sameText deps.collation user.email email = true)
      (hhash : user.passwordHash = some passwordHash)
      (hverified : deps.argon2Verify password passwordHash = some true) :
      Entitled deps visits req .refresh user.id
  | renewal {user : User} {rawToken : String}
      (hreq : req.refreshes? = some rawToken)
      (hgranted : Granted deps visits .refresh rawToken user.id)
      (huser : WasActive visits user) :
      Entitled deps visits req .refresh user.id
  | handoff {user : User} (hreq : req.handsOff? = some user.id)
      (huser : WasActive visits user) :
      Entitled deps visits req .refresh user.id
  /-- The account is the one the request has made. -/
  | registered {userId : Uuid} {new : NewUser}
      {email displayName password : String} {passwordHash : Option String}
      {s t : Accounts} (hreq : req = .register email displayName password)
      (hs : visits s)
      (hmade : s.insertUser deps.collation userId new passwordHash = some t)
      (hemail : new.email = email) : Entitled deps visits req .refresh userId
  | forgotten {user : User} {email : String} (hreq : req.forgets? = some email)
      (huser : WasActive visits user)
      (hemail : sameText deps.collation user.email email = true)
      (hhash : user.passwordHash ≠ none) :
      Entitled deps visits req .passwordReset user.id

/-- The token was this one, and if that was spent it still is. -/
structure Since (old token : IssuedToken) : Prop where
  id : token.id = old.id
  userId : token.userId = old.userId
  tokenHash : token.tokenHash = old.tokenHash
  expiresAt : token.expiresAt = old.expiresAt
  spentAt : old.spentAt ≠ none → token.spentAt ≠ none

/-- What a request may make of the tokens of a kind: all of them stay, and one
that was not there is issued to whom it should be. -/
structure Issuing (deps : AuthDeps) (visits : Accounts → Prop)
    (req : AccountRequest) (kind : TokenKind)
    (old new : TokenTable) : Prop where
  kept : ∀ row ∈ old.rows, ∃ later ∈ new.rows, Since row later
  issued : ∀ row ∈ new.rows, (∃ first ∈ old.rows, Since first row) ∨
    (∀ first ∈ old.rows, first.id ≠ row.id) ∧
      Entitled deps visits req kind row.userId

/-- What a step that serves the request may do. -/
structure Permits (deps : AuthDeps) (visits : Accounts → Prop)
    (req : AccountRequest) (s t : Accounts) : Prop where
  users : ∀ id, Change deps visits req (s.users.find? id) (t.users.find? id)
  tokens : ∀ kind, Issuing deps visits req kind (s.tokens kind) (t.tokens kind)
  auditLog : t.auditLog = s.auditLog ∨ ∃ id entry actor,
    t.auditLog = s.auditLog ++ [(id, entry)] ∧
    entry.actorUserId = some (User.id actor) ∧ ByAdmin deps visits req actor

/-- The program takes such steps only, and delivers values with `Q`. -/
def Gated {ε α : Type} (deps : AuthDeps) (visits : Accounts → Prop)
    (req : AccountRequest) (n : Nat) (p : Async ε α) (Q : α → Prop) : Prop :=
  ∀ s, Abides (fun _ _ => True) (fun i t => i.thread = n ∧ True ∧ visits t)
    (Permits deps visits req) p (fun a _ => Q a) s

section Rules

variable {ε ε' α β : Type} {deps : AuthDeps} {visits : Accounts → Prop}
  {req : AccountRequest} {n : Nat} {P : α → Prop} {Q : β → Prop}

theorem Since.refl (token : IssuedToken) : Since token token :=
  ⟨rfl, rfl, rfl, rfl, fun h => h⟩

namespace Issuing

variable {kind : TokenKind} {old new : TokenTable}

theorem refl (tokens : TokenTable) :
    Issuing deps visits req kind tokens tokens where
  kept row hrow := ⟨row, hrow, .refl row⟩
  issued row hrow := .inl ⟨row, hrow, .refl row⟩

theorem of_map {f : IssuedToken → IssuedToken} (hf : ∀ row, Since row (f row))
    (hnew : new.rows = old.rows.map f) :
    Issuing deps visits req kind old new where
  kept row hrow := by
    rw [hnew]
    exact ⟨f row, List.mem_map_of_mem hrow, hf row⟩
  issued row hrow := by
    rw [hnew] at hrow
    obtain ⟨first, hfirst, rfl⟩ := List.mem_map.mp hrow
    exact .inl ⟨first, hfirst, hf first⟩

theorem insert {row : IssuedToken} (hnew : old.insert? row = some new)
    (hentitled : Entitled deps visits req kind row.userId) :
    Issuing deps visits req kind old new where
  kept first hfirst :=
    ⟨first, (Indexed.mem_insert hnew).mpr (.inl hfirst), .refl first⟩
  issued other hother := by
    rcases (Indexed.mem_insert hnew).mp hother with hold | rfl
    · exact .inl ⟨other, hold, .refl other⟩
    · exact .inr ⟨Indexed.fresh_insert hnew, hentitled⟩

end Issuing

theorem Permits.refl (s : Accounts) : Permits deps visits req s s where
  users _ := .same _
  tokens _ := .refl _
  auditLog := .inl rfl

theorem Permits.record {s t : Accounts} (h : Permits deps visits req s t)
    (thread : Nat) (event : AccountEvent) :
    Permits deps visits req s (t.record thread event) where
  users := h.users
  tokens kind := by
    rw [tokens_record]
    exact h.tokens kind
  auditLog := h.auditLog

/-- Putting other tokens in the place of those of one kind. -/
theorem Permits.setTokens {s : Accounts} (kind : TokenKind)
    {tokens : TokenTable}
    (h : Issuing deps visits req kind (s.tokens kind) tokens) :
    Permits deps visits req s (s.setTokens kind tokens) where
  users id := by
    rw [users_setTokens]
    exact .same _
  tokens kind' := by
    rw [tokens_setTokens]
    split
    · rename_i heq
      exact heq ▸ h
    · exact .refl _
  auditLog := by cases kind <;> exact .inl rfl

namespace Gated

theorem ok {b : β} (h : Q b) : Gated (ε := ε) deps visits req n (pure b) Q :=
  fun _ => h

theorem throw (e : ε) : Gated deps visits req n (.throw e) Q :=
  fun _ => trivial

theorem panic : Gated (ε := ε) deps visits req n .panic Q :=
  fun _ => trivial

theorem bind {p : Async ε α} {k : α → Async ε β}
    (hp : Gated deps visits req n p P)
    (hk : ∀ a, P a → Gated deps visits req n (k a) Q) :
    Gated deps visits req n (p >>= k) Q :=
  fun s => .bind ((hp s).mono fun a t ha => hk a ha t)

theorem mono {p : Async ε α} {P' : α → Prop} (hp : Gated deps visits req n p P)
    (himp : ∀ a, P a → P' a) : Gated deps visits req n p P' :=
  fun s => (hp s).mono fun a _ => himp a

theorem mapError {g : ε → ε'} {p : Async ε α}
    (hp : Gated deps visits req n p P) :
    Gated deps visits req n (p.mapError g) P :=
  fun s => (hp s).mapError

theorem db {p : Async DbError α} (hp : Gated deps visits req n p P) :
    Gated deps visits req n (db p) P :=
  hp.mapError

/-- The reply made of what a program returns. -/
theorem reply {p : Async ε α} (hp : Gated deps visits req n p P) {k : α → β} :
    Gated deps visits req n (p >>= fun a => pure (k a)) fun _ => True :=
  hp.bind fun _ _ => .ok trivial

theorem okOr {e : ε} {value : Option α} {k : α → Async ε β}
    (h : ∀ a, value = some a → Gated deps visits req n (k a) Q) :
    Gated deps visits req n (.okOr e value >>= k) Q :=
  fun s => .okOr fun a ha => h a ha s

theorem ofOption {e : ε} {value : Option α} (h : ∀ a, value = some a → P a) :
    Gated deps visits req n (.okOr e value) P :=
  fun _ => .ofOption h

/-- Of an error nothing is known. -/
theorem attempt {p : Async ε α} (hp : Gated deps visits req n p P) :
    Gated deps visits req n (p.attempt : Async ε' (Except ε α))
      fun r => ∀ a, r = .ok a → P a := by
  refine fun s =>
    (follows_attempt _ _ _).mpr (Follows.mono (fun x t hx => ?_) (hp s))
  cases x with
  | ok a =>
      rintro _ ⟨⟩
      exact hx
  | error e =>
      rintro _ ⟨⟩
  | panicked => trivial

theorem select {f : Accounts → α} (h : ∀ s, visits s → P (f s)) :
    Gated deps visits req n (select f) P := by
  refine fun s => .atomic fun i t _ hi => ?_
  cases i.fault with
  | none => exact ⟨.refl t, h t hi.2.2⟩
  | lostRequest | lostReply => exact ⟨.refl t, trivial⟩

theorem execute {f : Draw → Accounts → Option (α × Accounts)}
    (h : ∀ i s a t, visits s → f i s = some (a, t) →
      Permits deps visits req s t ∧ P a) :
    Gated deps visits req n (execute f) P := by
  refine fun s => .atomic fun i t _ hi => ?_
  cases hf : f i t with
  | none => exact ⟨.refl t, trivial⟩
  | some result =>
      obtain ⟨a, u⟩ := result
      obtain ⟨hpermits, hP⟩ := h i t a u hi.2.2 hf
      cases i.fault with
      | none => exact ⟨hpermits, hP⟩
      | lostRequest => exact ⟨.refl t, trivial⟩
      | lostReply => exact ⟨hpermits, trivial⟩

/-- Reading in front of the rest of a program. -/
theorem read {f : Accounts → α} {k : α → Async ApiError β}
    (h : ∀ s, visits s → Gated deps visits req n (k (f s)) Q) :
    Gated deps visits req n (Accounts.db (Accounts.select f) >>= k) Q :=
  bind (P := fun a => ∃ s, visits s ∧ a = f s)
    (db (select fun s hs => ⟨s, hs, rfl⟩)) <| by
    rintro _ ⟨s, hs, rfl⟩
    exact h s hs

theorem utcNow : Gated (ε := ε) deps visits req n utcNow fun now =>
    ∃ s, visits s ∧ s.now = now :=
  fun _ => .atomic fun _ t _ hi => ⟨.refl t, t, hi.2.2, rfl⟩

theorem random : Gated (ε := ε) deps visits req n random fun _ => True :=
  fun _ => .atomic fun _ t _ _ => ⟨.refl t, trivial⟩

end Gated

end Rules

section Writes

variable {ε : Type} {deps : AuthDeps} {visits : Accounts → Prop}
  {req : AccountRequest} {n : Nat}

theorem Permits.modify {s : Accounts} {id : Uuid} {f : User → User}
    {hf : ∀ row, (f row).id = row.id}
    (h : ∀ user,
      user.id = id → Change deps visits req (some user) (some (f user))) :
    Permits deps visits req s { s with users := s.users.modify id f hf } where
  users id' := by
    rw [show _ = _ from Table.find?_modify s.users id f hf id']
    split
    · rename_i heq
      subst heq
      cases hfound : s.users.find? id' with
      | none => exact .same _
      | some user => exact h user (Table.key_of_find? hfound)
    · exact .same _
  tokens kind := by cases kind <;> exact .refl _
  auditLog := .inl rfl

theorem Permits.insertUser {s t : Accounts} {id : Uuid} {new : NewUser}
    {passwordHash : Option String}
    (hinsert : s.insertUser deps.collation id new passwordHash = some t)
    (h : Change deps visits req none (some (newUser id new passwordHash))) :
    Permits deps visits req s t := by
  obtain ⟨users, husers, rfl⟩ := insertUser_eq_some hinsert
  refine ⟨fun id' => ?_, fun kind => ?_, .inl rfl⟩
  swap
  · cases kind <;> exact .refl _
  obtain ⟨hnone, -⟩ := Table.insert?_eq_some_iff.mp husers
  rw [show _ = _ from Table.find?_insert husers id']
  split
  · rename_i heq
    rw [heq, hnone]
    exact h
  · exact .same _

theorem Signed.isActive {cookies : Cookies} {user : User}
    (h : Signed deps visits cookies user) : user.isActive = true := by
  cases h with
  | access _ _ _ huser | session _ _ huser =>
      obtain ⟨s, -, hactive⟩ := huser
      exact hactive.2

namespace Gated

theorem create {new : NewUser} {passwordHash : Option String}
    (h : ∀ id,
      Change deps visits req none (some (newUser id new passwordHash))) :
    Gated deps visits req n (Users.create deps.collation new passwordHash)
      fun user => ∃ s t, visits s ∧
        s.insertUser deps.collation user.id new passwordHash = some t := by
  refine bind (P := fun id => ∃ s t, visits s ∧
    s.insertUser deps.collation id new passwordHash = some t)
    (execute fun i s id t hs hf => ?_) ?_
  · obtain ⟨t', hinsert, heq⟩ := Option.map_eq_some_iff.mp hf
    cases heq
    exact ⟨.insertUser hinsert (h _), s, t, hs, hinsert⟩
  rintro id ⟨s, t, hs, hinsert⟩
  refine bind (P := fun found => ∀ user, found = some user → user.id = id)
    (select fun _ _ _ => Table.key_of_find?) fun found hfound =>
      ofOption fun user huser => ?_
  exact ⟨s, t, hs, hfound user huser ▸ hinsert⟩

theorem audit {entry : NewAuditLogEntry} {actor : User}
    (hactor : ByAdmin deps visits req actor)
    (hentry : entry.actorUserId = some actor.id) :
    Gated deps visits req n (Accounts.db (Audit.record entry))
      fun _ => True := by
  refine db (execute fun i s a t _ hf => ?_)
  obtain ⟨t', hinsert, heq⟩ := Option.map_eq_some_iff.mp hf
  cases heq
  obtain rfl := insertAuditEntry_eq_some hinsert
  refine ⟨⟨fun _ => .same _, fun kind => ?_, ?_⟩, trivial⟩
  · cases kind <;> exact .refl _
  · exact .inr ⟨_, entry, actor, rfl, hentry, hactor⟩

end Gated

end Writes

end Accounts

end Servcat
