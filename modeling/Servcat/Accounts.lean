/-
The accounts: users, the sessions they hold, and the links that reset their
passwords.  Like every table of the database these are changed by statements,
each of which is one atomic step that may fail.
-/
import Servcat.Store.Authoring
import Servcat.Keyed.Indexed

namespace Servcat

open Atomic Keyed

/-- A row of `sessions` or of `password_resets`.  `spentAt` is `revoked_at` of
the one and `used_at` of the other; only the hash of the token is stored. -/
structure IssuedToken where
  id : Uuid
  userId : Uuid
  tokenHash : String
  expiresAt : Timestamp
  spentAt : Option Timestamp
deriving DecidableEq, Repr

inductive TokenKind where
  | refresh
  | passwordReset
deriving DecidableEq, Repr

abbrev TokenTable := Indexed IssuedToken.id IssuedToken.tokenHash

structure NewUser where
  email : String
  displayName : String
  password : Option String
  externalIdpSubject : Option String
  departmentId : Option Uuid
  managerUserId : Option Uuid
  role : Role
deriving DecidableEq, Repr

/-- A field that is `none` is left as it is. -/
structure UpdateUser where
  displayName : Option String
  departmentId : Option Uuid
  managerUserId : Option Uuid
  role : Option Role
  isActive : Option Bool
deriving DecidableEq, Repr

structure NewAuditLogEntry where
  actorUserId : Option Uuid
  action : String
  entityType : String
  entityId : Option String
  metadataJson : Option JsonValue
deriving DecidableEq, Repr

structure Email where
  recipient : String
  subject : String
  body : String
deriving DecidableEq, Repr

/-- What the log records of a request. -/
inductive AccountEvent where
  /-- A token that is still good was found. -/
  | presented (kind : TokenKind) (token : IssuedToken)
  /-- The token with this identifier was marked as spent. -/
  | redeemed (kind : TokenKind) (id : Uuid)
  /-- All sessions of a user were revoked. -/
  | revokedAll (userId : Uuid)
  /-- The user was found by this subject. -/
  | matched (user : User) (subject : String)
  /-- The user was linked to this subject. -/
  | linked (userId : Uuid) (subject : String)
  | mailed (email : Email)
deriving DecidableEq, Repr

/-- The state of the accounts.  Departments are known by their identifiers
only; the log, which no code reads, has its newest entry first and gives the
thread of each. -/
structure Accounts where
  users : Table User.id
  departments : List Uuid
  sessions : TokenTable
  passwordResets : TokenTable
  auditLog : List (Uuid × NewAuditLogEntry)
  orgSettings : OrgSettings
  now : Timestamp
  log : List (Nat × AccountEvent)

/-- What a step is given from outside; `token` is a random text. -/
structure Draw extends Input where
  token : String
deriving DecidableEq, Repr

namespace Accounts

/-- An `async fn` over the accounts. -/
abbrev Async (ε α : Type) := Program Draw Accounts ε α

section Steps

variable {α ε : Type}

/-- A statement that only reads. -/
def select (f : Accounts → α) : Async DbError α :=
  .atomic fun i s =>
    match i.fault with
    | .none => (.ok (f s), s)
    | _ => (.error .sqlx, s)

/-- A statement that leaves a mark: its result and the state after it, or `none`
when a constraint rejects it. -/
def execute (f : Draw → Accounts → Option (α × Accounts)) : Async DbError α :=
  .atomic fun i s =>
    match f i s, i.fault with
    | some (a, t), .none => (.ok a, t)
    | some (_, t), .lostReply => (.error .sqlx, t)
    | _, _ => (.error .sqlx, s)

/-- `Utc::now()`. -/
def utcNow : Async ε Timestamp :=
  .atomic fun _ s => (.ok s.now, s)

/-- A random text. -/
def random : Async ε String :=
  .atomic fun i s => (.ok i.token, s)

/-- A statement, with its errors as errors of the API. -/
def db (p : Async DbError α) : Async ApiError α :=
  p.mapError .ofDb

end Steps

section Statements

variable (collation : String → String → Bool) (s : Accounts)

def tokens : TokenKind → TokenTable
  | .refresh => s.sessions
  | .passwordReset => s.passwordResets

def setTokens (kind : TokenKind) (tokens : TokenTable) : Accounts :=
  match kind with
  | .refresh => { s with sessions := tokens }
  | .passwordReset => { s with passwordResets := tokens }

@[simp] theorem tokens_setTokens (kind kind' : TokenKind)
    (tokens : TokenTable) :
    (s.setTokens kind tokens).tokens kind' =
      if kind' = kind then tokens else s.tokens kind' := by
  cases kind <;> cases kind' <;> rfl

@[simp] theorem log_setTokens (kind : TokenKind) (tokens : TokenTable) :
    (s.setTokens kind tokens).log = s.log := by
  cases kind <;> rfl

@[simp] theorem users_setTokens (kind : TokenKind) (tokens : TokenTable) :
    (s.setTokens kind tokens).users = s.users := by
  cases kind <;> rfl

def record (thread : Nat) (event : AccountEvent) : Accounts :=
  { s with log := (thread, event) :: s.log }

@[simp] theorem tokens_record (thread : Nat) (event : AccountEvent)
    (kind : TokenKind) :
    (s.record thread event).tokens kind = s.tokens kind := by
  cases kind <;> rfl

@[simp] theorem log_record (thread : Nat) (event : AccountEvent) :
    (s.record thread event).log = (thread, event) :: s.log :=
  rfl

@[simp] theorem users_record (thread : Nat) (event : AccountEvent) :
    (s.record thread event).users = s.users :=
  rfl

/-- The row `INSERT INTO users` adds: `is_active` is true by default. -/
def newUser (id : Uuid) (new : NewUser)
    (passwordHash : Option String) : User where
  id := id
  email := new.email
  displayName := new.displayName
  passwordHash := passwordHash
  externalIdpSubject := new.externalIdpSubject
  departmentId := new.departmentId
  managerUserId := new.managerUserId
  role := new.role
  isActive := true

/-- Do these foreign keys refer to rows? -/
def refers (departmentId managerUserId : Option Uuid) : Bool :=
  departmentId.all (· ∈ s.departments) &&
    managerUserId.all fun id => (s.users.find? id).isSome

/-- `SELECT ... WHERE external_idp_subject = ?`. -/
def bySubject? (subject : String) : Option User :=
  s.users.rows.find? fun row =>
    row.externalIdpSubject.any (sameText collation · subject)

/-- Is the subject that of a user other than this one? -/
def subjectTaken (id : Uuid) (subject : String) : Bool :=
  s.users.rows.any fun row => row.id != id &&
    row.externalIdpSubject.any (sameText collation · subject)

/-- `INSERT INTO users`; emails are unique, and so are subjects where
there are any. -/
def insertUser (id : Uuid) (new : NewUser) (passwordHash : Option String) :
    Option Accounts :=
  if s.refers new.departmentId new.managerUserId &&
      !s.users.rows.any (fun row => sameText collation row.email new.email) &&
      !new.externalIdpSubject.any (s.subjectTaken collation id) then
    (s.users.insert? (newUser id new passwordHash)).map fun users =>
      { s with users }
  else none

theorem insertUser_eq_some {collation : String → String → Bool} {s t : Accounts}
    {id : Uuid} {new : NewUser} {passwordHash : Option String}
    (h : s.insertUser collation id new passwordHash = some t) :
    ∃ users, s.users.insert? (newUser id new passwordHash) = some users ∧
      t = { s with users } := by
  unfold insertUser at h
  split at h
  · obtain ⟨users, husers, rfl⟩ := Option.map_eq_some_iff.mp h
    exact ⟨users, husers, rfl⟩
  · cases h

/-- The row `UPDATE users` leaves behind, `COALESCE` by `COALESCE`. -/
def patched (patch : UpdateUser) (row : User) : User :=
  { row with
    displayName := patch.displayName.getD row.displayName
    departmentId := patch.departmentId <|> row.departmentId
    managerUserId := patch.managerUserId <|> row.managerUserId
    role := patch.role.getD row.role
    isActive := patch.isActive.getD row.isActive }

@[simp] theorem patched_id (patch : UpdateUser) (row : User) :
    (patched patch row).id = row.id :=
  rfl

def updateUser (id : Uuid) (patch : UpdateUser) : Option Accounts :=
  if (s.users.find? id).isNone ||
      s.refers patch.departmentId patch.managerUserId then
    some { s with
      users := s.users.modify id (patched patch) (patched_id patch) }
  else none

theorem updateUser_eq_some {s t : Accounts} {id : Uuid} {patch : UpdateUser}
    (h : s.updateUser id patch = some t) :
    t = { s with users := s.users.modify id (patched patch)
                   (patched_id patch) } := by
  unfold updateUser at h
  split at h
  · exact (Option.some.inj h).symm
  · cases h

/-- `UPDATE users SET external_idp_subject = ? WHERE id = ?`. -/
def linkSubject (id : Uuid) (subject : String) : Option Accounts :=
  if (s.users.find? id).isNone || !s.subjectTaken collation id subject then
    some { s with
      users := s.users.modify id
        (fun row => { row with externalIdpSubject := some subject })
          fun _ => rfl }
  else none

theorem linkSubject_eq_some {collation : String → String → Bool}
    {s t : Accounts} {id : Uuid} {subject : String}
    (h : s.linkSubject collation id subject = some t) :
    t = { s with
      users := s.users.modify id
        (fun row => { row with externalIdpSubject := some subject })
          fun _ => rfl } := by
  unfold linkSubject at h
  split at h
  · exact (Option.some.inj h).symm
  · cases h

theorem find?_linkSubject {collation : String → String → Bool} {s t : Accounts}
    {id : Uuid} {subject : String}
    (h : s.linkSubject collation id subject = some t) (id' : Uuid) :
    t.users.find? id' =
      if id' = id then
        (s.users.find? id').map fun row =>
          { row with externalIdpSubject := some subject }
      else s.users.find? id' := by
  obtain rfl := linkSubject_eq_some h
  exact Table.find?_modify s.users id
    (fun row => { row with externalIdpSubject := some subject })
      (fun _ => rfl) id'

def setPasswordHash (id : Uuid) (passwordHash : String) : Accounts :=
  { s with
    users := s.users.modify id
      (fun row => { row with passwordHash := some passwordHash }) fun _ => rfl }

/-- `UPDATE users SET is_active = FALSE WHERE id = ?`. -/
def deactivateUser (id : Uuid) : Accounts :=
  { s with
    users := s.users.modify id (fun row => { row with isActive := false })
      fun _ => rfl }

theorem find?_deactivateUser (s : Accounts) (id id' : Uuid) :
    (s.deactivateUser id).users.find? id' =
      if id' = id then
        (s.users.find? id').map fun row => { row with isActive := false }
      else s.users.find? id' :=
  Table.find?_modify s.users id (fun row => { row with isActive := false })
    (fun _ => rfl) id'

/-- `INSERT INTO sessions` or `INSERT INTO password_resets`. -/
def insertToken (kind : TokenKind) (id userId : Uuid) (tokenHash : String)
    (expiresAt : Timestamp) : Option Accounts :=
  if (s.users.find? userId).isSome then
    ((s.tokens kind).insert?
      { id, userId, tokenHash, expiresAt
        spentAt := none }).map (s.setTokens kind)
  else none

theorem insertToken_eq_some {s t : Accounts} {kind : TokenKind}
    {id userId : Uuid} {tokenHash : String} {expiresAt : Timestamp}
    (h : s.insertToken kind id userId tokenHash expiresAt = some t) :
    ∃ tokens, (s.tokens kind).insert?
        { id, userId, tokenHash, expiresAt, spentAt := none } = some tokens ∧
      t = s.setTokens kind tokens := by
  unfold insertToken at h
  split at h
  · obtain ⟨tokens, htokens, rfl⟩ := Option.map_eq_some_iff.mp h
    exact ⟨tokens, htokens, rfl⟩
  · cases h

/-- `SELECT ... WHERE token_hash = ?`, if it is not spent and has
not expired. -/
def valid? (kind : TokenKind) (tokenHash : String) : Option IssuedToken :=
  ((s.tokens kind).lookup? tokenHash).filter fun row =>
    row.spentAt.isNone && decide (s.now < row.expiresAt)

theorem valid?_eq_some_iff {s : Accounts} {kind : TokenKind}
    {tokenHash : String} {token : IssuedToken} :
    s.valid? kind tokenHash = some token ↔
      token ∈ (s.tokens kind).rows ∧ token.tokenHash = tokenHash ∧
        token.spentAt = none ∧ s.now < token.expiresAt := by
  simp only [valid?, Option.filter_eq_some_iff, Indexed.lookup?_eq_some_iff,
    Bool.and_eq_true, Option.isNone_iff_eq_none, decide_eq_true_eq, and_assoc]

/-- The row the statement that marks a token as spent leaves behind. -/
def spent (now : Timestamp) (id : Uuid) (row : IssuedToken) : IssuedToken :=
  if row.id = id then { row with spentAt := some now } else row

/-- The row `revoke_all_sessions` leaves behind. -/
def revoked (now : Timestamp) (userId : Uuid)
    (row : IssuedToken) : IssuedToken :=
  if row.userId = userId ∧ row.spentAt = none then
    { row with spentAt := some now }
  else row

theorem spent_keeps (now : Timestamp) (id : Uuid) :
    Indexed.Keeps IssuedToken.id IssuedToken.tokenHash (spent now id) where
  key row := by unfold spent; split <;> rfl
  index row := by unfold spent; split <;> rfl

theorem revoked_keeps (now : Timestamp) (userId : Uuid) :
    Indexed.Keeps IssuedToken.id IssuedToken.tokenHash
      (revoked now userId) where
  key row := by unfold revoked; split <;> rfl
  index row := by unfold revoked; split <;> rfl

/-- `UPDATE ... SET revoked_at = CURRENT_TIMESTAMP WHERE id = ?`,
or `used_at`. -/
def spend (kind : TokenKind) (id : Uuid) : Accounts :=
  s.setTokens kind ((s.tokens kind).rewrite (spent s.now id)
    (spent_keeps s.now id))

/-- `UPDATE sessions ... WHERE user_id = ? AND revoked_at IS NULL`. -/
def revokeSessions (userId : Uuid) : Accounts :=
  { s with
    sessions :=
      s.sessions.rewrite (revoked s.now userId) (revoked_keeps s.now userId) }

/-- `INSERT INTO audit_log`. -/
def insertAuditEntry (id : Uuid) (entry : NewAuditLogEntry) : Option Accounts :=
  if entry.actorUserId.all (fun id => (s.users.find? id).isSome) &&
      s.auditLog.all fun row => row.1 != id then
    some { s with auditLog := s.auditLog ++ [(id, entry)] }
  else none

theorem insertAuditEntry_eq_some {s t : Accounts} {id : Uuid}
    {entry : NewAuditLogEntry} (h : s.insertAuditEntry id entry = some t) :
    t = { s with auditLog := s.auditLog ++ [(id, entry)] } := by
  unfold insertAuditEntry at h
  split at h
  · exact (Option.some.inj h).symm
  · cases h

end Statements

namespace Users

variable (collation : String → String → Bool)

def getById (id : Uuid) : Async DbError (Option User) :=
  select fun s => s.users.find? id

def getByEmail (email : String) : Async DbError (Option User) :=
  select fun s => s.users.rows.find? fun row =>
    sameText collation row.email email

def getByExternalIdpSubject (subject : String) : Async DbError (Option User) :=
  execute fun i s =>
    some <| match s.bySubject? collation subject with
    | none => (none, s)
    | some user => (some user, s.record i.thread (.matched user subject))

def list (includeInactive : Bool) : Async DbError (List User) :=
  select fun s =>
    (s.users.rows.filter fun u => includeInactive || u.isActive).insertionSort
      fun a b => collation a.displayName b.displayName = true

def create (new : NewUser)
    (passwordHash : Option String) : Async DbError User := do
  let id ← execute fun i s =>
    (s.insertUser collation i.uuid new passwordHash).map (i.uuid, ·)
  let row ← getById id
  .okOr (.notFound "user" id.toString) row

def update (id : Uuid) (patch : UpdateUser) : Async DbError (Option User) := do
  execute fun _ s => (s.updateUser id patch).map ((), ·)
  getById id

def linkExternalIdpSubject (id : Uuid) (subject : String) :
    Async DbError (Option User) := do
  execute fun i s => (s.linkSubject collation id subject).map fun t =>
    ((), t.record i.thread (.linked id subject))
  getById id

def setPasswordHash (id : Uuid) (passwordHash : String) : Async DbError Unit :=
  execute fun _ s => some ((), s.setPasswordHash id passwordHash)

def deactivate (id : Uuid) : Async DbError Unit :=
  execute fun _ s => some ((), s.deactivateUser id)

end Users

namespace OrgSettings

def get : Async DbError Servcat.OrgSettings :=
  select fun s => s.orgSettings

end OrgSettings

namespace Audit

def record (entry : NewAuditLogEntry) : Async DbError Unit :=
  execute fun i s => (s.insertAuditEntry i.uuid entry).map ((), ·)

end Audit

end Accounts

end Servcat
