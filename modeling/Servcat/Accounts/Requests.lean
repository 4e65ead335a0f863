/-
The requests that read or change accounts: through the JSON API, through the web
pages, and at the start of the server.
-/
import Servcat.Accounts.Auth

namespace Servcat

open Atomic

/-- The text of a role in the database and in forms. -/
def Role.text : Role → String
  | .requester => "requester"
  | .approver => "approver"
  | .agent => "agent"
  | .admin => "admin"

def Role.parse : String → Option Role
  | "requester" => some .requester
  | "approver" => some .approver
  | "agent" => some .agent
  | "admin" => some .admin
  | _ => none

theorem Role.parse_text (role : Role) : Role.parse role.text = some role := by
  cases role <;> rfl

structure UserProfile where
  id : Uuid
  email : String
  displayName : String
  departmentId : Option Uuid
  managerUserId : Option Uuid
  role : Role
  isActive : Bool
deriving DecidableEq, Repr

def User.profile (user : User) : UserProfile where
  id := user.id
  email := user.email
  displayName := user.displayName
  departmentId := user.departmentId
  managerUserId := user.managerUserId
  role := user.role
  isActive := user.isActive

structure TokenResponse where
  accessToken : String
  refreshToken : String
  user : UserProfile
deriving DecidableEq, Repr

/-- The cookies of a browser that concern its session. -/
structure Cookies where
  access : Option String
  refresh : Option String
deriving DecidableEq, Repr

/-- What a response does to these cookies. -/
inductive SetCookies where
  | keep
  | set (accessToken refreshToken : String)
  | clear
deriving DecidableEq, Repr

/-- What the browser is sent; which page it is shown is not modelled. -/
inductive Page where
  | redirect (path : String)
  | html
  | error (err : ApiError)
deriving DecidableEq, Repr

structure PageResponse where
  page : Page
  cookies : SetCookies
deriving DecidableEq, Repr

namespace Accounts

variable (deps : AuthDeps)

/-- `AuthUser::require_role`. -/
def requireRole (user : User) (allowed : List Role) : Async ApiError Unit :=
  if user.role ∈ allowed then pure () else .throw .forbidden

/-- The extractor `AuthUser`, given what the `Authorization` header bears. -/
def authUser (bearer : Option String) : Async ApiError User := do
  let token ← .okOr .unauthorized bearer
  let user ← validUserForAccessToken deps token
  .okOr .unauthorized user

/-- The session a request ends with. -/
def tokenResponse (user : User) : Async ApiError TokenResponse := do
  let (accessToken, refreshToken) ← issueTokenPair deps user
  return { accessToken, refreshToken, user := user.profile }

def passwordTooShort : ApiError :=
  .badRequest "password must be at least 12 characters"

def auditEntry (actor : User) (action : String) (id : Uuid)
    (metadataJson : Option JsonValue) : NewAuditLogEntry where
  actorUserId := some actor.id
  action := action
  entityType := "user"
  entityId := some id.toString
  metadataJson := metadataJson

def createdMetadata (user : User) : JsonValue :=
  .object [("email", .string user.email), ("role", .string user.role.text)]

/-- `password.map(hash_password).transpose()`. -/
def hashOptional : Option String → Async ApiError (Option String)
  | none => pure none
  | some password => do
      let passwordHash ← hashPassword deps password
      return some passwordHash

namespace Routes

def login (email password : String) : Async ApiError TokenResponse := do
  let user ← authenticateLocal deps email password
  tokenResponse deps user

def register (email displayName password : String) :
    Async ApiError TokenResponse := do
  let settings ← db OrgSettings.get
  if !settings.allowLocalSignup then .throw .forbidden
  else if password.utf8ByteSize < 12 then .throw passwordTooShort
  else do
    let existing ← db (Users.getByEmail deps.collation email)
    if existing.isSome then
      .throw (.conflict "an account with that email already exists")
    else do
      let passwordHash ← hashPassword deps password
      let user ← db <| Users.create deps.collation
        { email, displayName
          password := none
          externalIdpSubject := none
          departmentId := none
          managerUserId := none
          role := .requester } (some passwordHash)
      tokenResponse deps user

def refresh (refreshToken : String) : Async ApiError TokenResponse := do
  let userId ← redeemRefreshToken deps refreshToken
  let user ← activeUser userId
  tokenResponse deps user

/-- A token that is not good any more is no error. -/
def logout (refreshToken : String) : Async ApiError Unit := do
  let _ ← (redeemRefreshToken deps refreshToken).attempt
  return ()

def requestPasswordReset (email : String) : Async ApiError Unit := do
  let mailer ←
    .okOr (.notFound "password reset is not enabled on this deployment")
      deps.mailer
  sendPasswordResetEmail deps mailer email

def confirmPasswordReset
    (token newPassword : String) : Async ApiError Unit := do
  if newPassword.utf8ByteSize < 12 then .throw passwordTooShort
  else do
    let userId ← redeemPasswordResetToken deps token
    let passwordHash ← hashPassword deps newPassword
    db (Users.setPasswordHash userId passwordHash)
    revokeAllSessions userId

/-- The callback of single sign-on, once the identity is known; a handoff code
is issued for the user. -/
def ssoCallback (identity : AuthenticatedIdentity) : Async ApiError Uuid := do
  let user ← provisionOrLinkUser deps identity
  if !user.isActive then .throw .unauthorized else return user.id

/-- The exchange of a handoff code that was issued for this user. -/
def ssoToken (userId : Uuid) : Async ApiError TokenResponse := do
  let user ← activeUser userId
  tokenResponse deps user

def createUser (bearer : Option String) (new : NewUser) :
    Async ApiError UserProfile := do
  let actor ← authUser deps bearer
  requireRole actor [.admin]
  if new.password.isNone && new.externalIdpSubject.isNone then
    .throw (.badRequest
      "a new user needs either a password or an external_idp_subject")
  else do
    let passwordHash ← hashOptional deps new.password
    let created ← db (Users.create deps.collation new passwordHash)
    db <| Audit.record <|
      auditEntry actor "user.create" created.id (some (createdMetadata created))
    return created.profile

def updateUser (bearer : Option String) (id : Uuid) (patch : UpdateUser) :
    Async ApiError UserProfile := do
  let actor ← authUser deps bearer
  requireRole actor [.admin]
  let found ← db (Users.update id patch)
  let updated ← .okOr (.notFound "user not found") found
  db (Audit.record (auditEntry actor "user.update" id none))
  return updated.profile

/-- Deactivating a user, for an admin who is signed in. -/
def deactivate (actor : User) (id : Uuid) : Async ApiError Unit := do
  if actor.id = id then
    .throw (.badRequest "you cannot deactivate your own account")
  else do
    db (Users.deactivate id)
    revokeAllSessions id
    db (Audit.record (auditEntry actor "user.deactivate" id none))

def deactivateUser (bearer : Option String)
    (id : Uuid) : Async ApiError Unit := do
  let actor ← authUser deps bearer
  requireRole actor [.admin]
  deactivate actor id

end Routes

namespace Web

/-- `require_admin`. -/
def requireAdmin (user : User) : Async ApiError Unit :=
  if user.role = .admin then pure () else .throw .forbidden

/-- A handler of a page with its errors as pages; `WebError` sends a browser
whose session has ended to the login page. -/
def respond (p : Async ApiError Page) : Async ApiError Page := do
  match ← p.attempt with
  | .ok page => return page
  | .error .unauthorized => return .redirect "/login"
  | .error err => return .error err

def hexDigit (n : Nat) : Char :=
  if n < 10 then .ofNat ('0'.toNat + n) else .ofNat ('A'.toNat + (n - 10))

def urlencodingEncode (s : String) : String :=
  .ofList <| s.toUTF8.toList.flatMap fun byte =>
    let c := Char.ofNat byte.toNat
    if c.isAlphanum || c ∈ ['-', '_', '.', '~', '/', '?', '='] then [c]
    else ['%', hexDigit (byte.toNat / 16), hexDigit (byte.toNat % 16)]

/-- Trade a refresh token for a new session of its user, who must be active. -/
def rotate (refreshToken : String) :
    Async ApiError (User × String × String) := do
  let userId ← redeemRefreshToken deps refreshToken
  let user ← activeUser userId
  let (accessToken, refreshToken) ← issueTokenPair deps user
  return (user, accessToken, refreshToken)

/-- The user of the access token, if it is still good; an error means
that it is not. -/
def currentUser (access : Option String) : Async ApiError (Option User) := do
  match access with
  | none => return none
  | some token => do
      let found ← (validUserForAccessToken deps token).attempt
      return found.toOption.join

/-- The user of the refresh token, with a new session in the place
of the old. -/
def renewSession (refresh : Option String) :
    Async ApiError (Option (User × String × String)) := do
  match refresh with
  | none => return none
  | some token => do
      let renewed ← (rotate deps token).attempt
      return renewed.toOption

/-- A page behind the login: for the user of the access token, else for the one
whose session can be renewed, else the login page. -/
def requireSession (cookies : Cookies) (path : String)
    (next : User → Async ApiError Page) : Async ApiError PageResponse := do
  match ← currentUser deps cookies.access with
  | some user => do
      let page ← respond (next user)
      return ⟨page, .keep⟩
  | none =>
      match ← renewSession deps cookies.refresh with
      | some (user, accessToken, refreshToken) => do
          let page ← respond (next user)
          return ⟨page, .set accessToken refreshToken⟩
      | none =>
          return ⟨.redirect s!"/login?next={urlencodingEncode path}", .keep⟩

/-- Only a path of this site. -/
def safeNext (next : Option String) : String :=
  match next with
  | some n => if n.startsWith "/" && !n.startsWith "//" then n else "/"
  | none => "/"

/-- The end of a login: a session, or the login page again. -/
def finishLogin (user : Async ApiError User) (next failed : String) :
    Async ApiError PageResponse := do
  let result ← Program.attempt do
    let user ← user
    issueTokenPair deps user
  match result with
  | .ok (accessToken, refreshToken) =>
      return ⟨.redirect next, .set accessToken refreshToken⟩
  | .error _ => return ⟨.redirect failed, .keep⟩

def submitLogin (email password : String) (next : Option String) :
    Async ApiError PageResponse :=
  let next := safeNext next
  finishLogin deps (authenticateLocal deps email password) next
    s!"/login?error=1&next={next}"

/-- The exchange of a handoff code that was issued for this user. -/
def ssoComplete (userId : Uuid) (next : Option String) :
    Async ApiError PageResponse :=
  finishLogin deps (activeUser userId) (safeNext next) "/login?error=1"

def logout (cookies : Cookies) : Async ApiError PageResponse := do
  match cookies.refresh with
  | none => return ⟨.redirect "/login", .clear⟩
  | some token => do
      let _ ← (redeemRefreshToken deps token).attempt
      return ⟨.redirect "/login", .clear⟩

def submitForgotPassword (email : String) : Async ApiError Page := do
  match deps.mailer with
  | none => return .redirect "/login"
  | some mailer => do
      sendPasswordResetEmail deps mailer email
      let _ ← db OrgSettings.get
      return .html

def submitResetPassword (token newPassword : String) : Async ApiError Page := do
  let _ ← db OrgSettings.get
  if newPassword.utf8ByteSize < 12 then return .html
  else do
    match ← (redeemPasswordResetToken deps token).attempt with
    | .error _ => return .html
    | .ok userId => do
        let passwordHash ← hashPassword deps newPassword
        db (Users.setPasswordHash userId passwordHash)
        revokeAllSessions userId
        return .redirect "/login?reset=1"

structure CreateUserForm where
  email : String
  displayName : String
  password : String
  role : String

structure UpdateUserForm where
  role : String
  departmentId : Option String
  managerUserId : Option String
  isActive : Option String

def invalidRole : ApiError :=
  .badRequest "invalid role"

def createUser (form : CreateUserForm)
    (actor : User) : Async ApiError Page := do
  requireAdmin actor
  let role ← .okOr invalidRole (Role.parse form.role)
  let passwordHash ← hashPassword deps form.password
  let created ← db <| Users.create deps.collation
    { email := form.email
      displayName := form.displayName
      password := none
      externalIdpSubject := none
      departmentId := none
      managerUserId := none
      role := role } (some passwordHash)
  db <| Audit.record <|
    auditEntry actor "user.create" created.id (some (createdMetadata created))
  return .redirect "/admin/users"

/-- A field of the form that names a row: an empty or unreadable one
names none. -/
def idField (field : Option String) : Option Uuid :=
  (field.filter fun s => s ≠ "").bind deps.parseUuid

/-- The patch the form describes: a box that is not ticked makes the
user inactive. -/
def UpdateUserForm.patch (form : UpdateUserForm)
    (role : Role) : UpdateUser where
  displayName := none
  departmentId := idField deps form.departmentId
  managerUserId := idField deps form.managerUserId
  role := some role
  isActive := some (form.isActive = some "true")

def updateUser (id : Uuid) (form : UpdateUserForm) (actor : User) :
    Async ApiError Page := do
  requireAdmin actor
  let role ← .okOr invalidRole (Role.parse form.role)
  let found ← db (Users.update id (form.patch deps role))
  let updated ← .okOr (.notFound "user not found") found
  db (Audit.record (auditEntry actor "user.update" updated.id none))
  return .redirect "/admin/users"

def deactivateUser (id : Uuid) (actor : User) : Async ApiError Page := do
  requireAdmin actor
  Routes.deactivate actor id
  return .redirect "/admin/users"

end Web

/-- Creates the configured admin, unless its email is taken or some
admin exists. -/
def bootstrapAdmin (email password : String) : Async ApiError Unit := do
  let existing ← db (Users.getByEmail deps.collation email)
  if existing.isSome then pure ()
  else do
    let users ← db (Users.list deps.collation true)
    if !users.all fun u => u.role != .admin then pure ()
    else do
      let passwordHash ← hashPassword deps password
      let _ ← db <| Users.create deps.collation
        { email
          displayName := "Bootstrap Administrator"
          password := none
          externalIdpSubject := none
          departmentId := none
          managerUserId := none
          role := .admin } (some passwordHash)
      pure ()

end Accounts

/-- The requests of this section.  `page` is any other page behind the login. -/
inductive AccountRequest where
  | login (email password : String)
  | register (email displayName password : String)
  | refresh (refreshToken : String)
  | logout (refreshToken : String)
  | requestPasswordReset (email : String)
  | confirmPasswordReset (token newPassword : String)
  | ssoCallback (identity : AuthenticatedIdentity)
  | ssoToken (userId : Uuid)
  | createUser (bearer : Option String) (new : NewUser)
  | updateUser (bearer : Option String) (id : Uuid) (patch : UpdateUser)
  | deactivateUser (bearer : Option String) (id : Uuid)
  | submitLogin (email password : String) (next : Option String)
  | ssoComplete (userId : Uuid) (next : Option String)
  | webLogout (cookies : Cookies)
  | submitForgotPassword (email : String)
  | submitResetPassword (token newPassword : String)
  | createUserPage (cookies : Cookies) (form : Accounts.Web.CreateUserForm)
  | updateUserPage (cookies : Cookies) (id : Uuid)
      (form : Accounts.Web.UpdateUserForm)
  | deactivateUserPage (cookies : Cookies) (id : Uuid)
  | page (cookies : Cookies) (path : String)
  | bootstrapAdmin (email password : String)

/-- The update of a user a request asks for. -/
def AccountRequest.update? (deps : AuthDeps) :
    AccountRequest → Option (Uuid × UpdateUser)
  | .updateUser _ id patch => some (id, patch)
  | .updateUserPage _ id form =>
      (Role.parse form.role).map fun role => (id, form.patch deps role)
  | _ => none

inductive AccountReply where
  | done
  | session (response : TokenResponse)
  | profile (user : UserProfile)
  | handoff (userId : Uuid)
  | page (response : PageResponse)
deriving DecidableEq, Repr

open Accounts in
def AccountRequest.serve (deps : AuthDeps) :
    AccountRequest → Accounts.Async ApiError AccountReply
  | .login email password => do
      let response ← Routes.login deps email password
      return .session response
  | .register email displayName password => do
      let response ← Routes.register deps email displayName password
      return .session response
  | .refresh refreshToken => do
      let response ← Routes.refresh deps refreshToken
      return .session response
  | .logout refreshToken => do
      Routes.logout deps refreshToken
      return .done
  | .requestPasswordReset email => do
      Routes.requestPasswordReset deps email
      return .done
  | .confirmPasswordReset token newPassword => do
      Routes.confirmPasswordReset deps token newPassword
      return .done
  | .ssoCallback identity => do
      let userId ← Routes.ssoCallback deps identity
      return .handoff userId
  | .ssoToken userId => do
      let response ← Routes.ssoToken deps userId
      return .session response
  | .createUser bearer new => do
      let user ← Routes.createUser deps bearer new
      return .profile user
  | .updateUser bearer id patch => do
      let user ← Routes.updateUser deps bearer id patch
      return .profile user
  | .deactivateUser bearer id => do
      Routes.deactivateUser deps bearer id
      return .done
  | .submitLogin email password next => do
      let response ← Web.submitLogin deps email password next
      return .page response
  | .ssoComplete userId next => do
      let response ← Web.ssoComplete deps userId next
      return .page response
  | .webLogout cookies => do
      let response ← Web.logout deps cookies
      return .page response
  | .submitForgotPassword email => do
      let page ← Web.respond (Web.submitForgotPassword deps email)
      return .page ⟨page, .keep⟩
  | .submitResetPassword token newPassword => do
      let page ← Web.respond (Web.submitResetPassword deps token newPassword)
      return .page ⟨page, .keep⟩
  | .createUserPage cookies form => do
      let response ← Web.requireSession deps cookies "/admin/users"
        (Web.createUser deps form)
      return .page response
  | .updateUserPage cookies id form => do
      let response ← Web.requireSession deps cookies
        s!"/admin/users/{id.toString}/update" (Web.updateUser deps id form)
      return .page response
  | .deactivateUserPage cookies id => do
      let response ← Web.requireSession deps cookies
        s!"/admin/users/{id.toString}/deactivate" (Web.deactivateUser id)
      return .page response
  | .page cookies path => do
      let response ← Web.requireSession deps cookies path fun _ => return .html
      return .page response
  | .bootstrapAdmin email password => do
      Accounts.bootstrapAdmin deps email password
      return .done

end Servcat
