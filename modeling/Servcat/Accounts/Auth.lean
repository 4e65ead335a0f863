/-
Signing in: passwords, sessions and their rotation, password resets, and single
sign-on, as far as they concern the accounts.
-/
import Servcat.Accounts
import Servcat.Approvals
import Servcat.Sso

namespace Servcat

open Atomic

structure Mailer where
  appBaseUrl : Option String
deriving DecidableEq, Repr

/-- What a deployment is configured with, and what it uses of other crates: the
hashes, the access tokens at a time of the clock, and the reader of
identifiers. -/
structure AuthDeps where
  collation : String → String → Bool
  sha256Hex : String → String
  argon2Hash : (salt password : String) → Option String
  argon2Verify : (password hash : String) → Option Bool
  issueAccessToken : Timestamp → User → Exit ApiError String
  verifyAccessToken : Timestamp → String → Option (Uuid × Role)
  parseUuid : String → Option Uuid
  refreshTokenTtl : Nat
  mailer : Option Mailer

namespace Accounts

variable (deps : AuthDeps)

def hashPassword (password : String) : Async ApiError String := do
  let salt ← random
  .okOr .internal (deps.argon2Hash salt password)

def verifyPassword (password hash : String) : Async ApiError Bool :=
  .okOr .internal (deps.argon2Verify password hash)

def issueAccessToken (user : User) : Async ApiError String := do
  let now ← utcNow
  .exit (deps.issueAccessToken now user)

/-- The user an access token was issued to, if it is active. -/
def validUserForAccessToken (token : String) :
    Async ApiError (Option User) := do
  let now ← utcNow
  match deps.verifyAccessToken now token with
  | none => pure none
  | some (userId, _) => do
      let user ← db (Users.getById userId)
      return user.filter User.isActive

/-- `now + ttl`, or `none` where it panics. -/
def expiry (now : Timestamp) (ttl : Nat) : Option Timestamp :=
  if ttl ≤ Approvals.maxSeconds ∧ now + ttl ≤ Approvals.maxTimestamp then
    some (now + ttl)
  else none

/-- Issue a token to a user: its text is random, and only its hash is stored. -/
def createToken (kind : TokenKind) (ttl : Nat)
    (userId : Uuid) : Async ApiError String := do
  let rawToken ← random
  let now ← utcNow
  match expiry now ttl with
  | none => .panic
  | some expiresAt => do
      db <| execute fun i s =>
        (s.insertToken kind i.uuid userId (deps.sha256Hex rawToken)
          expiresAt).map ((), ·)
      return rawToken

def createSession (userId : Uuid) : Async ApiError String :=
  createToken deps .refresh deps.refreshTokenTtl userId

/-- The `SELECT` that checks a token. -/
def present (kind : TokenKind) (tokenHash : String) :
    Async DbError (Option IssuedToken) :=
  execute fun i s =>
    some <| match s.valid? kind tokenHash with
    | none => (none, s)
    | some token => (some token, s.record i.thread (.presented kind token))

/-- The `UPDATE` that marks a token as spent. -/
def markSpent (kind : TokenKind) (id : Uuid) : Async DbError Unit :=
  execute fun i s =>
    some ((), (s.spend kind id).record i.thread (.redeemed kind id))

/-- The user a token was issued to, if it is still good; then it is spent. -/
def redeem (kind : TokenKind) (invalid : ApiError) (rawToken : String) :
    Async ApiError Uuid := do
  let found ← db (present kind (deps.sha256Hex rawToken))
  let token ← .okOr invalid found
  db (markSpent kind token.id)
  return token.userId

def redeemRefreshToken (rawToken : String) : Async ApiError Uuid :=
  redeem deps .refresh .unauthorized rawToken

def revokeAllSessions (userId : Uuid) : Async ApiError Unit :=
  db <| execute fun i s =>
    some ((), (s.revokeSessions userId).record i.thread (.revokedAll userId))

def passwordResetTtlMinutes : Nat := 30

def createPasswordResetToken (userId : Uuid) : Async ApiError String :=
  createToken deps .passwordReset (passwordResetTtlMinutes * 60) userId

/-- A token of which `redeem_password_reset_token` makes nothing. -/
def invalidResetToken : ApiError :=
  .badRequest "this password reset link is invalid or has expired"

def redeemPasswordResetToken (rawToken : String) : Async ApiError Uuid :=
  redeem deps .passwordReset invalidResetToken rawToken

def trimEndSlashes (s : String) : String :=
  .ofList (s.toList.reverse.dropWhile (· == '/')).reverse

def resetEmail (mailer : Mailer) (user : User) (token : String) : Email :=
  let base := trimEndSlashes (mailer.appBaseUrl.getD "")
  let link := s!"{base}/reset-password?token={token}"
  { recipient := user.email
    subject := "Reset your password"
    body :=
      "A password reset was requested for your account.\n\n" ++
        "If this was you, set a new password here (valid for " ++
          s!"{passwordResetTtlMinutes} minutes):\n{link}\n\n" ++
        "If you didn't request this, you can safely ignore this email -- " ++
          "your password hasn't been changed.\n" }

/-- The email goes to an active account with a password; a failure to send it is
only logged. -/
def sendPasswordResetEmail (mailer : Mailer)
    (email : String) : Async ApiError Unit := do
  match ← db (Users.getByEmail deps.collation email) with
  | none => pure ()
  | some user =>
      if !user.isActive || user.passwordHash.isNone then pure ()
      else do
        let token ← createPasswordResetToken deps user.id
        .atomic fun i s =>
          (.ok (), s.record i.thread (.mailed (resetEmail mailer user token)))

def issueTokenPair (user : User) : Async ApiError (String × String) := do
  let accessToken ← issueAccessToken deps user
  let refreshToken ← createSession deps user.id
  return (accessToken, refreshToken)

/-- The answer does not tell an unknown email from a wrong password. -/
def authenticateLocal (email password : String) : Async ApiError User := do
  let found ← db (Users.getByEmail deps.collation email)
  let user ← .okOr .unauthorized found
  if !user.isActive then .throw .unauthorized
  else do
    let passwordHash ← .okOr .unauthorized user.passwordHash
    if ← verifyPassword deps password passwordHash then return user
    else .throw .unauthorized

/-- By subject, else by email if that account is linked to no subject yet, else
a new account. -/
def provisionOrLinkUser
    (identity : AuthenticatedIdentity) : Async ApiError User := do
  match ← db (Users.getByExternalIdpSubject deps.collation
      identity.externalIdpSubject) with
  | some user => return user
  | none =>
      match ← db (Users.getByEmail deps.collation identity.email) with
      | some user =>
          if user.externalIdpSubject.isSome then
            .throw
              (.conflict
                "this email is already linked to a different sign-in method")
          else do
            let linked ← db <| Users.linkExternalIdpSubject
              deps.collation user.id identity.externalIdpSubject
            .okOr (.notFound "user not found") linked
      | none =>
          db <| Users.create deps.collation
            { email := identity.email
              displayName := identity.displayName
              password := none
              externalIdpSubject := some identity.externalIdpSubject
              departmentId := none
              managerUserId := none
              role := .requester } none

/-- `users::get_by_id(...).filter(|u| u.is_active).ok_or(Unauthorized)`. -/
def activeUser (userId : Uuid) : Async ApiError User := do
  let user ← db (Users.getById userId)
  .okOr .unauthorized (user.filter User.isActive)

end Accounts

end Servcat
