/-
Signing in through Entra ID while other logins are under way: what the calls do
between two awaits, and the keys that ID tokens are checked with.
-/
import Servcat.Sso
import Servcat.Atomic.Interleaving

namespace Servcat

open Atomic Keyed

/-- A key that Entra ID signs ID tokens with. -/
structure Jwk where
  kid : String
  n : String
  e : String
deriving DecidableEq, Repr

/-- What comes of the request for the signing keys. -/
inductive JwksReply where
  | unreachable
  | malformed
  | keys (keys : List Jwk)
deriving DecidableEq, Repr

/-- What the service uses of other crates: the PKCE transformation, and for ID
tokens the key identifier of their header, the keys, and the check of a token at
a time against a key, an audience and an issuer. -/
structure JwtDeps (Key : Type) where
  challenge : String → String
  decodeHeader : String → Option (Option String)
  fromRsaComponents : (n e : String) → Option Key
  decode : (clock : Nat) → Key → (audience issuer idToken : String) →
    Option IdTokenClaims

/-- What the log, which no code reads, records. -/
inductive SsoEvent where
  | began (state : String) (pending : PendingLogin) (time : Instant)
  | took (state : String) (pending : PendingLogin) (time : Instant)
  | exchanged (params : List (String × String)) (reply : TokenReply)
  | fetched (reply : JwksReply)
  | stored (keys : List Jwk) (time : Instant)
  | looked (kid : String) (found : Option Jwk) (time : Instant)
  | told (clock : Nat)
deriving DecidableEq, Repr

/-- The service with its cache of keys, at a time; the log has its newest entry
first and gives the thread of each. -/
structure SsoServer where
  service : SsoService
  jwksCache : Option (Stamped (List Jwk))
  now : Instant
  log : List (Nat × SsoEvent)

/-- What a step is given from outside: random tokens, the answers of Entra ID,
and the time of the system clock. -/
structure SsoInput where
  thread : Nat
  state : String
  nonce : String
  pkceVerifier : String
  exchange : TokenReply
  jwks : JwksReply
  clock : Nat
deriving DecidableEq, Repr

def SsoService.expectedIssuer (config : AzureSsoConfig) : String :=
  s!"https://login.microsoftonline.com/{config.tenantId}/v2.0"

/-- The form that is sent for an ID token. -/
def SsoService.tokenParams (config : AzureSsoConfig) (code : String)
    (pending : PendingLogin) : List (String × String) :=
  [("client_id", config.clientId), ("client_secret", config.clientSecret),
    ("grant_type", "authorization_code"), ("code", code),
    ("redirect_uri", config.redirectUri),
      ("code_verifier", pending.pkceVerifier)]

namespace SsoServer

abbrev Async (ε α : Type) := Program SsoInput SsoServer ε α

def jwksCacheTtl : Instant :=
  seconds 3600

def new (config : AzureSsoConfig) (now : Instant) : SsoServer :=
  ⟨.new config, none, now, []⟩

def record (s : SsoServer) (thread : Nat) (event : SsoEvent) : SsoServer :=
  { s with log := (thread, event) :: s.log }

/-- `cached_jwk`. -/
def cachedJwk? (s : SsoServer) (kid : String) : Option Jwk :=
  (s.jwksCache.filter fun cache => s.now - cache.createdAt ≤ jwksCacheTtl).bind
    fun cache =>
    cache.value.find? fun jwk => jwk.kid = kid

section Calls

variable {ε Key : Type} (deps : JwtDeps Key) (config : AzureSsoConfig)

def beginLogin : Async ε Url :=
  .atomic fun i s =>
    let (url, service) :=
      s.service.beginLogin deps.challenge s.now i.state i.nonce i.pkceVerifier
    (.ok url,
      { s with service }.record i.thread
        (.began i.state ⟨i.pkceVerifier, i.nonce⟩ s.now))

/-- What `complete_login` does while it holds the lock. -/
def takePendingLogin (state : String) : Async ApiError PendingLogin :=
  .atomic fun i s =>
    match s.service.takePendingLogin s.now state with
    | (.ok pending, service) =>
        (.ok pending, { s with service }.record i.thread
        (.took state pending s.now))
    | (.error err, service) => (.error err, { s with service })

/-- The request to the token endpoint. -/
def exchange (params : List (String × String)) : Async ε TokenReply :=
  .atomic fun i s =>
    (.ok i.exchange, s.record i.thread (.exchanged params i.exchange))

/-- The request for the signing keys. -/
def fetchJwks : Async ε JwksReply :=
  .atomic fun i s => (.ok i.jwks, s.record i.thread (.fetched i.jwks))

def storeJwks (keys : List Jwk) : Async ε Unit :=
  .atomic fun i s =>
    (.ok (), { s with jwksCache := some ⟨keys, s.now⟩ }.record i.thread
    (.stored keys s.now))

def cachedJwk (kid : String) : Async ε (Option Jwk) :=
  .atomic fun i s =>
    (.ok (s.cachedJwk? kid),
      s.record i.thread (.looked kid (s.cachedJwk? kid) s.now))

/-- The time of the system clock. -/
def clock : Async ε Nat :=
  .atomic fun i s => (.ok i.clock, s.record i.thread (.told i.clock))

def refreshJwks : Async ApiError Unit := do
  match ← fetchJwks with
  | .unreachable => .throw .internal
  | .malformed => .throw .internal
  | .keys keys => storeJwks keys

/-- A key that is not in the cache is looked for once more after a refresh. -/
def signingKey (kid : String) : Async ApiError Key := do
  match ← cachedJwk kid with
  | some jwk => .okOr .internal (deps.fromRsaComponents jwk.n jwk.e)
  | none => do
      refreshJwks
      let found ← cachedJwk kid
      let jwk ← .okOr .unauthorized found
      .okOr .internal (deps.fromRsaComponents jwk.n jwk.e)

def validateIdToken (idToken : String) : Async ApiError IdTokenClaims := do
  let header ← .okOr .unauthorized (deps.decodeHeader idToken)
  let kid ← .okOr .unauthorized header
  let key ← signingKey deps kid
  let now ← clock
  .okOr .unauthorized <|
    deps.decode now key config.clientId
      (SsoService.expectedIssuer config) idToken

/-- What an ID token whose claims were checked says of its bearer. -/
def identityOf (claims : IdTokenClaims) : Option AuthenticatedIdentity :=
  (claims.email <|> claims.preferredUsername).map fun email =>
    { externalIdpSubject := claims.oid
      displayName := claims.name.getD email
      email }

def completeLogin (code state : String) :
    Async ApiError AuthenticatedIdentity := do
  let pending ← takePendingLogin state
  match ← exchange (SsoService.tokenParams config code pending) with
  | .unreachable => .throw .internal
  | .rejected _ => .throw .unauthorized
  | .malformed => .throw .internal
  | .granted idToken => do
      let claims ← validateIdToken deps config idToken
      if claims.nonce ≠ some pending.nonce then .throw .unauthorized
      else .okOr .internal (identityOf claims)

end Calls

end SsoServer

structure CallbackQuery where
  code : Option String
  state : Option String
  error : Option String
deriving DecidableEq, Repr

/-- The two requests a browser makes to sign in, the second up to the
identity it proves. -/
inductive SsoRequest where
  | login
  | callback (query : CallbackQuery)
deriving DecidableEq, Repr

inductive SsoReply where
  | redirect (url : Url)
  | identity (identity : AuthenticatedIdentity)
deriving DecidableEq, Repr

namespace SsoServer

variable {Key : Type} (deps : JwtDeps Key) (config : AzureSsoConfig)

/-- `callback`, before the account is looked for. -/
def callback (query : CallbackQuery) : Async ApiError AuthenticatedIdentity :=
  match query.error, query.code, query.state with
  | some _, _, _ => .throw .unauthorized
  | none, some code, some state => completeLogin deps config code state
  | none, _, _ => .throw (.badRequest "missing code/state from Entra ID")

def serve : SsoRequest → Async ApiError SsoReply
  | .login => do
      let url ← beginLogin deps
      return .redirect url
  | .callback query => do
      let identity ← callback deps config query
      return .identity identity

/-- Time passes. -/
def Drift (s t : SsoServer) : Prop :=
  s.now ≤ t.now ∧ t = { s with now := t.now }

/-- Any number of logins, interleaved at their awaits and locks. -/
def flow : System SsoInput SsoServer SsoRequest ApiError SsoReply where
  code := serve deps config
  input n i := i.thread = n
  drift := Drift

instance (n : Nat) (i : SsoInput) : Decidable ((flow deps config).input n i) :=
  inferInstanceAs (Decidable (_ = _))

end SsoServer

end Servcat
