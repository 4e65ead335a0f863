/-
Single sign-on through Entra ID: the logins that have begun, and the codes that
the frontend exchanges for tokens once a login has succeeded.  Both are kept in
memory, and each is there once and for a limited time.
-/
import Servcat.Model.Errors
import Servcat.Keyed.Expiring

namespace Servcat

open Keyed

/-- Nanoseconds of the monotonic clock. -/
abbrev Instant := Nat

def seconds (n : Nat) : Instant :=
  n * 10 ^ 9

structure AzureSsoConfig where
  tenantId : String
  clientId : String
  clientSecret : String
  redirectUri : String
deriving DecidableEq, Repr

structure PendingLogin where
  pkceVerifier : String
  nonce : String
deriving DecidableEq, Repr

structure IdTokenClaims where
  oid : String
  nonce : Option String
  email : Option String
  preferredUsername : Option String
  name : Option String
deriving DecidableEq, Repr

/-- The identity Entra ID asserts. -/
structure AuthenticatedIdentity where
  externalIdpSubject : String
  email : String
  displayName : String
deriving DecidableEq, Repr

/-- What comes of the request for an ID token. -/
inductive TokenReply where
  | unreachable
  | rejected (body : String)
  | malformed
  | granted (idToken : String)
deriving DecidableEq, Repr

/-- Entra ID, as one login meets it: its token endpoint, which is sent a form,
and `validate_id_token` with the keys published at the time. -/
structure Entra where
  exchange : List (String × String) → TokenReply
  validate : String → Except ApiError IdTokenClaims

/-- A URL with its query before it is encoded. -/
structure Url where
  endpoint : String
  query : List (String × String)
deriving DecidableEq, Repr

structure SsoService where
  config : AzureSsoConfig
  pendingLogins : Expiring String PendingLogin
  handoffCodes : Expiring String Uuid

namespace SsoService

def pendingLoginTtl : Instant :=
  seconds (10 * 60)

def handoffCodeTtl : Instant :=
  seconds 60

def new (config : AzureSsoConfig) : SsoService :=
  ⟨config, .empty, .empty⟩

def authorizeEndpoint (sso : SsoService) : String :=
  s!"https://login.microsoftonline.com/{sso.config.tenantId}" ++
    "/oauth2/v2.0/authorize"

/-- Begin a login with these random tokens; `challenge` is the PKCE
transformation. -/
def beginLogin (challenge : String → String) (now : Instant)
    (state nonce pkceVerifier : String) (sso : SsoService) : Url × SsoService :=
  let url : Url :=
    { endpoint := sso.authorizeEndpoint
      query :=
        [("client_id", sso.config.clientId), ("response_type", "code"),
          ("redirect_uri", sso.config.redirectUri), ("response_mode", "query"),
          ("scope", "openid profile email"), ("state", state), ("nonce", nonce),
          ("code_challenge", challenge pkceVerifier),
            ("code_challenge_method", "S256")] }
  (url,
    { sso with
      pendingLogins :=
        sso.pendingLogins.put pendingLoginTtl now state ⟨pkceVerifier, nonce⟩ })

/-- What `complete_login` does while it holds the lock. -/
def takePendingLogin (now : Instant) (state : String) (sso : SsoService) :
    Except ApiError PendingLogin × SsoService :=
  let (pending, pendingLogins) :=
    sso.pendingLogins.take pendingLoginTtl now state
  (match pending with
    | some pending => .ok pending
    | none => .error (.badRequest
        "sign-in session expired or invalid; please try again"),
    { sso with pendingLogins })

/-- The rest of `complete_login`, for the login that was found. -/
def exchangeCode (entra : Entra) (config : AzureSsoConfig) (code : String)
    (pending : PendingLogin) : Except ApiError AuthenticatedIdentity :=
  let params :=
    [("client_id", config.clientId), ("client_secret", config.clientSecret),
      ("grant_type", "authorization_code"), ("code", code),
      ("redirect_uri", config.redirectUri),
        ("code_verifier", pending.pkceVerifier)]
  match entra.exchange params with
  | .unreachable => .error .internal
  | .rejected _ => .error .unauthorized
  | .malformed => .error .internal
  | .granted idToken => do
      let claims ← entra.validate idToken
      if claims.nonce ≠ some pending.nonce then .error .unauthorized
      else
        match claims.email <|> claims.preferredUsername with
        | none => .error .internal
        | some email =>
            .ok
              { externalIdpSubject := claims.oid
                displayName := claims.name.getD email
                email }

def completeLogin (entra : Entra) (now : Instant) (code state : String)
    (sso : SsoService) : Except ApiError AuthenticatedIdentity × SsoService :=
  let (pending, sso) := sso.takePendingLogin now state
  (pending.bind (exchangeCode entra sso.config code), sso)

/-- Completing a login under this state goes on with this pending login. -/
def Finds (sso : SsoService) (now : Instant) (state : String)
    (pending : PendingLogin) : Prop :=
  ∀ entra code, (sso.completeLogin entra now code state).1 =
    exchangeCode entra sso.config code pending

/-- Issue this random code. -/
def issueHandoffCode (now : Instant) (userId : Uuid) (code : String)
    (sso : SsoService) : String × SsoService :=
  (code,
    { sso with
      handoffCodes := sso.handoffCodes.put handoffCodeTtl now code userId })

def redeemHandoffCode (now : Instant) (code : String) (sso : SsoService) :
    Except ApiError Uuid × SsoService :=
  let (userId, handoffCodes) := sso.handoffCodes.take handoffCodeTtl now code
  (match userId with
    | some userId => .ok userId
    | none => .error .unauthorized,
    { sso with handoffCodes })

theorem completeLogin_eq (sso : SsoService) (entra : Entra) (now : Instant)
    (code state : String) :
    (sso.completeLogin entra now code state).1 =
      (sso.takePendingLogin now state).1.bind
        (exchangeCode entra sso.config code) :=
  rfl

theorem takePendingLogin_cases (sso : SsoService) (now : Instant)
    (state : String) :
    (∃ pending, (sso.takePendingLogin now state).1 = .ok pending) ∨
      (sso.takePendingLogin now state).1 =
        .error (.badRequest
          "sign-in session expired or invalid; please try again") := by
  unfold takePendingLogin
  dsimp only
  split
  · exact .inl ⟨_, rfl⟩
  · exact .inr rfl

/-- Entra ID grants a token to whoever has this verifier, and puts this
nonce in it. -/
def probe (pending : PendingLogin) : Entra where
  exchange params :=
    if ("code_verifier", pending.pkceVerifier) ∈ params then .granted ""
    else .rejected ""
  validate _ := .ok ⟨"", some pending.nonce, some "", none, none⟩

/-- The login that was begun is the only one that the probe lets through. -/
theorem exchangeCode_probe {config : AzureSsoConfig} {code : String}
    {pending found : PendingLogin}
    (h : exchangeCode (probe pending) config code found =
      exchangeCode (probe pending) config code pending) : found = pending := by
  obtain ⟨verifier, nonce⟩ := pending
  obtain ⟨verifier', nonce'⟩ := found
  by_cases hverifier : verifier = verifier'
  · by_cases hnonce : nonce = nonce'
    · rw [hverifier, hnonce]
    · simp [exchangeCode, probe, hverifier, hnonce, Except.bind, bind] at h
  · simp [exchangeCode, probe, hverifier, Except.bind, bind] at h

/-- What a login goes on with is what is found under its state. -/
theorem finds_iff {sso : SsoService} {now : Instant} {state : String}
    {pending : PendingLogin} :
    sso.Finds now state pending ↔
      (sso.takePendingLogin now state).1 = .ok pending := by
  constructor
  · intro hfinds
    have hresult := fun entra => hfinds entra ""
    simp only [completeLogin_eq] at hresult
    cases hfound : (sso.takePendingLogin now state).1 with
    | ok found =>
        rw [hfound] at hresult
        rw [exchangeCode_probe (hresult (probe pending))]
    | error err =>
        -- a failed look-up has one error, whatever Entra ID would answer
        rw [hfound] at hresult
        have hinternal : Except.error err = Except.error ApiError.internal :=
          hresult ⟨fun _ => .unreachable, fun _ => .error .internal⟩
        have hunauthorized : Except.error err =
            Except.error ApiError.unauthorized :=
          hresult ⟨fun _ => .rejected "", fun _ => .error .internal⟩
        cases hinternal
        cases hunauthorized
  · intro hfound entra code
    rw [completeLogin_eq, hfound]
    rfl

end SsoService

/-- A call, with the random tokens it draws and what it meets outside. -/
inductive SsoCall where
  | beginLogin (state nonce pkceVerifier : String)
  | completeLogin (entra : Entra) (code state : String)
  | issueHandoffCode (userId : Uuid) (code : String)
  | redeemHandoffCode (code : String)

namespace SsoCall

def tokens : SsoCall → List String
  | .beginLogin state nonce pkceVerifier => [state, nonce, pkceVerifier]
  | .issueHandoffCode _ code => [code]
  | .completeLogin .. | .redeemHandoffCode _ => []

/-- The service after a call. -/
def serve (challenge : String → String) (now : Instant) (sso : SsoService) :
    SsoCall → SsoService
  | .beginLogin state nonce pkceVerifier =>
      (sso.beginLogin challenge now state nonce pkceVerifier).2
  | .completeLogin entra code state =>
      (sso.completeLogin entra now code state).2
  | .issueHandoffCode userId code => (sso.issueHandoffCode now userId code).2
  | .redeemHandoffCode code => (sso.redeemHandoffCode now code).2

/-- What a call does to the logins. -/
def onLogins : SsoCall → Option (Expiring.Op String PendingLogin)
  | .beginLogin state nonce pkceVerifier =>
      some (.put state ⟨pkceVerifier, nonce⟩)
  | .completeLogin _ _ state => some (.take state)
  | _ => none

/-- What a call does to the codes. -/
def onCodes : SsoCall → Option (Expiring.Op String Uuid)
  | .issueHandoffCode userId code => some (.put code userId)
  | .redeemHandoffCode code => some (.take code)
  | _ => none

end SsoCall

/-- The calls with their times, newest first. -/
abbrev SsoHistory := List (Instant × SsoCall)

namespace SsoHistory

/-- Time does not run backwards, and it is `now`. -/
def Ordered (now : Instant) (h : SsoHistory) : Prop :=
  h.Pairwise (fun e e' => e'.1 ≤ e.1) ∧ ∀ e ∈ h, e.1 ≤ now

/-- No random token is drawn twice. -/
def Distinct (h : SsoHistory) : Prop :=
  (h.flatMap fun e => e.2.tokens).Nodup

/-- The service after these calls, from its start on. -/
def service (challenge : String → String) (config : AzureSsoConfig) :
    SsoHistory → SsoService
  | [] => .new config
  | (t, call) :: older =>
      call.serve challenge t (service challenge config older)

/-- At time `t` a call for this user returned the code. -/
def Issued (challenge : String → String) (config : AzureSsoConfig)
    (userId : Uuid) (code : String) (t : Instant) (h : SsoHistory) : Prop :=
  ∃ later drawn earlier,
    h = later ++ (t, .issueHandoffCode userId drawn) :: earlier ∧
    ((service challenge config earlier).issueHandoffCode t userId
      drawn).1 = code

/-- Some call redeemed the code. -/
def Redeemed (challenge : String → String) (config : AzureSsoConfig)
    (code : String) (h : SsoHistory) : Prop :=
  ∃ later t earlier userId,
    h = later ++ (t, .redeemHandoffCode code) :: earlier ∧
    ((service challenge config earlier).redeemHandoffCode t code).1 = .ok userId

variable {challenge : String → String} {config : AzureSsoConfig} {now : Instant}
  {h : SsoHistory}

/-- The two maps are what the calls on each of them say. -/
theorem service_maps (challenge : String → String) (config : AzureSsoConfig)
    (h : SsoHistory) :
    (service challenge config h).pendingLogins =
        (Expiring.History.of SsoCall.onLogins h).result
          SsoService.pendingLoginTtl ∧
      (service challenge config h).handoffCodes =
        (Expiring.History.of SsoCall.onCodes h).result
          SsoService.handoffCodeTtl := by
  induction h with
  | nil => exact ⟨rfl, rfl⟩
  | cons e older ih =>
      obtain ⟨t, call⟩ := e
      obtain ⟨hlogins, hcodes⟩ := ih
      cases call with
      | beginLogin state nonce pkceVerifier =>
          exact ⟨congrArg
            (Expiring.put SsoService.pendingLoginTtl t state
              (PendingLogin.mk pkceVerifier nonce)) hlogins, hcodes⟩
      | completeLogin entra code state =>
          exact ⟨congrArg
            (fun m => (Expiring.take SsoService.pendingLoginTtl t state m).2)
              hlogins, hcodes⟩
      | issueHandoffCode userId code =>
          exact ⟨hlogins, congrArg
            (Expiring.put SsoService.handoffCodeTtl t code userId) hcodes⟩
      | redeemHandoffCode code =>
          exact ⟨hlogins, congrArg
            (fun m => (Expiring.take SsoService.handoffCodeTtl t code m).2)
              hcodes⟩

/-- A login is found if and only if it began less than ten minutes ago and
nothing was done under its state since. -/
theorem takePendingLogin_iff (hordered : h.Ordered now) {state : String}
    {pending : PendingLogin} :
    ((service challenge config h).takePendingLogin now state).1 = .ok pending ↔
      ∃ later t earlier, h = later ++
          (t, .beginLogin state pending.nonce pending.pkceVerifier) :: earlier ∧
        now - t < SsoService.pendingLoginTtl ∧
        ∀ e ∈ later, ∀ op, e.2.onLogins = some op → op.key ≠ state := by
  have hfound : ((service challenge config h).takePendingLogin now state).1 =
      .ok pending ↔
      ((service challenge config h).pendingLogins.take
        SsoService.pendingLoginTtl now state).1 = some pending := by
    unfold SsoService.takePendingLogin
    dsimp only
    split <;> simp_all
  rw [hfound, (service_maps challenge config h).1,
    Expiring.History.take_result_iff (.of hordered.1 hordered.2)]
  simp only [Expiring.History.lastPut_of_iff]
  constructor
  · rintro ⟨t, ⟨later, call, earlier, hh, hcall, hlater⟩, hage⟩
    cases call with
    | beginLogin state' nonce pkceVerifier =>
        cases hcall
        exact ⟨later, t, earlier, hh, hage, hlater⟩
    | _ => cases hcall
  · rintro ⟨later, t, earlier, hh, hage, hlater⟩
    exact ⟨t, ⟨later, _, earlier, hh, rfl, hlater⟩, hage⟩

/-- A code is redeemed if and only if it was issued less than a minute ago and
nothing was done with it since. -/
theorem redeemHandoffCode_iff (hordered : h.Ordered now) {code : String}
    {userId : Uuid} :
    ((service challenge config h).redeemHandoffCode now code).1 = .ok userId ↔
      ∃ later t earlier,
        h = later ++ (t, .issueHandoffCode userId code) :: earlier ∧
        now - t < SsoService.handoffCodeTtl ∧
        ∀ e ∈ later, ∀ op, e.2.onCodes = some op → op.key ≠ code := by
  have hfound : ((service challenge config h).redeemHandoffCode now code).1 =
      .ok userId ↔
      ((service challenge config h).handoffCodes.take
        SsoService.handoffCodeTtl now code).1 = some userId := by
    unfold SsoService.redeemHandoffCode
    dsimp only
    split <;> simp_all
  rw [hfound, (service_maps challenge config h).2,
    Expiring.History.take_result_iff (.of hordered.1 hordered.2)]
  simp only [Expiring.History.lastPut_of_iff]
  constructor
  · rintro ⟨t, ⟨later, call, earlier, hh, hcall, hlater⟩, hage⟩
    cases call with
    | issueHandoffCode userId' code' =>
        cases hcall
        exact ⟨later, t, earlier, hh, hage, hlater⟩
    | _ => cases hcall
  · rintro ⟨later, t, earlier, hh, hage, hlater⟩
    exact ⟨t, ⟨later, _, earlier, hh, rfl, hlater⟩, hage⟩

theorem Ordered.earlier {later earlier : SsoHistory} {e : Instant × SsoCall}
    (hordered : Ordered now (later ++ e :: earlier)) :
    Ordered e.1 earlier ∧ e.1 ≤ now := by
  obtain ⟨hsorted, hnow⟩ := hordered
  have hcons := List.pairwise_cons.mp (List.pairwise_append.mp hsorted).2.1
  exact ⟨⟨hcons.2, hcons.1⟩, hnow e (by simp)⟩

/-- A token is drawn by one call only. -/
theorem Distinct.once {later earlier : SsoHistory} {e : Instant × SsoCall}
    (hdistinct : Distinct (later ++ e :: earlier)) (token : String)
    (htoken : token ∈ e.2.tokens) :
    (∀ e' ∈ later, token ∉ e'.2.tokens) ∧
    ∀ e' ∈ earlier, token ∉ e'.2.tokens := by
  unfold Distinct at hdistinct
  rw [List.flatMap_append, List.flatMap_cons, List.nodup_append] at hdistinct
  obtain ⟨-, hrest, hlater⟩ := hdistinct
  rw [List.nodup_append] at hrest
  constructor
  · intro e' he' hmem
    exact hlater token (List.mem_flatMap.mpr ⟨e', he', hmem⟩) token
      (List.mem_append_left _ htoken) rfl
  · intro e' he' hmem
    exact hrest.2.2 token htoken token
      (List.mem_flatMap.mpr ⟨e', he', hmem⟩) rfl

/-- Where a code was issued less than a minute before, the first call to
redeem it does. -/
theorem not_redeeming_of_not_redeemed {later earlier : SsoHistory} {t : Instant}
    {userId : Uuid} {code : String}
    (hordered : Ordered now
      (later ++ (t, .issueHandoffCode userId code) :: earlier))
    (hdistinct : Distinct (later ++
      (t, .issueHandoffCode userId code) :: earlier))
    (hage : now - t < SsoService.handoffCodeTtl)
    (hnot : ¬Redeemed challenge config code
      (later ++ (t, .issueHandoffCode userId code) :: earlier)) :
    ∀ e ∈ later, ∀ op, e.2.onCodes = some op → op.key ≠ code := by
  induction later generalizing now with
  | nil => simp
  | cons e rest ih =>
      obtain ⟨hrest, he⟩ := @Ordered.earlier _ [] _ _ hordered
      have hage' : e.1 - t < SsoService.handoffCodeTtl :=
        Nat.lt_of_le_of_lt (Nat.sub_le_sub_right he t) hage
      have hlater : ∀ e ∈ rest, ∀ op, e.2.onCodes = some op →
          op.key ≠ code := by
        refine ih hrest ?_ hage' ?_
        · exact (List.nodup_append.mp (by simpa [Distinct] using hdistinct)).2.1
        · rintro ⟨l, s, m, u, hm, hok⟩
          exact hnot ⟨e :: l, s, m, u, by rw [List.cons_append, hm]; rfl, hok⟩
      intro e' he' op hop hkey
      rcases List.mem_cons.mp he' with rfl | he'
      · obtain ⟨s, call⟩ := e'
        cases call with
        | beginLogin | completeLogin => cases hop
        | issueHandoffCode userId' code' =>
            cases hop
            obtain rfl : code' = code := hkey
            exact (hdistinct.once code' (by simp [SsoCall.tokens])).1 _
              List.mem_cons_self (by simp [SsoCall.tokens])
        | redeemHandoffCode code' =>
            cases hop
            obtain rfl : code' = code := hkey
            refine hnot ⟨[], s, _, userId, rfl, ?_⟩
            rw [redeemHandoffCode_iff hrest]
            exact ⟨rest, t, earlier, rfl, hage', hlater⟩
      · exact hlater e' he' op hop hkey

/-- Nothing was done with a code before it was issued, and redeeming it is the
only thing done with it after. -/
theorem not_redeemed {later earlier : SsoHistory} {t : Instant} {userId : Uuid}
    {code : String}
    (hordered : Ordered now
      (later ++ (t, .issueHandoffCode userId code) :: earlier))
    (hdistinct : Distinct (later ++
      (t, .issueHandoffCode userId code) :: earlier))
    (hlater : ∀ e ∈ later, ∀ op, e.2.onCodes = some op → op.key ≠ code) :
    ¬Redeemed challenge config code
      (later ++ (t, .issueHandoffCode userId code) :: earlier) := by
  rintro ⟨l, s, m, userId', hh, hok⟩
  have hm : Ordered s m := by
    rw [hh] at hordered
    exact hordered.earlier.1
  obtain ⟨l', t', m', hm', -⟩ := (redeemHandoffCode_iff hm).mp hok
  have honce := hdistinct.once code (by simp [SsoCall.tokens])
  have hissue : (t', SsoCall.issueHandoffCode userId' code) ∈ m := by simp [hm']
  rcases List.append_eq_append_iff.mp hh with
    ⟨mid, hmid, hrest⟩ | ⟨mid, hmid, hrest⟩
  · cases mid with
    | nil => cases hrest
    | cons e mid =>
        obtain ⟨rfl, rfl⟩ := List.cons.inj hrest
        exact honce.2 (t', .issueHandoffCode userId' code) (by simp [hissue])
          (by simp [SsoCall.tokens])
  · cases mid with
    | nil => cases hrest
    | cons e mid =>
        obtain ⟨rfl, rfl⟩ := List.cons.inj hrest
        exact hlater (s, .redeemHandoffCode code) (by simp [hmid])
          (.take code) rfl rfl

end SsoHistory

/-- Whatever calls were made before: a code is redeemed for a user if and only
if it was returned for the user less than a minute ago and has not been redeemed
since; and completing a login goes on with exactly what was recorded under its
state if and only if that was less than ten minutes ago and no other call
completed it since, however that call ended, and fails otherwise. -/
theorem sso_codes_single_use {challenge : String → String}
    {config : AzureSsoConfig} {now : Instant} {h : SsoHistory}
    (hordered : h.Ordered now) (hdistinct : h.Distinct) (code state : String) :
    (∀ userId, ((h.service challenge config).redeemHandoffCode now code).1 =
      .ok userId ↔
      (∃ t, h.Issued challenge config userId code t ∧ now - t < seconds 60) ∧
        ¬h.Redeemed challenge config code) ∧
    (∀ pending, (h.service challenge config).Finds now state pending ↔
      ∃ later t earlier, h = later ++
          (t, .beginLogin state pending.nonce pending.pkceVerifier) :: earlier ∧
        now - t < seconds 600 ∧
        ∀ e ∈ later, ∀ entra code, e.2 ≠ .completeLogin entra code state) ∧
    ((∀ pending, ¬(h.service challenge config).Finds now state pending) →
      ∀ entra code,
        ((h.service challenge config).completeLogin entra now code state).1 =
        .error (.badRequest
          "sign-in session expired or invalid; please try again")) := by
  refine ⟨?_, ?_, ?_⟩
  · intro userId
    rw [SsoHistory.redeemHandoffCode_iff hordered]
    constructor
    · rintro ⟨later, t, earlier, rfl, hage, hlater⟩
      exact ⟨⟨t, ⟨later, code, earlier, rfl, rfl⟩, hage⟩,
        SsoHistory.not_redeemed hordered hdistinct hlater⟩
    · rintro ⟨⟨t, ⟨later, _, earlier, rfl, rfl⟩, hage⟩, hnot⟩
      exact ⟨later, t, earlier, rfl, hage,
        SsoHistory.not_redeeming_of_not_redeemed hordered hdistinct hage hnot⟩
  · intro pending
    rw [SsoService.finds_iff, SsoHistory.takePendingLogin_iff hordered]
    constructor
    · rintro ⟨later, t, earlier, rfl, hage, hlater⟩
      refine ⟨later, t, earlier, rfl, hage, ?_⟩
      intro e he entra code heq
      exact hlater e he (.take state) (by rw [heq]; rfl) rfl
    · rintro ⟨later, t, earlier, rfl, hage, hlater⟩
      refine ⟨later, t, earlier, rfl, hage, ?_⟩
      intro e he op hop hkey
      obtain ⟨s, call⟩ := e
      cases call with
      | issueHandoffCode | redeemHandoffCode => cases hop
      | beginLogin state' nonce pkceVerifier =>
          cases hop
          obtain rfl : state' = state := hkey
          exact (hdistinct.once state' (by simp [SsoCall.tokens])).1 _ he
            (by simp [SsoCall.tokens])
      | completeLogin entra code state' =>
          cases hop
          obtain rfl : state' = state := hkey
          exact hlater _ he entra code rfl
  · intro hnone entra code
    rcases (h.service challenge config).takePendingLogin_cases now state with
      ⟨pending, hfound⟩ | hmissing
    · exact absurd (SsoService.finds_iff.mpr hfound) (hnone pending)
    · rw [SsoService.completeLogin_eq, hmissing]
      rfl

namespace Sample

/-- Entra ID refuses every code. -/
def refusingEntra : Entra where
  exchange _ := .rejected "invalid_grant"
  validate _ := .error .unauthorized

def ssoConfig : AzureSsoConfig where
  tenantId := "tenant"
  clientId := "client"
  clientSecret := "secret"
  redirectUri := "https://servcat.example.org/auth/sso/callback"

/-- Two logins, of which the second was refused; a code issued, redeemed and
tried again, and another code issued. -/
def ssoCalls : SsoHistory :=
  [(seconds 95, .redeemHandoffCode "code"),
    (seconds 90, .issueHandoffCode ⟨8⟩ "code2"),
    (seconds 80, .redeemHandoffCode "code"),
    (seconds 70, .issueHandoffCode ⟨7⟩ "code"),
    (seconds 60, .completeLogin refusingEntra "granted" "state2"),
    (seconds 50, .beginLogin "state2" "nonce2" "verifier2"),
    (seconds 40, .beginLogin "state" "nonce" "verifier")]

end Sample

theorem sso_codes_single_use_sampled :
    let h := Sample.ssoCalls
    let sso := h.service id Sample.ssoConfig
    (((sso.redeemHandoffCode (seconds 100) "code2").1 = .ok ⟨8⟩ ↔
      (∃ t, h.Issued id Sample.ssoConfig ⟨8⟩ "code2" t ∧
        seconds 100 - t < seconds 60) ∧
        ¬h.Redeemed id Sample.ssoConfig "code2")) ∧
    (sso.Finds (seconds 100) "state" ⟨"verifier", "nonce"⟩ ↔
      ∃ later t earlier, h = later ++
          (t, .beginLogin "state" "nonce" "verifier") :: earlier ∧
        seconds 100 - t < seconds 600 ∧
        ∀ e ∈ later, ∀ entra code, e.2 ≠ .completeLogin entra code "state") ∧
    ((∀ pending, ¬sso.Finds (seconds 100) "state" pending) →
      ∀ entra code, (sso.completeLogin entra (seconds 100) code "state").1 =
        .error (.badRequest
          "sign-in session expired or invalid; please try again")) := by
  have hordered : Sample.ssoCalls.Ordered (seconds 100) := by
    simp [SsoHistory.Ordered, Sample.ssoCalls, seconds]
  have hdistinct : Sample.ssoCalls.Distinct := by
    simp [SsoHistory.Distinct, Sample.ssoCalls, SsoCall.tokens]
  obtain ⟨hcode, hlogin, hmissing⟩ :=
    sso_codes_single_use hordered hdistinct "code2" "state"
  exact ⟨hcode ⟨8⟩, hlogin ⟨"verifier", "nonce"⟩, hmissing⟩

end Servcat
