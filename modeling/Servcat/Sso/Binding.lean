/-
What an identity proves that single sign-on has accepted: it is bound to a login
that began here, and its token was checked with a key that Entra ID published
not long before.
-/
import Servcat.Sso.Flow

namespace Servcat

open Atomic Keyed

namespace SsoEvent

def fetches : SsoEvent → Bool
  | .fetched _ => true
  | _ => false

def begins (state : String) : SsoEvent → Bool
  | .began state' _ _ => state' == state
  | _ => false

def takes (state : String) : SsoEvent → Bool
  | .took state' _ _ => state' == state
  | _ => false

end SsoEvent

namespace SsoServer

/-- What a call has done so far. -/
structure Progress where
  login : Option (String × PendingLogin)
  token : Option (List (String × String) × String)
  published : Option (List Jwk)
  key : Option (String × Jwk)
  clock : Option Nat
  fetches : Nat

def Progress.start : Progress :=
  ⟨none, none, none, none, none, 0⟩

/-- The service without some logins that have expired. -/
def withLogins (s : SsoServer)
    (pendingLogins : Expiring String PendingLogin) : SsoServer :=
  { s with service := { s.service with pendingLogins } }

/-- What a step of thread `n` may do. -/
inductive Move (n : Nat) : Progress → SsoServer → Progress → SsoServer → Prop
  | begin {φ : Progress} {s : SsoServer} {state : String}
      {pending : PendingLogin} :
      Move n φ s φ
        ((s.withLogins (s.service.pendingLogins.put SsoService.pendingLoginTtl
          s.now state pending)).record n (.began state pending s.now))
  | take {φ : Progress} {s : SsoServer} {state : String}
      {pending : PendingLogin}
      (htake : (s.service.pendingLogins.take SsoService.pendingLoginTtl s.now
        state).1 = some pending) :
      Move n φ s { φ with login := some (state, pending) }
        ((s.withLogins
          (s.service.pendingLogins.take SsoService.pendingLoginTtl s.now
            state).2).record n (.took state pending s.now))
  | miss {φ : Progress} {s : SsoServer} {state : String} :
      Move n φ s φ (s.withLogins
        (s.service.pendingLogins.take SsoService.pendingLoginTtl s.now state).2)
  | exchange {φ : Progress} {s : SsoServer} {params : List (String × String)}
      {reply : TokenReply} :
      Move n φ s
        { φ with token := match reply with
            | .granted idToken => some (params, idToken)
            | _ => none }
        (s.record n (.exchanged params reply))
  | fetch {φ : Progress} {s : SsoServer} {reply : JwksReply} :
      Move n φ s
        { φ with
          fetches := φ.fetches + 1
          published := match reply with
            | .keys keys => some keys
            | _ => none }
        (s.record n (.fetched reply))
  | store {φ : Progress} {s : SsoServer} {keys : List Jwk}
      (hkeys : φ.published = some keys) :
      Move n φ s φ
        ({ s with jwksCache := some ⟨keys, s.now⟩ }.record n
        (.stored keys s.now))
  | look {φ : Progress} {s : SsoServer} {kid : String} :
      Move n φ s { φ with key := (s.cachedJwk? kid).map fun jwk => (kid, jwk) }
        (s.record n (.looked kid (s.cachedJwk? kid) s.now))
  | tell {φ : Progress} {s : SsoServer} {clock : Nat} :
      Move n φ s { φ with clock := some clock } (s.record n (.told clock))

section Follows

variable {Key ε ε' α β : Type} {deps : JwtDeps Key} {config : AzureSsoConfig}
  {n : Nat} {φ : Progress} {Q : β → Progress → Prop}

/-- Thread `n`, whose steps are to be these moves. -/
def conduct (n : Nat) : Automaton SsoInput SsoServer Progress :=
  ⟨fun _ i _ => i.thread = n, Move n⟩

/-- `Q` holds of the value at the end, if there is one; the keys were fetched
once at most. -/
def Ends (Q : α → Progress → Prop) : Exit ε α → Progress → Prop
  | .ok a, φ => Q a φ ∧ φ.fetches ≤ 1
  | _, φ => φ.fetches ≤ 1

theorem ends_bind {p : Async ε α} {k : α → Async ε β}
    (h : Follows (conduct n)
      (Ends fun a ψ => Follows (conduct n) (Ends Q) (k a) ψ) p φ) :
    Follows (conduct n) (Ends Q) (p >>= k) φ := by
  refine (follows_bind _ _ _ _).mpr (h.mono fun x ψ hx => ?_)
  cases x with
  | ok a => exact hx.1
  | error | panicked => exact hx

theorem ends_okOr {e : ε} {value : Option α} {k : α → Async ε β}
    (hφ : φ.fetches ≤ 1)
    (h : ∀ a, value = some a → Follows (conduct n) (Ends Q) (k a) φ) :
    Follows (conduct n) (Ends Q) (.okOr e value >>= k) φ := by
  cases value with
  | none => exact hφ
  | some a => exact h a rfl

theorem ends_ofOption {e : ε} {value : Option β} (hφ : φ.fetches ≤ 1)
    (h : ∀ b, value = some b → Q b φ) :
    Follows (conduct n) (Ends Q) (.okOr e value : Async ε β) φ := by
  cases value with
  | none => exact hφ
  | some b => exact ⟨h b rfl, hφ⟩

theorem ends_cachedJwk {k : Option Jwk → Async ε β} {kid : String}
    (hfound : ∀ found : Option Jwk, Follows (conduct n) (Ends Q) (k found)
      { φ with key := found.map fun jwk => (kid, jwk) }) :
    Follows (conduct n) (Ends Q) (cachedJwk kid >>= k) φ := by
  refine (follows_bind _ _ _ _).mpr ((follows_atomic _ _).mpr ?_)
  rintro i s rfl
  exact ⟨_, .look, hfound _⟩

theorem ends_refreshJwks {k : Unit → Async ApiError β} (hφ : φ.fetches = 0)
    (h : ∀ keys, Follows (conduct n) (Ends Q) (k ())
      { φ with fetches := 1, published := some keys }) :
    Follows (conduct n) (Ends Q) (refreshJwks >>= k) φ := by
  have hfetched : φ.fetches + 1 = 1 := by rw [hφ]
  refine ends_bind ((follows_bind _ _ _ _).mpr ((follows_atomic _ _).mpr ?_))
  rintro i s rfl
  refine ⟨_, .fetch, ?_⟩
  cases i.jwks with
  | unreachable | malformed => exact hfetched.le
  | keys keys =>
      refine (follows_atomic _ _).mpr fun j t hj =>
        ⟨{ φ with fetches := φ.fetches + 1, published := some keys }, ?_, ?_,
          hfetched.le⟩
      · rw [show i.thread = j.thread from hj.symm]
        exact .store rfl
      · simpa only [hfetched] using h keys

/-- A key is used only after it was found for its identifier. -/
theorem ends_signingKey {k : Key → Async ApiError β} {kid : String}
    (hφ : φ.fetches = 0)
    (h : ∀ jwk key ψ, deps.fromRsaComponents jwk.n jwk.e = some key →
      ψ.login = φ.login → ψ.token = φ.token → ψ.key = some (kid, jwk) →
        ψ.fetches ≤ 1 →
      Follows (conduct n) (Ends Q) (k key) ψ) :
    Follows (conduct n) (Ends Q) (signingKey deps kid >>= k) φ := by
  refine ends_bind (ends_cachedJwk fun found => ?_)
  cases found with
  | none =>
      refine ends_refreshJwks hφ fun keys => ends_cachedJwk fun found => ?_
      refine ends_okOr le_rfl fun jwk hjwk =>
        ends_ofOption le_rfl fun key hkey => ?_
      subst hjwk
      exact h jwk key _ hkey rfl rfl rfl le_rfl
  | some jwk =>
      have hle : φ.fetches ≤ 1 := by omega
      exact ends_ofOption hle fun key hkey => h jwk key _ hkey rfl rfl rfl hle

/-- What was checked before an identity was believed. -/
inductive Checked (deps : JwtDeps Key) (config : AzureSsoConfig)
    (code state : String) (identity : AuthenticatedIdentity) (φ : Progress) :
    Prop
  | intro {pending : PendingLogin} {idToken kid : String} {jwk : Jwk}
      {key : Key} {clock : Nat} {claims : IdTokenClaims}
      (hlogin : φ.login = some (state, pending))
      (htoken : φ.token = some
      (SsoService.tokenParams config code pending, idToken))
      (hheader : deps.decodeHeader idToken = some (some kid))
      (hkey : φ.key = some (kid, jwk))
      (hcomponents : deps.fromRsaComponents jwk.n jwk.e = some key)
      (hclock : φ.clock = some clock)
      (hdecode : deps.decode clock key config.clientId
        (SsoService.expectedIssuer config) idToken = some claims)
      (hnonce : claims.nonce = some pending.nonce)
      (hidentity : identityOf claims = some identity) :
      Checked deps config code state identity φ

theorem ends_takePendingLogin {k : PendingLogin → Async ApiError β}
    {state : String} (hφ : φ.fetches ≤ 1)
    (h : ∀ pending, Follows (conduct n) (Ends Q) (k pending)
      { φ with login := some (state, pending) }) :
    Follows (conduct n) (Ends Q) (takePendingLogin state >>= k) φ := by
  refine (follows_bind _ _ _ _).mpr ((follows_atomic _ _).mpr ?_)
  rintro i s rfl
  cases htake : (s.service.pendingLogins.take SsoService.pendingLoginTtl s.now
    state).1 with
  | none =>
      refine ⟨φ, ?_, ?_⟩
      · simp only [SsoService.takePendingLogin, htake]
        exact .miss
      · simp only [SsoService.takePendingLogin, htake]
        exact hφ
  | some pending =>
      refine ⟨{ φ with login := some (state, pending) }, ?_, ?_⟩
      · simp only [SsoService.takePendingLogin, htake]
        exact .take htake
      · simp only [SsoService.takePendingLogin, htake]
        exact h pending

theorem completeLogin_follows (code state : String) :
    Follows (conduct n)
      (Ends fun identity φ => Checked deps config code state identity φ)
      (completeLogin deps config code state) .start := by
  refine ends_takePendingLogin (Nat.zero_le 1) fun pending => ?_
  refine (follows_bind _ _ _ _).mpr ((follows_atomic _ _).mpr ?_)
  rintro i s rfl
  refine ⟨_, .exchange, ?_⟩
  cases i.exchange with
  | unreachable | rejected _ | malformed => exact Nat.zero_le 1
  | granted idToken =>
      refine ends_bind (ends_okOr (Nat.zero_le 1) fun header hheader =>
        ends_okOr (Nat.zero_le 1) fun kid hkid => ends_signingKey rfl ?_)
      intro jwk key ψ hcomponents hlogin htoken hkey hfetches
      refine (follows_bind _ _ _ _).mpr ((follows_atomic _ _).mpr ?_)
      intro j t hj
      refine ⟨{ ψ with clock := some j.clock }, ?_, ?_⟩
      · rw [show j.thread = i.thread from hj]
        exact .tell
      refine ends_ofOption hfetches fun claims hdecode => ?_
      show Follows _ _ (if _ then _ else _) _
      split
      · exact hfetches
      · rename_i hnonce
        exact ends_ofOption hfetches fun identity hidentity =>
          .intro hlogin htoken (hkid ▸ hheader) hkey hcomponents rfl hdecode
            (not_not.mp hnonce) hidentity

/-- What is known when a request has been served. -/
def post (deps : JwtDeps Key) (config : AzureSsoConfig) :
    SsoRequest → Exit ApiError SsoReply → Progress → Prop
  | .callback query =>
      Ends fun reply φ => ∃ identity code state, reply = .identity identity ∧
      query.error = none ∧ query.code = some code ∧ query.state = some state ∧
      Checked deps config code state identity φ
  | .login => Ends fun _ _ => True

theorem serve_follows (n : Nat) (req : SsoRequest) :
    Follows (conduct n) (post deps config req)
      (serve deps config req) .start := by
  cases req with
  | login =>
      refine (follows_bind _ _ _ _).mpr ((follows_atomic _ _).mpr ?_)
      rintro i s rfl
      exact ⟨_, .begin, trivial, Nat.zero_le 1⟩
  | callback query =>
      obtain ⟨code, state, error⟩ := query
      cases error with
      | some error => exact Nat.zero_le 1
      | none =>
          cases code with
          | none => exact Nat.zero_le 1
          | some code =>
              cases state with
              | none => exact Nat.zero_le 1
              | some state =>
                  refine (follows_bind _ _ _ _).mpr
                    ((completeLogin_follows code state).mono fun x ψ hx => ?_)
                  cases x with
                  | ok identity =>
                      exact ⟨⟨identity, code, state, rfl, rfl, rfl, rfl,
                        hx.1⟩, hx.2⟩
                  | error | panicked => exact hx

end Follows

def cover {Key : Type} (deps : JwtDeps Key) (config : AzureSsoConfig) :
    Cover (flow deps config) Progress where
  move := Move
  entry _ := .start
  post := post deps config
  follows := serve_follows

/-- The requests for keys that thread `n` has made. -/
def fetchesOf (n : Nat) (log : List (Nat × SsoEvent)) : Nat :=
  log.countP fun e => e.1 == n && e.2.fetches

/-- The logins that began under this state. -/
def beganCount (state : String) (log : List (Nat × SsoEvent)) : Nat :=
  log.countP fun e => e.2.begins state

/-- The logins that were completed under this state. -/
def tookCount (state : String) (log : List (Nat × SsoEvent)) : Nat :=
  log.countP fun e => e.2.takes state

/-- Some thread has fetched these keys and put them into the cache. -/
def Published (log : List (Nat × SsoEvent)) (keys : List Jwk)
    (stored : Instant) : Prop :=
  ∃ m, (m, SsoEvent.fetched (.keys keys)) ∈ log ∧
    (m, SsoEvent.stored keys stored) ∈ log

/-- What holds between any two steps. -/
structure Inv (s : SsoServer) : Prop where
  logins : ∀ state e, s.service.pendingLogins state = some e →
    e.createdAt ≤ s.now ∧ ∃ m, (m, .began state e.value e.createdAt) ∈ s.log
  took : ∀ n state pending taken, (n, .took state pending taken) ∈ s.log →
    ∃ m began, (m, .began state pending began) ∈ s.log ∧ began ≤ taken ∧
      taken - began < SsoService.pendingLoginTtl
  cache : ∀ cache, s.jwksCache = some cache → cache.createdAt ≤ s.now ∧
    Published s.log cache.value cache.createdAt
  once : ∀ state, tookCount state s.log +
    (if (s.service.pendingLogins state).isSome then 1 else 0) ≤
      beganCount state s.log

/-- What thread `n` has done is in the log. -/
structure Holds (n : Nat) (φ : Progress) (s : SsoServer) : Prop where
  login : ∀ state pending, φ.login = some (state, pending) →
    ∃ taken, (n, .took state pending taken) ∈ s.log
  token : ∀ params idToken, φ.token = some (params, idToken) →
    (n, .exchanged params (.granted idToken)) ∈ s.log
  published : ∀ keys, φ.published = some keys →
    (n, .fetched (.keys keys)) ∈ s.log
  key : ∀ kid jwk, φ.key = some (kid, jwk) → jwk.kid = kid ∧
    ∃ keys stored found, (n, .looked kid (some jwk) found) ∈ s.log ∧
      Published s.log keys stored ∧ jwk ∈ keys ∧ stored ≤ found ∧
      found - stored ≤ jwksCacheTtl
  clock : ∀ clock, φ.clock = some clock → (n, .told clock) ∈ s.log
  fetches : fetchesOf n s.log = φ.fetches

section Outline

variable {n m : Nat} {φ φ' ψ : Progress} {s t : SsoServer}
  {log : List (Nat × SsoEvent)}

theorem Published.mono (hlog : ∀ e ∈ s.log, e ∈ log) {keys : List Jwk}
    {stored : Instant} (h : Published s.log keys stored) :
    Published log keys stored := by
  obtain ⟨m, hfetched, hstored⟩ := h
  exact ⟨m, hlog _ hfetched, hlog _ hstored⟩

/-- A longer log says the same of a thread that has not fetched
keys meanwhile. -/
theorem Holds.mono (hlog : ∀ e ∈ s.log, e ∈ t.log)
    (hfetches : fetchesOf n t.log = fetchesOf n s.log)
    (h : Holds n φ s) : Holds n φ t where
  login state pending heq := by
    obtain ⟨taken, htook⟩ := h.login state pending heq
    exact ⟨taken, hlog _ htook⟩
  token params idToken heq := hlog _ (h.token params idToken heq)
  published keys heq := hlog _ (h.published keys heq)
  key kid jwk heq := by
    obtain ⟨hkid, keys, stored, found, hlooked, hpublished, hrest⟩ :=
      h.key kid jwk heq
    exact ⟨hkid, keys, stored, found, hlog _ hlooked,
      hpublished.mono hlog, hrest⟩
  clock clock heq := hlog _ (h.clock clock heq)
  fetches := hfetches.trans h.fetches

/-- A step writes one entry to the log at most, in the name of its thread. -/
theorem Move.writes (h : Move n φ s φ' t) :
    t.log = s.log ∨ ∃ event, t.log = (n, event) :: s.log := by
  cases h with
  | miss => exact .inl rfl
  | begin | take | exchange | fetch | store | look | tell => exact .inr ⟨_, rfl⟩

theorem Move.mem_log (h : Move n φ s φ' t) : ∀ e ∈ s.log, e ∈ t.log := by
  intro e he
  rcases h.writes with heq | ⟨event, heq⟩
  · rwa [heq]
  · rw [heq]
    exact List.mem_cons_of_mem _ he

theorem Move.fetches_other (h : Move n φ s φ' t) (hm : m ≠ n) :
    fetchesOf m t.log = fetchesOf m s.log := by
  rcases h.writes with heq | ⟨event, heq⟩
  · rw [heq]
  · rw [heq, fetchesOf, List.countP_cons_of_neg]
    · rfl
    · simp [Ne.symm hm]

theorem cachedJwk?_eq_some {kid : String} {jwk : Jwk}
    (h : s.cachedJwk? kid = some jwk) :
    jwk.kid = kid ∧ ∃ cache, s.jwksCache = some cache ∧ jwk ∈ cache.value ∧
      s.now - cache.createdAt ≤ jwksCacheTtl := by
  obtain ⟨cache, hcache, hfound⟩ := Option.bind_eq_some_iff.mp h
  obtain ⟨hcache, hfresh⟩ := Option.filter_eq_some_iff.mp hcache
  exact ⟨by simpa using List.find?_some hfound, cache, hcache,
    List.mem_of_find?_eq_some hfound, by simpa using hfresh⟩

theorem fetchesOf_record {event : SsoEvent} (h : event.fetches = false) :
    fetchesOf n ((n, event) :: s.log) = fetchesOf n s.log :=
  List.countP_cons_of_neg (by simp [h])

/-- Each thread has done what its step adds to its progress. -/
theorem Move.holds (h : Move n φ s φ' t) (hs : Inv s)
    (hφ : Holds n φ s) : Holds n φ' t := by
  have hlog := h.mem_log
  cases h with
  | begin | store => exact hφ.mono hlog (fetchesOf_record rfl)
  | miss => exact hφ.mono hlog rfl
  | take htake =>
      refine { hφ.mono hlog (fetchesOf_record rfl) with login := ?_ }
      rintro _ _ ⟨⟩
      exact ⟨s.now, List.mem_cons_self⟩
  | @exchange _ reply =>
      refine { hφ.mono hlog (fetchesOf_record rfl) with token := ?_ }
      intro params' idToken heq
      cases reply with
      | granted idToken' =>
          cases heq
          exact List.mem_cons_self
      | unreachable | rejected _ | malformed => cases heq
  | @fetch reply =>
      have hfetches : fetchesOf n ((n, SsoEvent.fetched reply) :: s.log) =
          fetchesOf n s.log + 1 :=
        List.countP_cons_of_pos (by simp [SsoEvent.fetches])
      refine ⟨fun state pending heq => ?_,
        fun params idToken heq => hlog _ (hφ.token _ _ heq), fun keys heq => ?_,
        fun kid jwk heq => ?_, fun clock heq => hlog _ (hφ.clock _ heq),
        hfetches.trans (by rw [hφ.fetches])⟩
      · obtain ⟨taken, htook⟩ := hφ.login state pending heq
        exact ⟨taken, hlog _ htook⟩
      · cases reply with
        | keys keys' =>
            cases heq
            exact List.mem_cons_self
        | unreachable | malformed => cases heq
      · obtain ⟨hkid, keys, stored, found, hlooked, hpublished, hrest⟩ :=
          hφ.key kid jwk heq
        exact ⟨hkid, keys, stored, found, hlog _ hlooked,
          hpublished.mono hlog, hrest⟩
  | @look kid =>
      refine { hφ.mono hlog (fetchesOf_record rfl) with key := ?_ }
      intro kid' jwk heq
      obtain ⟨jwk', hjwk, hsame⟩ := Option.map_eq_some_iff.mp heq
      cases hsame
      obtain ⟨hkid, cache, hcache, hmem, hfresh⟩ := cachedJwk?_eq_some hjwk
      obtain ⟨hle, hpublished⟩ := hs.cache cache hcache
      refine ⟨hkid, cache.value, cache.createdAt, s.now, ?_,
        hpublished.mono hlog, hmem, hle, hfresh⟩
      rw [hjwk]
      exact List.mem_cons_self
  | tell =>
      refine { hφ.mono hlog (fetchesOf_record rfl) with clock := ?_ }
      rintro _ ⟨⟩
      exact List.mem_cons_self

/-- Logins that were there before, some of which may be missing now. -/
theorem Inv.logins_of {pendingLogins : Expiring String PendingLogin}
    (hs : Inv s)
    (hsub : ∀ state e, pendingLogins state = some e →
      s.service.pendingLogins state = some e)
    (hlog : ∀ e ∈ s.log, e ∈ log) {state : String} {e : Stamped PendingLogin}
    (h : pendingLogins state = some e) :
    e.createdAt ≤ s.now ∧ ∃ m, (m, .began state e.value e.createdAt) ∈ log := by
  obtain ⟨hle, m, hm⟩ := hs.logins state e (hsub state e h)
  exact ⟨hle, m, hlog _ hm⟩

theorem Inv.took_of (hs : Inv s) (hlog : ∀ e ∈ s.log, e ∈ log) {n : Nat}
    {state : String} {pending : PendingLogin} {taken : Instant}
    (h : (n, SsoEvent.took state pending taken) ∈ s.log) :
    ∃ m began, (m, .began state pending began) ∈ log ∧ began ≤ taken ∧
      taken - began < SsoService.pendingLoginTtl := by
  obtain ⟨m, began, hm, hrest⟩ := hs.took n state pending taken h
  exact ⟨m, began, hlog _ hm, hrest⟩

theorem Inv.cache_of (hs : Inv s) (hlog : ∀ e ∈ s.log, e ∈ log)
    {cache : Stamped (List Jwk)} (h : s.jwksCache = some cache) :
    cache.createdAt ≤ s.now ∧ Published log cache.value cache.createdAt := by
  obtain ⟨hle, hpublished⟩ := hs.cache cache h
  exact ⟨hle, hpublished.mono hlog⟩

theorem Inv.once_of {pendingLogins : Expiring String PendingLogin} (hs : Inv s)
    {state : String}
    (hsub : (pendingLogins state).isSome →
      (s.service.pendingLogins state).isSome) :
    tookCount state s.log + (if (pendingLogins state).isSome then 1 else 0) ≤
      beganCount state s.log := by
  have honce := hs.once state
  split
  · rename_i h
    rwa [if_pos (hsub h)] at honce
  · omega

/-- An entry in the log that is not about logins. -/
theorem Inv.record (hs : Inv s) {event : SsoEvent}
    (hbegins : ∀ state, event.begins state = false)
    (htakes : ∀ state, event.takes state = false) : Inv (s.record n event) where
  logins _ _ h :=
    hs.logins_of (fun _ _ h => h) (fun _ he => List.mem_cons_of_mem _ he) h
  took m state pending taken h := by
    rcases List.mem_cons.mp h with heq | h
    · obtain ⟨-, rfl⟩ := Prod.mk.inj heq
      have hself := htakes state
      simp [SsoEvent.takes] at hself
    · exact hs.took_of (fun _ he => List.mem_cons_of_mem _ he) h
  cache _ h := hs.cache_of (fun _ he => List.mem_cons_of_mem _ he) h
  once state := by
    have htook : tookCount state ((n, event) :: s.log) =
        tookCount state s.log :=
      List.countP_cons_of_neg (by simp [htakes])
    have hbegan : beganCount state ((n, event) :: s.log) =
        beganCount state s.log :=
      List.countP_cons_of_neg (by simp [hbegins])
    show tookCount state ((n, event) :: s.log) + _ ≤
      beganCount state ((n, event) :: s.log)
    rw [htook, hbegan]
    exact hs.once state

/-- Some logins are dropped. -/
theorem Inv.drop {pendingLogins : Expiring String PendingLogin} (hs : Inv s)
    (hsub : ∀ state e, pendingLogins state = some e →
      s.service.pendingLogins state = some e) :
    Inv (s.withLogins pendingLogins) where
  logins _ _ h := hs.logins_of hsub (fun _ he => he) h
  took := hs.took
  cache := hs.cache
  once state := hs.once_of fun h => by
    obtain ⟨e, he⟩ := Option.isSome_iff_exists.mp h
    rw [hsub state e he]
    rfl

theorem take_sub {m : Expiring String PendingLogin} {ttl now : Nat}
    {state state' : String} {e : Stamped PendingLogin}
    (h : (m.take ttl now state).2 state' = some e) :
    m state' = some e := by
  simp only [Expiring.take] at h
  by_cases heq : state' = state
  · rw [heq, Function.update_self] at h
    cases h
  · rw [Function.update_of_ne heq] at h
    exact (Expiring.sweep_eq_some_iff.mp h).1

theorem begin_inv (hs : Inv s) (state : String) (pending : PendingLogin) :
    Inv
      ((s.withLogins (s.service.pendingLogins.put
        SsoService.pendingLoginTtl s.now
      state pending)).record n (.began state pending s.now)) := by
  have hlog : ∀ e ∈ s.log,
      e ∈ (n, SsoEvent.began state pending s.now) :: s.log :=
    fun _ he => List.mem_cons_of_mem _ he
  -- whatever is there under another state was there before
  have hold : ∀ state' e, state' ≠ state →
      s.service.pendingLogins.put SsoService.pendingLoginTtl s.now state pending
        state' = some e → s.service.pendingLogins state' = some e := by
    intro state' e hne h
    rw [Expiring.put, Function.update_of_ne hne] at h
    exact (Expiring.sweep_eq_some_iff.mp h).1
  refine ⟨fun state' e h => ?_, fun m state' pending' taken h => ?_,
    fun _ h => hs.cache_of hlog h, fun state' => ?_⟩
  · by_cases heq : state' = state
    · subst heq
      obtain rfl : ⟨pending, s.now⟩ = e := by
        simpa [withLogins, record, Expiring.put] using h
      exact ⟨le_rfl, n, List.mem_cons_self⟩
    · exact hs.logins_of (fun _ _ h => h) hlog (hold state' e heq h)
  · rcases List.mem_cons.mp h with heq | h
    · cases heq
    · exact hs.took_of hlog h
  · have htook : tookCount state' ((n, .began state pending s.now) :: s.log) =
        tookCount state' s.log :=
      List.countP_cons_of_neg (by simp [SsoEvent.takes])
    show tookCount state' (_ :: s.log) + _ ≤ beganCount state' (_ :: s.log)
    rw [htook]
    by_cases heq : state' = state
    · subst heq
      have hbegan : beganCount state'
          ((n, .began state' pending s.now) :: s.log) =
          beganCount state' s.log + 1 :=
        List.countP_cons_of_pos (by simp [SsoEvent.begins])
      have honce := hs.once state'
      rw [hbegan]
      split <;> omega
    · have hbegan : beganCount state'
          ((n, .began state pending s.now) :: s.log) =
          beganCount state' s.log :=
        List.countP_cons_of_neg (by simp [SsoEvent.begins, Ne.symm heq])
      rw [hbegan]
      refine hs.once_of fun h => ?_
      obtain ⟨e, he⟩ := Option.isSome_iff_exists.mp h
      rw [hold state' e heq he]
      rfl

theorem take_inv (hs : Inv s) {state : String} {pending : PendingLogin}
    (htake : (s.service.pendingLogins.take SsoService.pendingLoginTtl s.now
      state).1 = some pending) :
    Inv ((s.withLogins
      (s.service.pendingLogins.take SsoService.pendingLoginTtl s.now
        state).2).record n (.took state pending s.now)) := by
  obtain ⟨began, hentry, hage⟩ := Expiring.take_eq_some_iff.mp htake
  obtain ⟨hle, m, hm⟩ := hs.logins state _ hentry
  have hlog : ∀ e ∈ s.log,
      e ∈ (n, SsoEvent.took state pending s.now) :: s.log :=
    fun _ he => List.mem_cons_of_mem _ he
  refine ⟨fun state' e h => hs.logins_of (fun _ _ h => take_sub h) hlog h,
    fun m' state' pending' taken h => ?_, fun _ h => hs.cache_of hlog h,
    fun state' => ?_⟩
  · rcases List.mem_cons.mp h with heq | h
    · cases heq
      exact ⟨m, began, hlog _ hm, hle, hage⟩
    · exact hs.took_of hlog h
  · have hbegan : beganCount state' ((n, .took state pending s.now) :: s.log) =
        beganCount state' s.log :=
      List.countP_cons_of_neg (by simp [SsoEvent.begins])
    show tookCount state' (_ :: s.log) + _ ≤ beganCount state' (_ :: s.log)
    rw [hbegan]
    by_cases heq : state' = state
    · -- one more was taken, and the login is there no longer
      subst heq
      have htook : tookCount state' ((n, .took state' pending s.now) :: s.log) =
          tookCount state' s.log + 1 :=
        List.countP_cons_of_pos (by simp [SsoEvent.takes])
      have hgone :
          (s.service.pendingLogins.take SsoService.pendingLoginTtl s.now
          state').2 state' = none := Function.update_self _ _ _
      have honce := hs.once state'
      rw [hentry, Option.isSome_some, if_pos rfl] at honce
      rw [htook]
      show _ +
        (if ((s.service.pendingLogins.take _ s.now state').2 state').isSome
        then 1 else 0) ≤ _
      rw [hgone]
      simpa using honce
    · have htook : tookCount state' ((n, .took state pending s.now) :: s.log) =
          tookCount state' s.log :=
        List.countP_cons_of_neg (by simp [SsoEvent.takes, Ne.symm heq])
      rw [htook]
      refine hs.once_of fun h => ?_
      obtain ⟨e, he⟩ := Option.isSome_iff_exists.mp h
      rw [take_sub he]
      rfl

theorem store_inv (hs : Inv s) (hφ : Holds n φ s) {keys : List Jwk}
    (hkeys : φ.published = some keys) :
    Inv ({ s with jwksCache := some ⟨keys, s.now⟩ }.record n
      (.stored keys s.now)) := by
  have hrecorded : Inv (s.record n (.stored keys s.now)) :=
    hs.record (fun _ => rfl) fun _ => rfl
  refine ⟨hrecorded.logins, hrecorded.took, ?_, hrecorded.once⟩
  rintro _ ⟨⟩
  exact ⟨le_rfl, n, List.mem_cons_of_mem _ (hφ.published keys hkeys),
    List.mem_cons_self⟩

theorem Move.inv (h : Move n φ s φ' t) (hs : Inv s)
    (hφ : Holds n φ s) : Inv t := by
  cases h with
  | exchange | fetch | look | tell =>
      exact hs.record (fun _ => rfl) fun _ => rfl
  | miss => exact hs.drop fun _ _ => take_sub
  | store hkeys => exact store_inv hs hφ hkeys
  | begin => exact begin_inv hs _ _
  | take htake => exact take_inv hs htake

theorem Drift.holds (h : s.Drift t) (hφ : Holds n φ s) : Holds n φ t := by
  obtain ⟨-, heq⟩ := h
  rw [heq]
  exact ⟨hφ.login, hφ.token, hφ.published, hφ.key, hφ.clock, hφ.fetches⟩

theorem Drift.inv (h : s.Drift t) (hs : Inv s) : Inv t := by
  obtain ⟨hnow, heq⟩ := h
  rw [heq]
  refine ⟨fun state e he => ?_, hs.took, fun cache hcache => ?_, hs.once⟩
  · obtain ⟨hle, hbegan⟩ := hs.logins state e he
    exact ⟨hle.trans hnow, hbegan⟩
  · obtain ⟨hle, hpublished⟩ := hs.cache cache hcache
    exact ⟨hle.trans hnow, hpublished⟩

/-- Nothing is known of a thread that has not asked for keys. -/
theorem holds_start (h : fetchesOf n s.log = 0) : Holds n .start s where
  login := by rintro _ _ ⟨⟩
  token := by rintro _ _ ⟨⟩
  published := by rintro _ ⟨⟩
  key := by rintro _ _ ⟨⟩
  clock := by rintro _ ⟨⟩
  fetches := h

end Outline

def outline {Key : Type} (deps : JwtDeps Key) (config : AzureSsoConfig) :
    Outline (cover deps config) .free where
  inv := Inv
  holds := Holds
  absent n s := fetchesOf n s.log = 0
  grow s t := ∀ e ∈ s.log, e ∈ t.log
  grow_refl _ _ he := he
  grow_trans h h' e he := h' e (h e he)
  entry _ _ _ _ _ h := holds_start h
  drift s t hs h :=
    ⟨Drift.inv h hs, fun e he => h.2 ▸ he,
      fun n => ⟨fun ha => h.2 ▸ ha, fun φ => Drift.holds h⟩⟩
  step n φ φ' s t hs hφ hmove _ := by
    have hlog := Move.mem_log hmove
    refine ⟨Move.inv hmove hs hφ, hlog, Move.holds hmove hs hφ, fun m hm => ?_⟩
    have hfetches := Move.fetches_other hmove hm
    exact ⟨fun ha => hfetches.trans ha, fun ψ hψ => hψ.mono hlog hfetches⟩

theorem inv_new (config : AzureSsoConfig)
    (now : Instant) : Inv (.new config now) where
  logins := by rintro _ _ ⟨⟩
  took := by rintro _ _ _ _ ⟨⟩
  cache := by rintro _ ⟨⟩
  once _ := le_rfl

section Runs

variable {Key : Type} {deps : JwtDeps Key} {config : AzureSsoConfig}
  {now : Instant} {c : Config SsoInput SsoServer SsoRequest ApiError SsoReply}

theorem at_reaches
    (hrun : Reaches (flow deps config) .free ⟨.new config now, []⟩ c) :
    (outline deps config).At c :=
  ((outline deps config).at_reaches
    ((outline deps config).at_nil (inv_new config now) fun _ => rfl) hrun).1

/-- What stands behind an identity that single sign-on has accepted for these
parameters of the callback: a login that began here under this state, not long
before; the token that Entra ID gave for its verifier; and a key that was looked
up for it, not long after Entra ID had published it. -/
inductive Vouched (deps : JwtDeps Key) (config : AzureSsoConfig)
    (log : List (Nat × SsoEvent)) (n : Nat) (code state : String)
    (identity : AuthenticatedIdentity) : Prop
  | intro {m : Nat} {pending : PendingLogin}
      {began taken stored found : Instant} {idToken : String} {keys : List Jwk}
      {jwk : Jwk} {key : Key} {clock : Nat} {claims : IdTokenClaims}
      (hbegan : (m, .began state pending began) ∈ log)
      (htook : (n, .took state pending taken) ∈ log) (horder : began ≤ taken)
      (hage : taken - began < SsoService.pendingLoginTtl)
      (hexchanged : (n, .exchanged (SsoService.tokenParams config code pending)
        (.granted idToken)) ∈ log)
      (hheader : deps.decodeHeader idToken = some (some jwk.kid))
      (hlooked : (n, .looked jwk.kid (some jwk) found) ∈ log)
      (hpublished : Published log keys stored) (hjwk : jwk ∈ keys)
      (hfound : stored ≤ found)
      (hfresh : found - stored ≤ jwksCacheTtl)
      (hcomponents : deps.fromRsaComponents jwk.n jwk.e = some key)
      (htold : (n, .told clock) ∈ log)
      (hdecode : deps.decode clock key config.clientId
        (SsoService.expectedIssuer config) idToken = some claims)
      (hnonce : claims.nonce = some pending.nonce)
      (hidentity : identityOf claims = some identity) :
      Vouched deps config log n code state identity

/-- However logins interleave: an identity is accepted only when its token bears
the nonce of the login it is for, and was checked with a key that Entra ID
published for the token's key identifier. -/
theorem identities_vouched
    (hrun : Reaches (flow deps config) .free ⟨.new config now, []⟩ c) {n : Nat}
    {query : CallbackQuery} {identity : AuthenticatedIdentity}
    (hn : c.threads[n]? = some
      (.callback query, .exit (.ok (.identity identity)))) :
    ∃ code state, query = ⟨some code, some state, none⟩ ∧
      Vouched deps config c.state.log n code state identity := by
  have hc := at_reaches hrun
  obtain ⟨φ, hφ, ⟨identity', code, state, hreply, herror, hcode, hstate,
      hchecked⟩, -⟩ := hc.thread n _ _ hn
  cases hreply
  obtain ⟨code', state', error'⟩ := query
  obtain rfl : code' = some code := hcode
  obtain rfl : state' = some state := hstate
  obtain rfl : error' = none := herror
  refine ⟨code, state, rfl, ?_⟩
  obtain ⟨hlogin, htoken, hheader, hkey, hcomponents, hclock, hdecode, hnonce,
      hidentity⟩ := hchecked
  obtain ⟨taken, htook⟩ := hφ.login _ _ hlogin
  obtain ⟨m, began, hbegan, horder, hage⟩ := hc.inv.took _ _ _ _ htook
  obtain ⟨rfl, keys, stored, found, hlooked, hpublished, hjwk, hfound,
      hfresh⟩ := hφ.key _ _ hkey
  exact .intro hbegan htook horder hage (hφ.token _ _ htoken) hheader hlooked
    hpublished hjwk
    hfound hfresh hcomponents (hφ.clock _ hclock) hdecode hnonce hidentity

end Runs

namespace Sample

def jwt : JwtDeps String where
  challenge := id
  decodeHeader _ := some (some "key")
  fromRsaComponents n _ := some n
  decode _ _ _ _ idToken :=
    some ⟨"ada", some idToken, some "ada@example.org", none, some "Ada"⟩

def azure : AzureSsoConfig :=
  ⟨"tenant", "client", "secret", "https://example.org/callback"⟩

/-- Entra ID gives a token with the nonce of the login. -/
def input (thread : Nat) : SsoInput where
  thread := thread
  state := "state"
  nonce := "nonce"
  pkceVerifier := "verifier"
  exchange := .granted "nonce"
  jwks := .keys [⟨"key", "n", "e"⟩]
  clock := 0

def query : CallbackQuery :=
  ⟨some "code", some "state", none⟩

/-- One login, from the start of the server on. -/
def signedIn :
    Option (Config SsoInput SsoServer SsoRequest ApiError SsoReply) :=
  (flow jwt azure).play .free ⟨.new azure 0, []⟩
    ([.arrive .login, .run 0 (input 0), .arrive (.callback query)] ++
      List.replicate 7 (.run 1 (input 1)))

end Sample

theorem identities_vouched_signedIn :
    let c := Sample.signedIn.get (by decide)
    ∃ code state, Sample.query = ⟨some code, some state, none⟩ ∧
      Vouched Sample.jwt Sample.azure c.state.log 1 code state
        ⟨"ada", "ada@example.org", "Ada"⟩ :=
  identities_vouched (System.play_reaches (Option.some_get _).symm) rfl

section Runs

variable {Key : Type} {deps : JwtDeps Key} {config : AzureSsoConfig}
  {now : Instant} {c : Config SsoInput SsoServer SsoRequest ApiError SsoReply}

theorem eq_of_countP_le_one {α : Type} {l : List α} {p : α → Bool}
    (h : l.countP p ≤ 1) {a b : α} (ha : a ∈ l) (hpa : p a = true) (hb : b ∈ l)
    (hpb : p b = true) : a = b := by
  have ha' := List.mem_filter.mpr ⟨ha, hpa⟩
  have hb' := List.mem_filter.mpr ⟨hb, hpb⟩
  rw [List.countP_eq_length_filter] at h
  match hfilter : l.filter p with
  | [] => simp [hfilter] at ha'
  | [x] =>
      rw [hfilter, List.mem_singleton] at ha' hb'
      exact ha'.trans hb'.symm
  | x :: y :: rest =>
      rw [hfilter] at h
      simp at h

/-- Request `n` has ended a login that it was given this state for. -/
def Completed (c : Config SsoInput SsoServer SsoRequest ApiError SsoReply)
    (state : String) (n : Nat) : Prop :=
  ∃ query identity, query.state = some state ∧
    c.threads[n]? =
      some (SsoRequest.callback query, .exit (.ok (.identity identity)))

theorem Completed.took (hc : (outline deps config).At c) {state : String}
    {n : Nat} (h : Completed c state n) :
    ∃ pending taken, (n, .took state pending taken) ∈ c.state.log := by
  obtain ⟨query, identity, hquery, hn⟩ := h
  obtain ⟨φ, hφ, ⟨_, _, state', _, _, _, hstate, hchecked⟩, _⟩ :=
    hc.thread n _ _ hn
  obtain rfl := Option.some.inj (hstate.symm.trans hquery)
  obtain ⟨hlogin, -⟩ := hchecked
  obtain ⟨taken, htook⟩ := hφ.login _ _ hlogin
  exact ⟨_, taken, htook⟩

/-- A login that began once is completed once at most, and a request, however it
ends, has asked Entra ID for its keys once at most. -/
theorem logins_completed_once
    (hrun : Reaches (flow deps config) .free ⟨.new config now, []⟩ c) :
    (∀ state n m, beganCount state c.state.log ≤ 1 → Completed c state n →
      Completed c state m → n = m) ∧
    ∀ (n : Nat) req x, c.threads[n]? = some (req, .exit x) →
      fetchesOf n c.state.log ≤ 1 := by
  have hc := at_reaches hrun
  constructor
  · intro state n m hbegan hn hm
    obtain ⟨pending, taken, hn⟩ := hn.took hc
    obtain ⟨pending', taken', hm⟩ := hm.took hc
    have honce := hc.inv.once state
    have hcount : tookCount state c.state.log ≤ 1 := by omega
    have heq := eq_of_countP_le_one hcount hn (by simp [SsoEvent.takes]) hm
      (by simp [SsoEvent.takes])
    exact (Prod.mk.inj heq).1
  · intro n req x hn
    obtain ⟨φ, hφ, hpost⟩ := hc.thread n _ _ hn
    rw [hφ.fetches]
    cases req <;> cases x <;> first | exact hpost | exact hpost.2

end Runs

theorem logins_completed_once_signedIn :
    let c := Sample.signedIn.get (by decide)
    Completed c "state" 1 ∧ beganCount "state" c.state.log = 1 ∧
    (∀ state n m, beganCount state c.state.log ≤ 1 → Completed c state n →
      Completed c state m → n = m) ∧
    fetchesOf 1 c.state.log = 1 ∧
    ∀ (n : Nat) req x, c.threads[n]? = some (req, .exit x) →
      fetchesOf n c.state.log ≤ 1 := by
  have hrun : Reaches (flow Sample.jwt Sample.azure) .free
      ⟨.new Sample.azure 0, []⟩
      (Sample.signedIn.get (by decide)) :=
    System.play_reaches (Option.some_get _).symm
  obtain ⟨hcompleted, hfetches⟩ := logins_completed_once hrun
  exact ⟨⟨Sample.query, _, rfl, rfl⟩, by decide, hcompleted,
    by decide, hfetches⟩

end SsoServer

end Servcat
