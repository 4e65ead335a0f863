/-
A password reset revokes all sessions of its user, while refreshes may be under
way: when it ends every session from before.
-/
import Servcat.Accounts.Deactivation
import Servcat.Accounts.SingleUse

namespace Servcat

open Atomic Keyed

namespace Accounts

/-- A refresh, or the confirmation of a password reset. -/
inductive Renewal where
  | refresh (refreshToken : String)
  | confirm (token newPassword : String)
deriving DecidableEq, Repr

def Renewal.request : Renewal → AccountRequest
  | .refresh refreshToken => .refresh refreshToken
  | .confirm token newPassword => .confirmPasswordReset token newPassword

/-- Any number of them, with faults at any of their statements. -/
def renewals (deps : AuthDeps) :
    System Draw Accounts Renewal ApiError AccountReply where
  code call := call.request.serve deps
  input n i := i.thread = n
  drift := Drift

instance (deps : AuthDeps) (n : Nat) (i : Draw) :
    Decidable ((renewals deps).input n i) :=
  inferInstanceAs (Decidable (_ = _))

/-- The entry says that this thread found a token. -/
def presents (n : Nat) (e : Nat × AccountEvent) : Bool :=
  e.1 == n && match e.2 with
    | .presented .. => true
    | _ => false

/-- A session is only inserted if the sessions of its user were not revoked
since the request found the token it came with. -/
def notOvertaken : Regime Accounts Renewal where
  arrives _ := True
  allowed n s t := ∀ row ∈ t.sessions.rows,
    (∀ old ∈ s.sessions.rows, old.id ≠ row.id) →
    ∀ e ∈ s.log.takeWhile fun e => !presents n e, e.2 ≠ .revokedAll row.userId

instance : Regime.Checked notOvertaken where
  arrives _ := isTrue trivial
  allowed n s t := inferInstanceAs (Decidable (∀ row ∈ t.sessions.rows,
    (∀ old ∈ s.sessions.rows, old.id ≠ row.id) →
      ∀ e ∈ s.log.takeWhile fun e => !presents n e,
        e.2 ≠ .revokedAll row.userId))

namespace Resets

/-- How far a request has come. -/
inductive Phase where
  | looking (tokenHash : String)
  | presented (token : IssuedToken)
  | issued
  | resetting (tokenHash : String) (token : IssuedToken)
  | revoked (tokenHash : String) (token : IssuedToken)

/-- What a request may do to the accounts. -/
inductive Move (n : Nat) : Phase → Accounts → Phase → Accounts → Prop
  | idle {φ : Phase} {s : Accounts} : Move n φ s φ s
  | present {tokenHash : String} {s : Accounts} {token : IssuedToken}
      (hvalid : s.valid? .refresh tokenHash = some token) :
      Move n (.looking tokenHash) s (.presented token)
        (s.record n (.presented .refresh token))
  | redeem {s : Accounts} {token : IssuedToken} :
      Move n (.presented token) s (.presented token)
        ((s.spend .refresh token.id).record n (.redeemed .refresh token.id))
  | issue {s t : Accounts} {token : IssuedToken} {id : Uuid}
      {tokenHash : String} {expiresAt : Timestamp}
      (hinsert : s.insertToken .refresh id token.userId tokenHash
        expiresAt = some t) :
      Move n (.presented token) s .issued t
  | findReset {tokenHash : String} {s : Accounts} {token : IssuedToken}
      (hvalid : s.valid? .passwordReset tokenHash = some token) :
      Move n (.looking tokenHash) s (.resetting tokenHash token)
        (s.record n (.presented .passwordReset token))
  | redeemReset {tokenHash : String} {s : Accounts} {token : IssuedToken} :
      Move n (.resetting tokenHash token) s (.resetting tokenHash token)
        ((s.spend .passwordReset token.id).record n
        (.redeemed .passwordReset token.id))
  | setPassword {tokenHash passwordHash : String} {s : Accounts}
      {token : IssuedToken} :
      Move n (.resetting tokenHash token) s (.resetting tokenHash token)
        (s.setPasswordHash token.userId passwordHash)
  | revoke {tokenHash : String} {s : Accounts} {token : IssuedToken} :
      Move n (.resetting tokenHash token) s (.revoked tokenHash token)
        ((s.revokeSessions token.userId).record n (.revokedAll token.userId))

variable {deps : AuthDeps}

theorem refresh_follows (n : Nat) (rawToken : String) :
    Follows (thread Move n) (Yields fun _ _ => True)
      (Routes.refresh deps rawToken) (.looking (deps.sha256Hex rawToken)) := by
  refine yields_bind (Follows.mono (fun x ψ hx => ?_)
    (redeem_follows (fun _ _ _ => .idle)
    .presented .presented (fun _ _ => .present) fun _ _ => .redeem))
  cases x with
  | error | panicked => trivial
  | ok userId =>
  obtain ⟨token, rfl, rfl⟩ := hx
  refine yields_bind (yields_read (fun _ _ _ => .idle) fun s => ⟨_, .idle, ?_⟩)
  cases huser : (s.users.find? token.userId).filter User.isActive with
  | none => trivial
  | some user =>
      obtain ⟨-, hid⟩ := active_of_find? huser
      refine yields_bind (yields_bind
        (yields_utcNow (fun _ _ _ => .idle) fun now => ?_))
      cases deps.issueAccessToken now user with
      | error | panicked => trivial
      | ok accessToken =>
          refine yields_bind (yields_random (fun _ _ _ => .idle)
            fun refreshToken => ?_)
          refine yields_utcNow (fun _ _ _ => .idle) fun now => ?_
          cases expiry now deps.refreshTokenTtl with
          | none => trivial
          | some expiresAt =>
              refine yields_bind (yields_db
                (yields_execute (fun _ _ _ => .idle) ?_))
              rintro i s _ t hi hsome
              obtain ⟨t', hinsert, heq⟩ := Option.map_eq_some_iff.mp hsome
              cases heq
              rw [hid] at hinsert
              exact ⟨_, .issue hinsert, trivial⟩

theorem confirm_follows (n : Nat) (rawToken newPassword : String) :
    Follows (thread Move n)
      (Yields fun _ ψ => ∃ token, ψ = .revoked (deps.sha256Hex rawToken) token)
      (Routes.confirmPasswordReset deps rawToken newPassword)
      (.looking (deps.sha256Hex rawToken)) := by
  unfold Routes.confirmPasswordReset
  split
  · trivial
  refine yields_bind (Follows.mono (fun x ψ hx => ?_)
    (redeem_follows (fun _ _ _ => .idle)
    (.resetting _) (.resetting _) (fun _ _ => .findReset)
      fun _ _ => .redeemReset))
  cases x with
  | error | panicked => trivial
  | ok userId =>
  obtain ⟨token, rfl, rfl⟩ := hx
  refine yields_bind (yields_random (fun _ _ _ => .idle) fun salt => ?_)
  cases deps.argon2Hash salt newPassword with
  | none => trivial
  | some passwordHash =>
      refine yields_bind (yields_db (yields_execute (fun _ _ _ => .idle) ?_))
      rintro i s _ t hi ⟨⟩
      refine ⟨_, .setPassword,
        yields_db (yields_execute (fun _ _ _ => .idle) ?_)⟩
      rintro i s _ t hi ⟨⟩
      rw [hi]
      exact ⟨_, .revoke, token, rfl⟩

def cover (deps : AuthDeps) : Cover (renewals deps) Phase where
  move := Move
  entry
    | .refresh refreshToken => .looking (deps.sha256Hex refreshToken)
    | .confirm token _ => .looking (deps.sha256Hex token)
  post
    | .refresh _ => fun _ _ => True
    | .confirm token _ =>
        Yields fun _ ψ => ∃ t, ψ = .revoked (deps.sha256Hex token) t
  follows n call := by
    cases call with
    | refresh refreshToken =>
        refine Follows.mono (fun _ _ _ => trivial)
          (yields_bind ((refresh_follows n refreshToken).mono fun x ψ _ => ?_)
            (Q := fun _ _ => True))
        cases x <;> trivial
    | confirm token newPassword =>
        refine yields_bind ((confirm_follows n token newPassword).mono
          fun x ψ hx => ?_)
        cases x with
        | ok _ => exact hx
        | error | panicked => trivial

/-- All sessions of a user were revoked at some time. -/
def RevokedAll (s : Accounts) (userId : Uuid) : Prop :=
  ∃ m, (m, AccountEvent.revokedAll userId) ∈ s.log

/-- The thread found this token, and had it been after a revocation of all
sessions of its user, that would be in the log behind the finding. -/
def Shown (n : Nat) (token : IssuedToken) (s : Accounts) : Prop :=
  ∃ newer older, s.log = newer ++ (n, .presented .refresh token) :: older ∧
    (∀ e ∈ newer, presents n e = false) ∧
    ∀ m, (m, AccountEvent.revokedAll token.userId) ∉ older

/-- There is a reset token with this hash for the user of this token. -/
def Resetting (s : Accounts) (tokenHash : String) (userId : Uuid) : Prop :=
  ∃ row ∈ s.passwordResets.rows, row.tokenHash = tokenHash ∧ row.userId = userId

/-- Whose sessions were revoked has no session left. -/
def Inv (s : Accounts) : Prop :=
  ∀ userId, RevokedAll s userId → ¬s.Live userId

/-- What a thread relies on in each phase. -/
def Holds (n : Nat) (φ : Phase) (s : Accounts) : Prop :=
  match φ with
  | .looking _ | .issued => True
  | .presented token => Shown n token s
  | .resetting tokenHash token => Resetting s tokenHash token.userId
  | .revoked tokenHash token =>
      Resetting s tokenHash token.userId ∧ RevokedAll s token.userId

/-- A step appends to the log at most one entry, of its own thread. -/
theorem Move.log {n : Nat} {φ φ' : Phase} {s t : Accounts}
    (h : Move n φ s φ' t) :
    t.log = s.log ∨ ∃ event, t.log = (n, event) :: s.log := by
  cases h with
  | idle | setPassword => exact .inl rfl
  | issue hinsert =>
      obtain ⟨tokens, -, rfl⟩ := insertToken_eq_some hinsert
      exact .inl rfl
  | present | redeem | findReset | redeemReset | revoke => exact .inr ⟨_, rfl⟩

theorem Move.resetting {n : Nat} {φ φ' : Phase} {s t : Accounts}
    (h : Move n φ s φ' t) {tokenHash : String} {userId : Uuid}
    (hs : Resetting s tokenHash userId) :
    Resetting t tokenHash userId := by
  cases h with
  | idle | setPassword | present | redeem | findReset | revoke => exact hs
  | issue hinsert =>
      obtain ⟨tokens, -, rfl⟩ := insertToken_eq_some hinsert
      exact hs
  | @redeemReset _ s token =>
      obtain ⟨row, hrow, hhash, huser⟩ := hs
      refine ⟨_, List.mem_map_of_mem hrow, ?_, ?_⟩
      · exact ((spent_keeps s.now token.id).index row).trans hhash
      · unfold spent
        split <;> exact huser

theorem Shown.append {n m : Nat} {token : IssuedToken} {s t : Accounts}
    (hs : Shown m token s) {event : AccountEvent}
    (hlog : t.log = (n, event) :: s.log)
    (hquiet : presents m (n, event) = false) : Shown m token t := by
  obtain ⟨newer, older, hsplit, hnewer, holder⟩ := hs
  refine ⟨(n, event) :: newer, older, by rw [hlog, hsplit]; rfl, ?_, holder⟩
  intro e he
  rcases List.mem_cons.mp he with rfl | he
  · exact hquiet
  · exact hnewer e he

theorem Shown.congr {m : Nat} {token : IssuedToken} {s t : Accounts}
    (hs : Shown m token s) (hlog : t.log = s.log) : Shown m token t := by
  obtain ⟨newer, older, hsplit, hrest⟩ := hs
  exact ⟨newer, older, hlog.trans hsplit, hrest⟩

theorem RevokedAll.of_log {s t : Accounts} (hlog : ∀ e ∈ s.log, e ∈ t.log)
    {userId : Uuid} (hs : RevokedAll s userId) : RevokedAll t userId := by
  obtain ⟨m, hm⟩ := hs
  exact ⟨m, hlog _ hm⟩

/-- What the others rely on, no step of this thread takes from them. -/
theorem Move.stable {n m : Nat} {φ φ' ψ : Phase} {s t : Accounts}
    (h : Move n φ s φ' t) (hm : m ≠ n) (hψ : Holds m ψ s) : Holds m ψ t := by
  have hmem : ∀ e ∈ s.log, e ∈ t.log := by
    rcases h.log with heq | ⟨event, heq⟩ <;> simp +contextual [heq]
  cases ψ with
  | looking | issued => trivial
  | presented token =>
      rcases h.log with heq | ⟨event, heq⟩
      · exact Shown.congr hψ heq
      · exact Shown.append hψ heq (by simp [presents, Ne.symm hm])
  | resetting tokenHash token => exact h.resetting hψ
  | revoked tokenHash token => exact ⟨h.resetting hψ.1, hψ.2.of_log hmem⟩

/-- The log says nothing new of revocations, and no session is new
that is live. -/
theorem Inv.of {s t : Accounts} (hs : Inv s)
    (hlog : ∀ userId, RevokedAll t userId → RevokedAll s userId)
    (hlive : ∀ userId, RevokedAll t userId → t.Live userId → s.Live userId) :
    Inv t :=
  fun userId hrevoked h =>
    hs userId (hlog userId hrevoked) (hlive userId hrevoked h)

theorem RevokedAll.of_record {s : Accounts} {n : Nat} {event : AccountEvent}
    {userId : Uuid} (h : RevokedAll (s.record n event) userId)
    (hevent : event ≠ .revokedAll userId) :
    RevokedAll s userId := by
  obtain ⟨m, hm⟩ := h
  rcases List.mem_cons.mp hm with heq | hm
  · exact absurd (Prod.mk.inj heq).2.symm hevent
  · exact ⟨m, hm⟩

/-- A token that is found is not one of a user whose sessions were revoked. -/
theorem shown_of_valid {n : Nat} {s : Accounts} {tokenHash : String}
    {token : IssuedToken} (hs : Inv s)
    (hvalid : s.valid? .refresh tokenHash = some token) :
    Shown n token (s.record n (.presented .refresh token)) := by
  refine ⟨[], s.log, rfl, by simp, fun m hm => ?_⟩
  obtain ⟨hmem, -, hunspent, -⟩ := valid?_eq_some_iff.mp hvalid
  exact hs token.userId ⟨m, hm⟩ ⟨token, hmem, rfl, hunspent⟩

/-- A session that is inserted in time is not one of a user whose sessions were
revoked. -/
theorem not_revokedAll_of_allowed {n : Nat} {s t : Accounts}
    {token : IssuedToken} {id : Uuid} {tokenHash : String}
    {expiresAt : Timestamp} (hshown : Shown n token s)
    (hinsert : s.insertToken .refresh id token.userId tokenHash
      expiresAt = some t)
    (hallowed : notOvertaken.allowed n s t) : ¬RevokedAll s token.userId := by
  obtain ⟨tokens, htokens, rfl⟩ := insertToken_eq_some hinsert
  obtain ⟨newer, older, hsplit, hnewer, holder⟩ := hshown
  have htake : s.log.takeWhile (fun e => !presents n e) = newer := by
    rw [hsplit, List.takeWhile_append_of_pos fun e he => by simp [hnewer e he]]
    simp [presents]
  have hnew := hallowed _ ((Indexed.mem_insert htokens).mpr (.inr rfl))
    (Indexed.fresh_insert htokens)
  rintro ⟨m, hm⟩
  rw [hsplit] at hm
  rcases List.mem_append.mp hm with hm | hm
  · exact hnew _ (htake ▸ hm) rfl
  · rcases List.mem_cons.mp hm with heq | hm
    · cases heq
    · exact holder m hm

/-- A token that is presented revokes nothing. -/
theorem record_inv {n : Nat} {s : Accounts} {event : AccountEvent} (hs : Inv s)
    (hevent : ∀ userId, event ≠ .revokedAll userId) :
    Inv (s.record n event) := by
  apply hs.of
  · intro userId hrevoked
    exact hrevoked.of_record (hevent userId)
  · intro userId _ hlive
    exact hlive

theorem spend_inv {n : Nat} {s : Accounts} {kind : TokenKind} {id : Uuid}
    (hs : Inv s) : Inv ((s.spend kind id).record n (.redeemed kind id)) := by
  apply record_inv _ (by simp)
  apply hs.of
  · intro userId hrevoked
    apply hrevoked.of_log
    intro e he
    rwa [spend, log_setTokens] at he
  · intro userId _ hlive
    exact live_spend hlive

/-- A session that is inserted in time belongs to a user whose sessions were not
revoked. -/
theorem issue_inv {n : Nat} {s t : Accounts} {token : IssuedToken} {id : Uuid}
    {tokenHash : String} {expiresAt : Timestamp} (hs : Inv s)
    (hshown : Shown n token s)
    (hinsert : s.insertToken .refresh id token.userId tokenHash
      expiresAt = some t)
    (hallowed : notOvertaken.allowed n s t) : Inv t := by
  have hnot := not_revokedAll_of_allowed hshown hinsert hallowed
  have hlog : ∀ userId, RevokedAll t userId → RevokedAll s userId := by
    obtain ⟨tokens, -, rfl⟩ := insertToken_eq_some hinsert
    exact fun _ hrevoked => hrevoked
  apply hs.of hlog
  intro userId hrevoked hlive
  rcases live_insertToken hinsert hlive with rfl | hlive
  · exact absurd (hlog _ hrevoked) hnot
  · exact hlive

theorem revoke_inv {n : Nat} {s : Accounts} {token : IssuedToken} (hs : Inv s) :
    Inv ((s.revokeSessions token.userId).record n
      (.revokedAll token.userId)) := by
  rintro userId ⟨m, hm⟩ hlive
  obtain ⟨hne, hlive⟩ := live_revokeSessions hlive
  rcases List.mem_cons.mp hm with heq | hm
  · cases heq
    exact hne rfl
  · exact hs userId ⟨m, hm⟩ hlive

theorem Move.inv {n : Nat} {φ φ' : Phase} {s t : Accounts} (h : Move n φ s φ' t)
    (hs : Inv s) (hφ : Holds n φ s)
    (hallowed : notOvertaken.allowed n s t) : Inv t := by
  cases h with
  | idle | setPassword => exact hs
  | present | findReset => exact record_inv hs (by simp)
  | redeem | redeemReset => exact spend_inv hs
  | issue hinsert => exact issue_inv hs hφ hinsert hallowed
  | revoke => exact revoke_inv hs

/-- What a thread relies on after its own step. -/
theorem Move.holds {n : Nat} {φ φ' : Phase} {s t : Accounts}
    (h : Move n φ s φ' t) (hs : Inv s) (hφ : Holds n φ s) : Holds n φ' t := by
  have hresetting : ∀ {tokenHash : String} {token : IssuedToken},
      s.valid? .passwordReset tokenHash = some token →
      Resetting s tokenHash token.userId := by
    intro tokenHash token hvalid
    obtain ⟨hmem, hhash, -, -⟩ := valid?_eq_some_iff.mp hvalid
    exact ⟨token, hmem, hhash, rfl⟩
  have hkeep := @Move.resetting n φ φ' s t h
  cases h with
  | idle => exact hφ
  | present hvalid => exact shown_of_valid hs hvalid
  | redeem => exact Shown.append hφ rfl (by simp [presents])
  | issue => trivial
  | findReset hvalid => exact hresetting hvalid
  | redeemReset => exact hkeep hφ
  | setPassword => exact hφ
  | revoke => exact ⟨hφ, n, List.mem_cons_self⟩

theorem Drift.holds {s t : Accounts} (h : s.Drift t) {n : Nat} {φ : Phase}
    (hφ : Holds n φ s) : Holds n φ t := by
  have hresetting : ∀ {tokenHash : String} {userId : Uuid},
      Resetting s tokenHash userId → Resetting t tokenHash userId := by
    intro tokenHash userId hs
    rwa [Resetting, h.passwordResets]
  cases φ with
  | looking | issued => trivial
  | presented token => exact Shown.congr hφ h.log
  | resetting tokenHash token => exact hresetting hφ
  | revoked tokenHash token =>
      exact ⟨hresetting hφ.1, hφ.2.of_log fun e he => by rwa [h.log]⟩

def outline (deps : AuthDeps) : Outline (cover deps) notOvertaken where
  inv := Inv
  holds := Holds
  absent _ _ := True
  grow _ _ := True
  grow_refl _ := trivial
  grow_trans _ _ := trivial
  entry n call s _ _ _ := by cases call <;> trivial
  drift s t hs h := by
    refine ⟨fun userId hrevoked hlive => ?_, trivial,
      fun n => ⟨fun _ => trivial, fun φ => Drift.holds h⟩⟩
    rw [RevokedAll, h.log] at hrevoked
    rw [Live, h.sessions] at hlive
    exact hs userId hrevoked hlive
  step n φ φ' s t hs hφ hmove hallowed :=
    ⟨hmove.inv hs hφ hallowed, trivial, hmove.holds hs hφ,
      fun m hm => ⟨fun _ => trivial, fun ψ => hmove.stable hm⟩⟩

end Resets

/-- Once a password reset has succeeded, all sessions of its user are revoked,
those from before and those that came from them by rotation, provided no refresh
that found its session before the revocation inserts a new one after it. -/
theorem reset_ends_sessions {deps : AuthDeps} {s : Accounts} (hs : s.log = [])
    {d : Config Draw Accounts Renewal ApiError AccountReply}
    (hrun : Reaches (renewals deps) notOvertaken ⟨s, []⟩ d) {n : Nat}
    {rawToken newPassword : String} {reply : AccountReply}
    (hn : d.threads[n]? = some
      (.confirm rawToken newPassword, .exit (.ok reply)))
    {reset : IssuedToken} (hreset : reset ∈ d.state.passwordResets.rows)
    (hhash : reset.tokenHash = deps.sha256Hex rawToken) {session : IssuedToken}
    (hsession : session ∈ d.state.sessions.rows)
    (hof : session.userId = reset.userId) :
    session.spentAt ≠ none := by
  have hinv : Resets.Inv s := by
    rintro userId ⟨m, hm⟩
    rw [hs] at hm
    cases hm
  have hd := ((Resets.outline deps).at_reaches
    ((Resets.outline deps).at_nil hinv fun _ => trivial) hrun).1
  obtain ⟨φ, hφ, token, rfl⟩ := hd.thread n _ _ hn
  obtain ⟨⟨row, hrow, hhash', huser⟩, hrevoked⟩ := hφ
  obtain rfl := Indexed.eq_of_index hrow hreset (hhash'.trans hhash.symm)
  intro hlive
  exact hd.inv token.userId hrevoked ⟨session, hsession, hof.trans huser, hlive⟩

namespace Sample

abbrev RenewalSchedule := List (Action Draw Renewal)

def confirm : Renewal :=
  .confirm "23" "a new password"

/-- A refresh, and then the reset of the password. -/
def refreshThenReset : RenewalSchedule :=
  .arrive (.refresh "22") :: steps 0 100 7 ++ .arrive confirm :: steps 1 200 5

/-- The reset is carried out after the refresh has marked its token as spent,
and before it inserts the new session. -/
def resetDuringRefresh : RenewalSchedule :=
  [.arrive (.refresh "22"), .arrive confirm] ++ steps 0 100 2 ++
    steps 1 200 5 ++ steps 0 102 5

def renewed (R : Regime Accounts Renewal) [R.Checked]
    (schedule : RenewalSchedule) :
    Option (Config Draw Accounts Renewal ApiError AccountReply) :=
  (renewals deps).play R ⟨issued, []⟩ schedule

end Sample

theorem reset_ends_sessions_played :
    let d :=
      (Sample.renewed notOvertaken Sample.refreshThenReset).get (by decide)
    d.state.sessions.rows.length = 2 ∧
    ∀ session ∈ d.state.sessions.rows, session.userId = Sample.id 13 →
      session.spentAt ≠ none := by
  intro d
  have hreset : ⟨Sample.id 51, Sample.id 13, "#23", 60, some 0⟩ ∈
      d.state.passwordResets.rows := by decide
  refine ⟨by decide, fun session hsession hof => ?_⟩
  exact reset_ends_sessions (n := 1) rfl
    (System.play_reaches (Option.some_get _).symm)
    (show d.threads[1]? = some (Sample.confirm, .exit (.ok .done)) from rfl)
    hreset rfl hsession hof

/-- The refresh and the reset both succeed, and the new session
outlives the reset. -/
theorem session_outlives_reset :
    let d := (Sample.renewed .free Sample.resetDuringRefresh).get (by decide)
    Reaches (renewals Sample.deps) .free ⟨Sample.issued, []⟩ d ∧
    (d.threads.map fun t => match t.2 with
      | .exit (.ok reply) => some reply
      | _ => none) =
        [some
          (.session ⟨Sample.accessToken
          (Servcat.Sample.user 13 "ada" .requester), "104",
          (Servcat.Sample.user 13 "ada" .requester).profile⟩), some .done] ∧
    (d.state.sessions.rows.map fun row =>
      (row.userId, row.tokenHash, row.spentAt)) =
      [(Sample.id 13, "#22", some 0), (Sample.id 13, "#104", none)] :=
  ⟨System.play_reaches (Option.some_get _).symm, by decide, by decide⟩

end Accounts

end Servcat
