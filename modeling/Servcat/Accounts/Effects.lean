/-
What the requests do to the accounts, one request at a time: a property is kept
by a request if it is kept by each of the writes the request may make.
-/
import Servcat.Accounts.Requests

namespace Servcat

open Atomic Keyed

/-- No fault. -/
def Draw.Admitted (i : Draw) (_ : Accounts) : Prop :=
  i.fault = .none

instance Draw.decidableAdmitted (i : Draw)
    (s : Accounts) : Decidable (i.Admitted s) :=
  inferInstanceAs (Decidable (_ = _))

namespace Accounts

/-- The user has this row, and is active. -/
def Active (s : Accounts) (user : User) : Prop :=
  s.users.find? user.id = some user ∧ user.isActive = true

/-- The user has a session that is not revoked. -/
def Live (s : Accounts) (userId : Uuid) : Prop :=
  ∃ session ∈ s.sessions.rows, session.userId = userId ∧ session.spentAt = none

/-- What is kept when tokens are redeemed, and issued to these users. -/
structure KeptBySessions (who : User → Prop) (Q : Accounts → Prop) : Prop where
  insertToken : ∀ {s t : Accounts} {kind : TokenKind} {id : Uuid} {user : User}
    {tokenHash : String} {expiresAt : Timestamp}, Q s → s.Active user →
      who user →
      s.insertToken kind id user.id tokenHash expiresAt = some t → Q t
  spend : ∀ {s : Accounts} (kind : TokenKind) (id : Uuid),
    Q s → Q (s.spend kind id)
  record : ∀ {s : Accounts} (thread : Nat) (event : AccountEvent), Q s →
    Q (s.record thread event)

/-- Every user. -/
def anyone (_ : User) : Prop :=
  True

/-- What all writes keep, apart from updates of users. -/
structure Kept (deps : AuthDeps) (Q : Accounts → Prop) : Prop extends
    KeptBySessions anyone Q where
  insertUser : ∀ {s t : Accounts} {id : Uuid} {new : NewUser}
    {passwordHash : Option String}, Q s →
      s.insertUser deps.collation id new passwordHash = some t → Q t
  linkSubject : ∀ {s t : Accounts} {id : Uuid} {subject : String}, Q s →
    s.linkSubject deps.collation id subject = some t → Q t
  setPasswordHash : ∀ {s : Accounts} (id : Uuid) (passwordHash : String), Q s →
    Q (s.setPasswordHash id passwordHash)
  revokeSessions : ∀ {s : Accounts} (userId : Uuid),
    Q s → Q (s.revokeSessions userId)
  insertAuditEntry : ∀ {s t : Accounts} {id : Uuid} {entry : NewAuditLogEntry},
    Q s → s.insertAuditEntry id entry = some t → Q t
  deactivate : ∀ {s : Accounts} {actor : User} {id : Uuid},
    Q s → s.Active actor → actor.role = .admin → actor.id ≠ id →
      Q ((s.deactivateUser id).revokeSessions id)

/-- At the end `Q` holds, and `R` of the value if there is one. -/
def Leaves {ε α : Type} (Q : Accounts → Prop) (R : α → Accounts → Prop) :
    Exit ε α → Accounts → Prop
  | .ok a, t => Q t ∧ R a t
  | _, t => Q t

section Rules

variable {ε ε' α β : Type} {s : Accounts} {Q Q' : Accounts → Prop}
  {R R' : α → Accounts → Prop} {R'' : β → Accounts → Prop}

theorem Leaves.mono {x : Exit ε α} {t : Accounts} (hQ : Q t → Q' t)
    (hR : ∀ a, Q t → R a t → R' a t)
    (h : Leaves Q R x t) : Leaves Q' R' x t := by
  cases x with
  | ok a => exact ⟨hQ h.1, hR a h.1 h.2⟩
  | error | panicked => exact hQ h

theorem Leaves.left {x : Exit ε α} {t : Accounts}
    (h : Leaves Q R x t) : Q t := by
  cases x with
  | ok a => exact h.1
  | error | panicked => exact h

theorem leaves_bind {p : Async ε α} {k : α → Async ε β}
    (h : wp Draw.Admitted p (Leaves Q R) s) (hQ : ∀ t, Q t → Q' t)
    (hk : ∀ a t, Q t → R a t → wp Draw.Admitted (k a) (Leaves Q' R'') t) :
    wp Draw.Admitted (p >>= k) (Leaves Q' R'') s := by
  refine (wp_bind _ _ _ _).mpr (wp_mono (fun x t hx => ?_) h)
  cases x with
  | ok a => exact hk a t hx.1 hx.2
  | error | panicked => exact hQ t hx

theorem leaves_mapError {f : ε → ε'} {p : Async ε α}
    (h : wp Draw.Admitted p (Leaves Q R) s) :
    wp Draw.Admitted (p.mapError f) (Leaves Q R) s := by
  refine (wp_mapError _ _ _ _).mpr (wp_mono (fun x t hx => ?_) h)
  cases x <;> exact hx

theorem leaves_attempt {p : Async ε α} (h : wp Draw.Admitted p (Leaves Q R) s) :
    wp Draw.Admitted (p.attempt : Async ε' (Except ε α))
      (Leaves Q fun x t => ∀ a, x = .ok a → R a t) s := by
  refine (wp_attempt _ _ _).mpr (wp_mono (fun x t hx => ?_) h)
  cases x with
  | ok a =>
      refine ⟨hx.1, ?_⟩
      rintro _ ⟨⟩
      exact hx.2
  | error err => exact ⟨hx, fun _ h => by cases h⟩
  | panicked => exact hx

theorem leaves_okOr {e : ε} {value : Option α} (hs : Q s)
    (hR : ∀ a, value = some a → R a s) :
    wp Draw.Admitted (.okOr e value) (Leaves Q R) s := by
  cases value with
  | none => exact hs
  | some a => exact ⟨hs, hR a rfl⟩

theorem leaves_select {f : Accounts → α} (hs : Q s) (hR : R (f s) s) :
    wp Draw.Admitted (select f) (Leaves Q R) s := by
  refine (wp_atomic _ _ _).mpr fun i hi => ?_
  rw [show i.fault = .none from hi]
  exact ⟨hs, hR⟩

theorem leaves_execute {f : Draw → Accounts → Option (α × Accounts)} (hs : Q s)
    (h : ∀ i a t, f i s = some (a, t) → Q t ∧ R a t) :
    wp Draw.Admitted (execute f) (Leaves Q R) s := by
  refine (wp_atomic _ _ _).mpr fun i hi => ?_
  rw [show i.fault = .none from hi]
  cases hf : f i s with
  | none => exact hs
  | some result => exact h i _ _ hf

/-- Reading in front of the rest of a program. -/
theorem leaves_read {f : Accounts → α} {k : α → Async ApiError β} (hs : Q s)
    (h : wp Draw.Admitted (k (f s)) (Leaves Q R'') s) :
    wp Draw.Admitted (db (select f) >>= k) (Leaves Q R'') s := by
  refine leaves_bind (Q := (· = s)) (R := fun a _ => a = f s)
    (leaves_mapError (leaves_select rfl rfl)) (fun t ht => ht ▸ hs) ?_
  rintro a t rfl rfl
  exact h

theorem leaves_require {e : ε} {value : Option α} {k : α → Async ε β} (hs : Q s)
    (h : ∀ a, value = some a → wp Draw.Admitted (k a) (Leaves Q R'') s) :
    wp Draw.Admitted (.okOr e value >>= k) (Leaves Q R'') s := by
  cases value with
  | none => exact hs
  | some a => exact h a rfl

theorem leaves_utcNow {k : Timestamp → Async ε β}
    (h : wp Draw.Admitted (k s.now) (Leaves Q R'') s) :
    wp Draw.Admitted (utcNow >>= k) (Leaves Q R'') s :=
  (wp_bind _ _ _ _).mpr ((wp_atomic _ _ _).mpr fun _ _ => h)

theorem leaves_random {k : String → Async ε β}
    (h : ∀ token, wp Draw.Admitted (k token) (Leaves Q R'') s) :
    wp Draw.Admitted (random >>= k) (Leaves Q R'') s :=
  (wp_bind _ _ _ _).mpr ((wp_atomic _ _ _).mpr fun i _ => h i.token)

end Rules

section Reads

variable {deps : AuthDeps} {s : Accounts}

theorem active_of_find? {userId : Uuid} {user : User}
    (h : (s.users.find? userId).filter User.isActive = some user) :
    s.Active user ∧ user.id = userId := by
  obtain ⟨hfound, hactive⟩ := Option.filter_eq_some_iff.mp h
  have hid := Table.key_of_find? hfound
  exact ⟨⟨hid ▸ hfound, hactive⟩, hid⟩

theorem activeUser_reads (userId : Uuid) :
    wp Draw.Admitted (activeUser userId)
      (Leaves (· = s) fun user t => t.Active user ∧ user.id = userId) s :=
  leaves_read rfl (leaves_okOr rfl fun _ h => active_of_find? h)

theorem validUserForAccessToken_reads (token : String) :
    wp Draw.Admitted (validUserForAccessToken deps token)
      (Leaves (· = s) fun found t => ∀ user,
        found = some user → t.Active user) s := by
  refine leaves_utcNow ?_
  cases deps.verifyAccessToken s.now token with
  | none => exact ⟨rfl, fun _ h => by cases h⟩
  | some claims =>
      exact leaves_read rfl ⟨rfl, fun _ h => (active_of_find? h).1⟩

theorem authUser_reads (bearer : Option String) :
    wp Draw.Admitted (authUser deps bearer)
      (Leaves (· = s) fun user t => t.Active user)
      s := by
  refine leaves_require rfl fun token _ => ?_
  refine leaves_bind (validUserForAccessToken_reads token) (fun _ h => h) ?_
  exact fun found t ht huser => leaves_okOr ht huser

theorem authenticateLocal_reads (email password : String) :
    wp Draw.Admitted (authenticateLocal deps email password)
      (Leaves (· = s) fun user t => t.Active user) s := by
  refine leaves_read rfl (leaves_require rfl fun user hfound => ?_)
  have hrow := Table.find?_of_mem (List.mem_of_find?_eq_some hfound)
  cases hactive : user.isActive with
  | false => exact rfl
  | true =>
      refine leaves_require rfl fun passwordHash _ =>
        leaves_require rfl fun verified _ => ?_
      cases verified with
      | false => exact rfl
      | true => exact ⟨rfl, hrow, hactive⟩

end Reads

section Writes

variable {deps : AuthDeps} {who : User → Prop} {Q : Accounts → Prop}
  {s : Accounts}

/-- Issuing a token to a user who is active. -/
theorem createToken_keeps (hQ : KeptBySessions who Q) (hs : Q s) {user : User}
    (huser : s.Active user) (hwho : who user) {kind : TokenKind} {ttl : Nat} :
    wp Draw.Admitted (createToken deps kind ttl user.id)
      (Leaves Q fun _ _ => True) s := by
  refine leaves_random fun rawToken => leaves_utcNow ?_
  cases expiry s.now ttl with
  | none => exact hs
  | some expiresAt =>
      refine leaves_bind (Q := Q) (R := fun _ _ => True)
        (leaves_mapError (leaves_execute hs ?_)) (fun _ h => h) fun _ _ ht _ =>
          ⟨ht, trivial⟩
      intro i a t hsome
      obtain ⟨t', hinsert, heq⟩ := Option.map_eq_some_iff.mp hsome
      cases heq
      exact ⟨hQ.insertToken hs huser hwho hinsert, trivial⟩

theorem issueTokenPair_keeps (hQ : KeptBySessions who Q) (hs : Q s)
    {user : User} (huser : s.Active user) (hwho : who user) :
    wp Draw.Admitted (issueTokenPair deps user)
      (Leaves Q fun _ _ => True) s := by
  refine leaves_bind (Q := (· = s)) (R := fun _ _ => True) (leaves_utcNow ?_)
    (fun t ht => ht ▸ hs) ?_
  · cases deps.issueAccessToken s.now user with
    | ok accessToken => exact ⟨rfl, trivial⟩
    | error | panicked => exact rfl
  rintro accessToken t rfl -
  exact leaves_bind (createToken_keeps hQ hs huser hwho) (fun _ h => h)
    fun _ _ ht _ => ⟨ht, trivial⟩

/-- A token that can be redeemed was not spent. -/
theorem redeem_keeps (hQ : KeptBySessions who Q) (hs : Q s) {kind : TokenKind}
    {invalid : ApiError} {rawToken : String} :
    wp Draw.Admitted (redeem deps kind invalid rawToken)
      (Leaves Q fun userId _ =>
        ∃ token ∈ (s.tokens kind).rows, token.userId = userId ∧
          token.spentAt = none) s := by
  refine leaves_bind (Q := Q)
    (R := fun found _ => ∀ token, found = some token →
      token ∈ (s.tokens kind).rows ∧ token.spentAt = none)
    (leaves_mapError (leaves_execute hs ?_)) (fun _ h => h) ?_
  · intro i a t hsome
    cases hvalid : s.valid? kind (deps.sha256Hex rawToken) with
    | none =>
        simp only [hvalid, Option.some.injEq, Prod.mk.injEq] at hsome
        obtain ⟨rfl, rfl⟩ := hsome
        exact ⟨hs, fun _ h => by cases h⟩
    | some token =>
        simp only [hvalid, Option.some.injEq, Prod.mk.injEq] at hsome
        obtain ⟨rfl, rfl⟩ := hsome
        refine ⟨hQ.record _ _ hs, ?_⟩
        rintro _ ⟨⟩
        obtain ⟨hmem, -, hunspent, -⟩ := valid?_eq_some_iff.mp hvalid
        exact ⟨hmem, hunspent⟩
  intro found t ht hfound
  refine leaves_require ht fun token htoken => ?_
  obtain ⟨hmem, hunspent⟩ := hfound token htoken
  refine leaves_bind (Q := Q) (R := fun _ _ => True)
    (leaves_mapError (leaves_execute ht ?_)) (fun _ h => h)
    fun _ _ h _ => ⟨h, token, hmem, rfl, hunspent⟩
  rintro i a t' ⟨⟩
  exact ⟨hQ.record _ _ (hQ.spend _ _ ht), trivial⟩

theorem revokeAllSessions_keeps {userId : Uuid} (hQ : KeptBySessions who Q)
    (h : Q (s.revokeSessions userId)) :
    wp Draw.Admitted (revokeAllSessions userId)
      (Leaves Q fun _ _ => True) s := by
  refine (wp_mapError _ _ _ _).mpr ((wp_atomic _ _ _).mpr fun i hi => ?_)
  rw [show i.fault = .none from hi]
  exact ⟨hQ.record _ _ h, trivial⟩

theorem KeptBySessions.and {P : Accounts → Prop} (hQ : KeptBySessions who Q)
    (hP : KeptBySessions who P) : KeptBySessions who fun t => Q t ∧ P t where
  insertToken h huser hwho hinsert :=
    ⟨hQ.insertToken h.1 huser hwho hinsert,
      hP.insertToken h.2 huser hwho hinsert⟩
  spend kind id h := ⟨hQ.spend kind id h.1, hP.spend kind id h.2⟩
  record thread event h :=
    ⟨hQ.record thread event h.1, hP.record thread event h.2⟩

/-- What is kept when anyone is issued tokens is kept when these are. -/
theorem KeptBySessions.of_anyone
    (hQ : KeptBySessions anyone Q) : KeptBySessions who Q where
  insertToken h huser _ hinsert := hQ.insertToken h huser trivial hinsert
  spend := hQ.spend
  record := hQ.record

theorem users_of_insertToken {t : Accounts} {kind : TokenKind}
    {id userId : Uuid} {tokenHash : String} {expiresAt : Timestamp}
    (h : s.insertToken kind id userId tokenHash expiresAt = some t) :
    t.users = s.users := by
  obtain ⟨tokens, -, rfl⟩ := insertToken_eq_some h
  exact users_setTokens s kind tokens

/-- Sessions do not change users. -/
theorem keptBySessions_users (P : Table User.id → Prop) :
    KeptBySessions who fun t => P t.users where
  insertToken h _ _ hinsert := by rwa [users_of_insertToken hinsert]
  spend kind id h := by rwa [spend, users_setTokens]
  record _ _ h := h

theorem keptBySessions_active (user : User) :
    KeptBySessions who (·.Active user) :=
  keptBySessions_users fun users =>
    users.find? user.id = some user ∧ user.isActive = true

/-- A session is renewed only for someone who has one. -/
theorem rotate_keeps (hQ : KeptBySessions who Q) (hs : Q s)
    (hwho : ∀ user, s.Live user.id → who user) {refreshToken : String} :
    wp Draw.Admitted (Web.rotate deps refreshToken)
      (Leaves Q fun renewed t => t.Active renewed.1) s := by
  refine leaves_bind (redeem_keeps hQ hs) (fun _ h => h)
    fun userId t ht hlive => ?_
  refine leaves_bind (activeUser_reads userId) (fun _ h => h ▸ ht) ?_
  rintro user t' rfl ⟨huser, rfl⟩
  exact leaves_bind
    (issueTokenPair_keeps (hQ.and (keptBySessions_active user))
      ⟨ht, huser⟩ huser (hwho user hlive)) (fun _ h => h.1) fun _ _ h _ => h

theorem respond_keeps {p : Async ApiError Page}
    (h : wp Draw.Admitted p (Leaves Q fun _ _ => True) s) :
    wp Draw.Admitted (Web.respond p) (Leaves Q fun _ _ => True) s := by
  refine leaves_bind (leaves_attempt h) (fun _ h => h) ?_
  intro result t ht _
  cases result with
  | ok page => exact ⟨ht, trivial⟩
  | error err => cases err <;> exact ⟨ht, trivial⟩

/-- A page behind the login, whatever it does once the user is known. -/
theorem requireSession_keeps {Q' : Accounts → Prop} {cookies : Cookies}
    {path : String} {next : User → Async ApiError Page} (hs : Q s)
    (hQ' : ∀ t, Q t → Q' t)
    (hrotate : ∀ refreshToken, wp Draw.Admitted (Web.rotate deps refreshToken)
      (Leaves Q fun renewed t => t.Active renewed.1) s)
    (hnext : ∀ user t, Q t → t.Active user →
      wp Draw.Admitted (next user) (Leaves Q' fun _ _ => True) t) :
    wp Draw.Admitted (Web.requireSession deps cookies path next)
      (Leaves Q' fun _ _ => True) s := by
  have hrespond : ∀ user t, Q t → t.Active user →
      wp Draw.Admitted (Web.respond (next user))
        (Leaves Q' fun _ _ => True) t :=
    fun user t ht huser => respond_keeps (hnext user t ht huser)
  have hcurrent : wp Draw.Admitted (Web.currentUser deps cookies.access)
      (Leaves (· = s) fun current t => ∀ user,
        current = some user → t.Active user) s := by
    cases cookies.access with
    | none => exact ⟨rfl, fun _ h => by cases h⟩
    | some token =>
        refine leaves_bind (leaves_attempt
          (validUserForAccessToken_reads token))
          (fun _ h => h) fun found t ht huser => ⟨ht, ?_⟩
        intro user hfound
        cases found with
        | ok current => exact huser current rfl user hfound
        | error err => cases hfound
  have hrenewed : wp Draw.Admitted (Web.renewSession deps cookies.refresh)
      (Leaves Q fun renewed t => ∀ r, renewed = some r → t.Active r.1) s := by
    cases cookies.refresh with
    | none => exact ⟨hs, fun _ h => by cases h⟩
    | some token =>
        refine leaves_bind (leaves_attempt (hrotate token)) (fun _ h => h)
          fun found t ht huser => ⟨ht, ?_⟩
        intro r hfound
        cases found with
        | ok renewed =>
            cases hfound
            exact huser r rfl
        | error err => cases hfound
  refine leaves_bind hcurrent (fun _ h => h ▸ hQ' s hs) ?_
  rintro (_ | user) t rfl huser
  · refine leaves_bind hrenewed hQ' ?_
    rintro (_ | ⟨user, accessToken, refreshToken⟩) t' ht' huser'
    · exact ⟨hQ' t' ht', trivial⟩
    · exact leaves_bind (hrespond user t' ht' (huser' _ rfl)) (fun _ h => h)
        fun _ _ h _ => ⟨h, trivial⟩
  · exact leaves_bind (hrespond user t hs (huser user rfl)) (fun _ h => h)
      fun _ _ h _ => ⟨h, trivial⟩

theorem create_keeps (hQ : Kept deps Q) (hs : Q s) {new : NewUser}
    {passwordHash : Option String} :
    wp Draw.Admitted (Users.create deps.collation new passwordHash)
      (Leaves Q fun user t => t.Active user) s := by
  refine leaves_bind
    (R := fun id t => t.users.find? id = some (newUser id new passwordHash))
    (leaves_execute hs ?_) (fun _ h => h) ?_
  · intro i id t hsome
    obtain ⟨t', hinsert, heq⟩ := Option.map_eq_some_iff.mp hsome
    cases heq
    refine ⟨hQ.insertUser hs hinsert, ?_⟩
    obtain ⟨users, husers, rfl⟩ := insertUser_eq_some hinsert
    exact Table.find?_inserted husers
  intro id t ht hrow
  refine leaves_bind (Q := Q)
    (R := fun row t => ∀ user, row = some user → t.Active user)
    (leaves_select ht ?_)
    (fun _ h => h) fun row t' ht' hrow' => leaves_okOr ht' hrow'
  intro user huser
  obtain rfl := Option.some.inj (hrow.symm.trans huser)
  exact ⟨hrow, rfl⟩

theorem audit_keeps (hQ : Kept deps Q) (hs : Q s) (entry : NewAuditLogEntry) :
    wp Draw.Admitted (db (Audit.record entry))
      (Leaves Q fun _ _ => True) s := by
  refine leaves_mapError (leaves_execute hs ?_)
  intro i a t hsome
  obtain ⟨t', hinsert, heq⟩ := Option.map_eq_some_iff.mp hsome
  cases heq
  exact ⟨hQ.insertAuditEntry hs hinsert, trivial⟩

theorem setPasswordHash_keeps (hQ : Kept deps Q) (hs : Q s) (id : Uuid)
    (passwordHash : String) :
    wp Draw.Admitted (db (Users.setPasswordHash id passwordHash))
      (Leaves Q fun _ _ => True) s := by
  refine leaves_mapError (leaves_execute hs ?_)
  rintro i a t ⟨⟩
  exact ⟨hQ.setPasswordHash id passwordHash hs, trivial⟩

theorem sendPasswordResetEmail_keeps (hQ : KeptBySessions anyone Q) (hs : Q s)
    {mailer : Mailer} {email : String} :
    wp Draw.Admitted (sendPasswordResetEmail deps mailer email)
      (Leaves Q fun _ _ => True)
      s := by
  refine leaves_read hs ?_
  cases hfound : s.users.rows.find? fun row =>
    sameText deps.collation row.email email with
  | none => exact ⟨hs, trivial⟩
  | some user =>
      have hrow := Table.find?_of_mem (List.mem_of_find?_eq_some hfound)
      dsimp only
      split
      · exact ⟨hs, trivial⟩
      rename_i hgood
      have hactive : user.isActive = true := by
        cases h : user.isActive <;> simp_all
      refine leaves_bind (createToken_keeps hQ hs ⟨hrow, hactive⟩ trivial)
        (fun _ h => h) ?_
      intro token t ht _
      exact (wp_atomic _ _ _).mpr fun i _ => ⟨hQ.record _ _ ht, trivial⟩

theorem provisionOrLinkUser_keeps (hQ : Kept deps Q) (hs : Q s)
    {identity : AuthenticatedIdentity} :
    wp Draw.Admitted (provisionOrLinkUser deps identity)
      (Leaves Q fun _ _ => True) s := by
  refine leaves_bind (Q := Q) (R := fun _ _ => True)
    (leaves_mapError (leaves_execute hs ?_)) (fun _ h => h)
      fun found s hs _ => ?_
  · intro i found t hsome
    cases hfound : s.bySubject? deps.collation identity.externalIdpSubject with
    | none =>
        simp only [hfound, Option.some.injEq, Prod.mk.injEq] at hsome
        exact ⟨hsome.2 ▸ hs, trivial⟩
    | some user =>
        simp only [hfound, Option.some.injEq, Prod.mk.injEq] at hsome
        exact ⟨hsome.2 ▸ hQ.record _ _ hs, trivial⟩
  split
  · exact ⟨hs, trivial⟩
  refine leaves_read hs ?_
  split
  · split
    · exact hs
    refine leaves_bind (Q := Q) (R := fun _ _ => True) (leaves_mapError ?_)
      (fun _ h => h) fun linked t ht _ => leaves_okOr ht fun _ _ => trivial
    refine leaves_bind (Q := Q) (R := fun _ _ => True) (leaves_execute hs ?_)
      (fun _ h => h) fun _ t ht _ => leaves_select ht trivial
    intro i a t hsome
    obtain ⟨t', hlink, heq⟩ := Option.map_eq_some_iff.mp hsome
    cases heq
    exact ⟨hQ.record _ _ (hQ.linkSubject hs hlink), trivial⟩
  · refine wp_mono (fun x t => ?_) (leaves_mapError (create_keeps hQ hs))
    exact Leaves.mono id fun _ _ _ => trivial

theorem tokenResponse_keeps (hQ : KeptBySessions anyone Q) (hs : Q s)
    {user : User} (huser : s.Active user) :
    wp Draw.Admitted (tokenResponse deps user) (Leaves Q fun _ _ => True) s :=
  leaves_bind (issueTokenPair_keeps hQ hs huser trivial) (fun _ h => h)
    fun _ _ ht _ => ⟨ht, trivial⟩

theorem finishLogin_keeps (hQ : KeptBySessions anyone Q) (hs : Q s)
    {user : Async ApiError User} {next failed : String}
    (huser : wp Draw.Admitted user
      (Leaves (· = s) fun user t => t.Active user) s) :
    wp Draw.Admitted (Web.finishLogin deps user next failed)
      (Leaves Q fun _ _ => True)
      s := by
  have hpair : wp Draw.Admitted (user >>= issueTokenPair deps)
      (Leaves Q fun _ _ => True)
      s := by
    refine leaves_bind huser (fun _ h => h ▸ hs) ?_
    rintro user t rfl huser
    exact issueTokenPair_keeps hQ hs huser trivial
  refine leaves_bind (leaves_attempt hpair) (fun _ h => h) ?_
  intro result t ht _
  cases result <;> exact ⟨ht, trivial⟩

theorem deactivate_keeps (hQ : Kept deps Q) (hs : Q s) {actor : User}
    {id : Uuid} (hactor : s.Active actor) (hadmin : actor.role = .admin) :
    wp Draw.Admitted (Routes.deactivate actor id)
      (Leaves Q fun _ _ => True) s := by
  unfold Routes.deactivate
  split
  · exact hs
  rename_i hself
  have hdeactivated := hQ.deactivate hs hactor hadmin hself
  refine (wp_bind _ _ _ _).mpr
    ((wp_mapError _ _ _ _).mpr ((wp_atomic _ _ _).mpr ?_))
  intro i hi
  rw [show i.fault = .none from hi]
  exact leaves_bind (revokeAllSessions_keeps hQ.toKeptBySessions hdeactivated)
    (fun _ h => h) fun _ t ht _ => audit_keeps hQ ht _

theorem update_keeps (hs : Q s) {id : Uuid} {patch : UpdateUser}
    (h : ∀ t, s.updateUser id patch = some t → Q t) :
    wp Draw.Admitted (db (Users.update id patch))
      (Leaves Q fun _ _ => True) s := by
  refine leaves_mapError (leaves_bind (Q := Q) (R := fun _ _ => True)
    (leaves_execute hs ?_) (fun _ h => h)
      fun _ t ht _ => leaves_select ht trivial)
  intro i a t hsome
  obtain ⟨t', hupdate, heq⟩ := Option.map_eq_some_iff.mp hsome
  cases heq
  exact ⟨h t hupdate, trivial⟩

theorem requireRole_admin {α : Type} {R : α → Accounts → Prop} {user : User}
    {k : Unit → Async ApiError α} (hs : Q s)
    (h : user.role = .admin → wp Draw.Admitted (k ()) (Leaves Q R) s) :
    wp Draw.Admitted (requireRole user [.admin] >>= k) (Leaves Q R) s := by
  unfold requireRole
  by_cases hrole : user.role ∈ [Role.admin]
  · rw [if_pos hrole]
    exact h (List.mem_singleton.mp hrole)
  · rw [if_neg hrole]
    exact hs

theorem requireAdmin_admin {α : Type} {R : α → Accounts → Prop} {user : User}
    {k : Unit → Async ApiError α} (hs : Q s)
    (h : user.role = .admin → wp Draw.Admitted (k ()) (Leaves Q R) s) :
    wp Draw.Admitted (Web.requireAdmin user >>= k) (Leaves Q R) s := by
  unfold Web.requireAdmin
  by_cases hrole : user.role = .admin
  · rw [if_pos hrole]
    exact h hrole
  · rw [if_neg hrole]
    exact hs

end Writes

section Requests

variable {deps : AuthDeps} {Q : Accounts → Prop} {s : Accounts}

theorem login_keeps (hQ : KeptBySessions anyone Q) (hs : Q s)
    {user : Async ApiError User}
    (huser : wp Draw.Admitted user
      (Leaves (· = s) fun user t => t.Active user) s) :
    wp Draw.Admitted (user >>= tokenResponse deps)
      (Leaves Q fun _ _ => True) s := by
  refine leaves_bind huser (fun _ h => h ▸ hs) ?_
  rintro user t rfl huser
  exact tokenResponse_keeps hQ hs huser

theorem activeUser_active (userId : Uuid) :
    wp Draw.Admitted (activeUser userId)
      (Leaves (· = s) fun user t => t.Active user) s := by
  refine wp_mono (fun x t => ?_) (activeUser_reads userId)
  exact Leaves.mono id fun _ _ h => h.1

theorem hashPassword_keeps (hs : Q s) (password : String) :
    wp Draw.Admitted (hashPassword deps password)
      (Leaves Q fun _ _ => True) s :=
  leaves_random fun _ => leaves_okOr hs fun _ _ => trivial

theorem register_keeps (hQ : Kept deps Q) (hs : Q s)
    {email displayName password : String} :
    wp Draw.Admitted (Routes.register deps email displayName password)
      (Leaves Q fun _ _ => True) s := by
  refine leaves_read hs ?_
  split
  · exact hs
  split
  · exact hs
  refine leaves_read hs ?_
  split
  · exact hs
  refine leaves_bind (hashPassword_keeps hs _) (fun _ h => h) ?_
  intro passwordHash t ht _
  exact leaves_bind (leaves_mapError (create_keeps hQ ht)) (fun _ h => h)
    fun user t' ht' huser => tokenResponse_keeps hQ.toKeptBySessions ht' huser

/-- A new password, after which something is done that needs no
more than `Q`. -/
theorem newPassword_keeps {α : Type} (hQ : Kept deps Q) (hs : Q s)
    {userId : Uuid} {newPassword : String} {k : Unit → Async ApiError α}
    (hk : ∀ t, Q t → wp Draw.Admitted (k ()) (Leaves Q fun _ _ => True) t) :
    wp Draw.Admitted
      (hashPassword deps newPassword >>= fun passwordHash =>
        db (Users.setPasswordHash userId passwordHash) >>= k)
      (Leaves Q fun _ _ => True) s := by
  refine leaves_bind (hashPassword_keeps hs _) (fun _ h => h)
    fun passwordHash t ht _ => ?_
  exact leaves_bind (setPasswordHash_keeps hQ ht _ _) (fun _ h => h)
    fun _ t' ht' _ => hk t' ht'

theorem confirmPasswordReset_keeps (hQ : Kept deps Q) (hs : Q s)
    {token newPassword : String} :
    wp Draw.Admitted (Routes.confirmPasswordReset deps token newPassword)
      (Leaves Q fun _ _ => True) s := by
  unfold Routes.confirmPasswordReset
  split
  · exact hs
  refine leaves_bind (redeem_keeps hQ.toKeptBySessions hs) (fun _ h => h) ?_
  exact fun userId t ht _ => newPassword_keeps hQ ht fun t' ht' =>
    revokeAllSessions_keeps hQ.toKeptBySessions (hQ.revokeSessions userId ht')

theorem submitResetPassword_keeps (hQ : Kept deps Q) (hs : Q s)
    {token newPassword : String} :
    wp Draw.Admitted (Web.submitResetPassword deps token newPassword)
      (Leaves Q fun _ _ => True) s := by
  refine leaves_read hs ?_
  split
  · exact ⟨hs, trivial⟩
  refine leaves_bind (leaves_attempt (redeem_keeps hQ.toKeptBySessions hs))
    (fun _ h => h) ?_
  intro result t ht _
  cases result with
  | error err => exact ⟨ht, trivial⟩
  | ok userId =>
      dsimp only
      refine newPassword_keeps hQ ht fun t' ht' => ?_
      exact leaves_bind
        (revokeAllSessions_keeps hQ.toKeptBySessions
        (hQ.revokeSessions userId ht'))
        (fun _ h => h) fun _ _ h _ => ⟨h, trivial⟩

theorem bootstrapAdmin_keeps (hQ : Kept deps Q) (hs : Q s)
    {email password : String} :
    wp Draw.Admitted (bootstrapAdmin deps email password)
      (Leaves Q fun _ _ => True) s := by
  refine leaves_read hs ?_
  split
  · exact ⟨hs, trivial⟩
  refine leaves_read hs ?_
  split
  · exact ⟨hs, trivial⟩
  refine leaves_bind (hashPassword_keeps hs _) (fun _ h => h) ?_
  intro passwordHash t ht _
  exact leaves_bind (leaves_mapError (create_keeps hQ ht)) (fun _ h => h)
    fun _ _ h _ => ⟨h, trivial⟩

theorem createUser_keeps (hQ : Kept deps Q) (hs : Q s) {bearer : Option String}
    {new : NewUser} :
    wp Draw.Admitted (Routes.createUser deps bearer new)
      (Leaves Q fun _ _ => True) s := by
  refine leaves_bind (authUser_reads bearer) (fun _ h => h ▸ hs) ?_
  rintro actor t rfl -
  refine requireRole_admin hs fun _ => ?_
  split
  · exact hs
  have hhash : wp Draw.Admitted (hashOptional deps new.password)
      (Leaves Q fun _ _ => True) t := by
    cases new.password with
    | none => exact ⟨hs, trivial⟩
    | some password =>
        exact leaves_bind (hashPassword_keeps hs password) (fun _ h => h)
          fun _ _ h _ => ⟨h, trivial⟩
  refine leaves_bind hhash (fun _ h => h) fun passwordHash t' ht' _ => ?_
  refine leaves_bind (leaves_mapError (create_keeps hQ ht')) (fun _ h => h) ?_
  intro created t'' ht'' _
  exact leaves_bind (audit_keeps hQ ht'' _) (fun _ h => h) fun _ _ h _ =>
    ⟨h, trivial⟩

theorem createUserPage_keeps (hQ : Kept deps Q) (hs : Q s)
    {form : Web.CreateUserForm} {actor : User} :
    wp Draw.Admitted (Web.createUser deps form actor)
      (Leaves Q fun _ _ => True) s := by
  refine requireAdmin_admin hs fun _ => leaves_require hs fun role _ => ?_
  refine leaves_bind (hashPassword_keeps hs _) (fun _ h => h) ?_
  intro passwordHash t ht _
  refine leaves_bind (leaves_mapError (create_keeps hQ ht)) (fun _ h => h) ?_
  intro created t' ht' _
  exact leaves_bind (audit_keeps hQ ht' _) (fun _ h => h) fun _ _ h _ =>
    ⟨h, trivial⟩

theorem updateUser_keeps (hQ : Kept deps Q) (hs : Q s) {bearer : Option String}
    {id : Uuid} {patch : UpdateUser}
    (h : ∀ t, s.updateUser id patch = some t → Q t) :
    wp Draw.Admitted (Routes.updateUser deps bearer id patch)
      (Leaves Q fun _ _ => True)
      s := by
  refine leaves_bind (authUser_reads bearer) (fun _ h => h ▸ hs) ?_
  rintro actor t rfl -
  refine requireRole_admin hs fun _ => ?_
  refine leaves_bind (update_keeps hs h) (fun _ h => h) fun found t' ht' _ => ?_
  refine leaves_require ht' fun updated _ => ?_
  exact leaves_bind (audit_keeps hQ ht' _) (fun _ h => h) fun _ _ h _ =>
    ⟨h, trivial⟩

theorem updateUserPage_keeps (hQ : Kept deps Q) (hs : Q s) {id : Uuid}
    {form : Web.UpdateUserForm} {actor : User}
    (h : ∀ role, Role.parse form.role = some role → ∀ t,
      s.updateUser id (form.patch deps role) = some t → Q t) :
    wp Draw.Admitted (Web.updateUser deps id form actor)
      (Leaves Q fun _ _ => True) s := by
  refine requireAdmin_admin hs fun _ => leaves_require hs fun role hrole => ?_
  refine leaves_bind (update_keeps hs (h role hrole)) (fun _ h => h)
    fun found t ht _ => ?_
  refine leaves_require ht fun updated _ => ?_
  exact leaves_bind (audit_keeps hQ ht _) (fun _ h => h) fun _ _ h _ =>
    ⟨h, trivial⟩

theorem refresh_keeps (hQ : KeptBySessions anyone Q) (hs : Q s)
    {refreshToken : String} :
    wp Draw.Admitted (Routes.refresh deps refreshToken)
      (Leaves Q fun _ _ => True) s := by
  apply leaves_bind (redeem_keeps hQ hs) (fun _ h => h)
  intro userId t ht _
  exact login_keeps hQ ht (activeUser_active userId)

theorem logout_keeps (hQ : KeptBySessions anyone Q) (hs : Q s)
    {refreshToken : String} :
    wp Draw.Admitted (Routes.logout deps refreshToken)
      (Leaves Q fun _ _ => True) s := by
  apply leaves_bind (leaves_attempt (redeem_keeps hQ hs)) (fun _ h => h)
  intro _ t ht _
  exact ⟨ht, trivial⟩

theorem ssoCallback_keeps (hQ : Kept deps Q) (hs : Q s)
    {identity : AuthenticatedIdentity} :
    wp Draw.Admitted (Routes.ssoCallback deps identity)
      (Leaves Q fun _ _ => True) s := by
  apply leaves_bind (provisionOrLinkUser_keeps hQ hs) (fun _ h => h)
  intro user t ht _
  split
  · exact ht
  · exact ⟨ht, trivial⟩

theorem deactivateUser_keeps (hQ : Kept deps Q) (hs : Q s)
    {bearer : Option String} {id : Uuid} :
    wp Draw.Admitted (Routes.deactivateUser deps bearer id)
      (Leaves Q fun _ _ => True)
      s := by
  apply leaves_bind (authUser_reads bearer) (fun _ h => h ▸ hs)
  rintro actor t rfl hactor
  apply requireRole_admin hs
  intro hadmin
  exact deactivate_keeps hQ hs hactor hadmin

theorem webLogout_keeps (hQ : KeptBySessions anyone Q) (hs : Q s)
    {cookies : Cookies} :
    wp Draw.Admitted (Web.logout deps cookies)
      (Leaves Q fun _ _ => True) s := by
  unfold Web.logout
  cases cookies.refresh with
  | none => exact ⟨hs, trivial⟩
  | some token =>
      apply leaves_bind (leaves_attempt (redeem_keeps hQ hs)) (fun _ h => h)
      intro _ t ht _
      exact ⟨ht, trivial⟩

theorem submitForgotPassword_keeps (hQ : KeptBySessions anyone Q) (hs : Q s)
    {email : String} :
    wp Draw.Admitted (Web.submitForgotPassword deps email)
      (Leaves Q fun _ _ => True)
      s := by
  unfold Web.submitForgotPassword
  cases deps.mailer with
  | none => exact ⟨hs, trivial⟩
  | some mailer =>
      apply leaves_bind (sendPasswordResetEmail_keeps hQ hs) (fun _ h => h)
      intro _ t ht _
      exact leaves_read ht ⟨ht, trivial⟩

theorem deactivateUserPage_keeps (hQ : Kept deps Q) (hs : Q s) {actor : User}
    {id : Uuid} (hactor : s.Active actor) :
    wp Draw.Admitted (Web.deactivateUser id actor)
      (Leaves Q fun _ _ => True) s := by
  apply requireAdmin_admin hs
  intro hadmin
  apply leaves_bind (deactivate_keeps hQ hs hactor hadmin) (fun _ h => h)
  intro _ t ht _
  exact ⟨ht, trivial⟩

/-- What a request keeps that updates no user, and what one keeps that does if
its update keeps it whenever `P` holds before. -/
theorem serve_keeps (hQ : Kept deps Q) (hs : Q s) {P : Accounts → Prop}
    (hP : P s) (req : AccountRequest)
    (hrotate : ∀ refreshToken, wp Draw.Admitted (Web.rotate deps refreshToken)
      (Leaves (fun t => Q t ∧ P t) fun renewed t => t.Active renewed.1) s)
    (hupdate : ∀ id patch, req.update? deps = some (id, patch) →
      ∀ t u, Q t → P t → t.updateUser id patch = some u → Q u) :
    wp Draw.Admitted (req.serve deps) (Leaves Q fun _ _ => True) s := by
  have hsessions := hQ.toKeptBySessions
  have hreply : ∀ {α β : Type} {p : Async ApiError α} {f : α → β},
      wp Draw.Admitted p (Leaves Q fun _ _ => True) s →
        wp Draw.Admitted (p >>= fun a => pure (f a))
          (Leaves Q fun _ _ => True) s := by
    intro α β p f hp
    apply leaves_bind hp (fun _ h => h)
    intro _ t ht _
    exact ⟨ht, trivial⟩
  have hpage : ∀ {cookies : Cookies} {path : String} {next : User →
      Async ApiError Page}, (∀ user t, Q t → P t → t.Active user →
        wp Draw.Admitted (next user) (Leaves Q fun _ _ => True) t) →
      wp Draw.Admitted (Web.requireSession deps cookies path next)
        (Leaves Q fun _ _ => True) s := by
    intro cookies path next h
    apply requireSession_keeps ⟨hs, hP⟩ (fun _ h => h.1) hrotate
    intro user t ht
    exact h user t ht.1 ht.2
  cases req with
  | login email password =>
      exact hreply (login_keeps hsessions hs (authenticateLocal_reads _ _))
  | register email displayName password => exact hreply (register_keeps hQ hs)
  | refresh refreshToken => exact hreply (refresh_keeps hsessions hs)
  | logout refreshToken => exact hreply (logout_keeps hsessions hs)
  | requestPasswordReset email =>
      exact hreply (leaves_require hs
        fun _ _ => sendPasswordResetEmail_keeps hsessions hs)
  | confirmPasswordReset token newPassword =>
      exact hreply (confirmPasswordReset_keeps hQ hs)
  | ssoCallback identity => exact hreply (ssoCallback_keeps hQ hs)
  | ssoToken userId =>
      exact hreply (login_keeps hsessions hs (activeUser_active userId))
  | createUser bearer new => exact hreply (createUser_keeps hQ hs)
  | updateUser bearer id patch =>
      exact hreply (updateUser_keeps hQ hs
        fun t => hupdate id patch rfl s t hs hP)
  | deactivateUser bearer id => exact hreply (deactivateUser_keeps hQ hs)
  | submitLogin email password next =>
      exact hreply (finishLogin_keeps hsessions hs
        (authenticateLocal_reads _ _))
  | ssoComplete userId next =>
      exact hreply (finishLogin_keeps hsessions hs (activeUser_active userId))
  | webLogout cookies => exact hreply (webLogout_keeps hsessions hs)
  | submitForgotPassword email =>
      exact hreply (respond_keeps (submitForgotPassword_keeps hsessions hs))
  | submitResetPassword token newPassword =>
      exact hreply (respond_keeps (submitResetPassword_keeps hQ hs))
  | createUserPage cookies form =>
      exact hreply (hpage fun user t ht _ _ => createUserPage_keeps hQ ht)
  | updateUserPage cookies id form =>
      apply hreply
      apply hpage
      intro user t ht hPt _
      apply updateUserPage_keeps hQ ht
      intro role hrole u
      apply hupdate id (form.patch deps role) _ t u ht hPt
      simp [AccountRequest.update?, hrole]
  | deactivateUserPage cookies id =>
      apply hreply
      apply hpage
      intro user t ht _ hactor
      exact deactivateUserPage_keeps hQ ht hactor
  | page cookies path => exact hreply (hpage fun user t ht _ _ => ⟨ht, trivial⟩)
  | bootstrapAdmin email password => exact hreply (bootstrapAdmin_keeps hQ hs)

/-- What a request keeps whose update, if it has one, keeps it. -/
theorem serve_keeps_of_update (hQ : Kept deps Q) (hs : Q s)
    (req : AccountRequest)
    (hupdate : ∀ id patch, req.update? deps = some (id, patch) → ∀ t u, Q t →
      t.updateUser id patch = some u → Q u) :
    wp Draw.Admitted (req.serve deps) (Leaves Q fun _ _ => True) s := by
  refine serve_keeps hQ hs (P := fun _ => True) trivial req ?_
    fun id patch hreq t u ht _ => hupdate id patch hreq t u ht
  intro refreshToken
  refine wp_mono (fun x t => ?_)
    (rotate_keeps hQ.toKeptBySessions hs fun _ _ => trivial)
  exact Leaves.mono (fun h => ⟨h, trivial⟩) fun _ _ h => h

end Requests

/-- What happens besides the requests: the clock moves on, settings are edited,
and departments come and go, which their users then have no more. -/
structure Drift (s t : Accounts) : Prop where
  now : s.now ≤ t.now
  users : ∀ id,
    (t.users.find? id).map (fun user => { user with departmentId := none }) =
    (s.users.find? id).map fun user => { user with departmentId := none }
  sessions : t.sessions = s.sessions
  passwordResets : t.passwordResets = s.passwordResets
  auditLog : t.auditLog = s.auditLog
  log : t.log = s.log

/-- Two rows are the same apart from the department. -/
theorem eq_of_departmentId {user user' : User}
    (h : { user with departmentId := none } =
      { user' with departmentId := none }) :
    user' = { user with departmentId := user'.departmentId } := by
  cases user
  cases user'
  simp_all

theorem Drift.before {s t : Accounts} (h : s.Drift t) {id : Uuid} {user : User}
    (hfound : t.users.find? id = some user) :
    ∃ departmentId, s.users.find? id = some { user with departmentId } := by
  have husers := h.users id
  rw [hfound] at husers
  obtain ⟨old, hold, heq⟩ := Option.map_eq_some_iff.mp husers.symm
  exact ⟨old.departmentId,
    hold.trans (congrArg some (eq_of_departmentId heq.symm))⟩

theorem Drift.after {s t : Accounts} (h : s.Drift t) {id : Uuid} {user : User}
    (hfound : s.users.find? id = some user) :
    ∃ departmentId, t.users.find? id = some { user with departmentId } := by
  have husers := h.users id
  rw [hfound] at husers
  obtain ⟨new, hnew, heq⟩ := Option.map_eq_some_iff.mp husers
  exact ⟨new.departmentId,
    hnew.trans (congrArg some (eq_of_departmentId heq.symm))⟩

/-- One of the requests that `guard` lets run in this state, without
interruption or fault, or a drift. -/
inductive SerialStep (deps : AuthDeps)
    (guard : Accounts → AccountRequest → Prop) :
    Accounts → Accounts → Prop
  | drift {s t : Accounts} (h : s.Drift t) : SerialStep deps guard s t
  | request {s t : Accounts} {req : AccountRequest}
      {x : Exit ApiError AccountReply} (hguard : guard s req)
      (h : Runs Draw.Admitted (req.serve deps) s x t) :
      SerialStep deps guard s t

/-- Requests served one at a time. -/
abbrev Serial (deps : AuthDeps) (guard : Accounts → AccountRequest → Prop) :
    Accounts → Accounts → Prop :=
  Relation.ReflTransGen (SerialStep deps guard)

end Accounts

end Servcat
