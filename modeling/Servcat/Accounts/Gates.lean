/-
Who may change what of an account.  However requests interleave and whatever
fails, each step that changes the row of a user or issues a token is one that
its request was entitled to take, and entries of the audit log name the admin
whose credentials the request bore.
-/
import Servcat.Accounts.Permits
import Servcat.Atomic.Moments

namespace Servcat

open Atomic Keyed

namespace Accounts

section Sessions

variable {deps : AuthDeps} {visits : Accounts → Prop} {req : AccountRequest}
  {n : Nat}

theorem activeUser_gated (userId : Uuid) :
    Gated deps visits req n (activeUser userId) fun user =>
      user.id = userId ∧ WasActive visits user :=
  .read fun s hs => .ofOption fun user huser => by
    obtain ⟨hactive, hid⟩ := active_of_find? huser
    exact ⟨hid, s, hs, hactive⟩

theorem validUserForAccessToken_gated (token : String) :
    Gated deps visits req n (validUserForAccessToken deps token) fun found =>
      ∀ user,
        found = some user → ∀ cookies : Cookies, cookies.access = some token →
        Signed deps visits cookies user := by
  refine .bind .utcNow ?_
  rintro now ⟨s, hs, rfl⟩
  cases hverified : deps.verifyAccessToken s.now token with
  | none => exact .ok fun _ h => by cases h
  | some claims =>
      refine .read fun t ht => .ok fun user huser cookies htoken => ?_
      obtain ⟨hactive, hid⟩ := active_of_find? huser
      exact .access hs htoken (by rw [hverified, hid]) ⟨t, ht, hactive⟩

theorem authUser_gated (bearer : Option String) :
    Gated deps visits req n (authUser deps bearer)
      (Signed deps visits ⟨bearer, none⟩) :=
  .okOr fun token htoken => .bind (validUserForAccessToken_gated token)
    fun _ hfound =>
    .ofOption fun user huser => hfound user huser _ htoken

theorem requireRole_gated (user : User) :
    Gated deps visits req n (requireRole user [.admin]) fun _ =>
      user.role = .admin := by
  unfold requireRole
  split
  · rename_i hrole
    exact .ok (List.mem_singleton.mp hrole)
  · exact .throw _

theorem requireAdmin_gated (user : User) :
    Gated deps visits req n (Web.requireAdmin user) fun _ =>
      user.role = .admin := by
  unfold Web.requireAdmin
  split
  · rename_i hrole
    exact .ok hrole
  · exact .throw _

theorem hashPassword_gated (password : String) :
    Gated deps visits req n (hashPassword deps password) fun passwordHash =>
      ∃ salt, deps.argon2Hash salt password = some passwordHash :=
  .bind .random fun salt _ => .ofOption fun _ h => ⟨salt, h⟩

theorem hashOptional_gated (password : Option String) :
    Gated deps visits req n (hashOptional deps password) fun _ => True := by
  cases password with
  | none => exact .ok trivial
  | some password =>
      exact .bind (hashPassword_gated password) fun _ _ => .ok trivial

theorem createToken_gated {kind : TokenKind} {userId : Uuid}
    (hentitled : Entitled deps visits req kind userId) (ttl : Nat) :
    Gated deps visits req n (createToken deps kind ttl userId)
      fun _ => True := by
  refine .bind .random fun rawToken _ => .bind .utcNow fun now _ => ?_
  split
  · exact .panic
  · refine .bind (P := fun _ => True) (.db (.execute fun i s a t _ hf => ?_))
      fun _ _ => .ok trivial
    obtain ⟨t', hinsert, heq⟩ := Option.map_eq_some_iff.mp hf
    cases heq
    obtain ⟨tokens, htokens, rfl⟩ := insertToken_eq_some hinsert
    exact ⟨.setTokens kind (.insert htokens hentitled), trivial⟩

theorem issueTokenPair_gated {user : User}
    (hentitled : Entitled deps visits req .refresh user.id) :
    Gated deps visits req n (issueTokenPair deps user) fun _ => True := by
  refine .bind (P := fun _ => True) (.bind .utcNow fun now _ => ?_) fun _ _ =>
    .bind (createToken_gated hentitled _) fun _ _ => .ok trivial
  cases deps.issueAccessToken now user with
  | ok accessToken => exact .ok trivial
  | error err => exact .throw err
  | panicked => exact .panic

theorem tokenResponse_gated {user : User}
    (hentitled : Entitled deps visits req .refresh user.id) :
    Gated deps visits req n (tokenResponse deps user) fun _ => True :=
  .bind (issueTokenPair_gated hentitled) fun _ _ => .ok trivial

theorem since_spent (now : Timestamp) (id : Uuid) (row : IssuedToken) :
    Since row (spent now id row) := by
  unfold spent
  split
  · exact ⟨rfl, rfl, rfl, rfl, fun _ => Option.some_ne_none _⟩
  · exact .refl row

theorem since_revoked (now : Timestamp) (userId : Uuid) (row : IssuedToken) :
    Since row (revoked now userId row) := by
  unfold revoked
  split
  · exact ⟨rfl, rfl, rfl, rfl, fun _ => Option.some_ne_none _⟩
  · exact .refl row

theorem redeem_gated (kind : TokenKind) (invalid : ApiError)
    (rawToken : String) :
    Gated deps visits req n (redeem deps kind invalid rawToken)
      (Granted deps visits kind rawToken) := by
  refine .bind (P := fun found => ∀ token, found = some token →
    ∃ s, visits s ∧ s.valid? kind (deps.sha256Hex rawToken) = some token)
    (.db (.execute fun i s a t hs hf => ?_)) ?_
  · cases hvalid : s.valid? kind (deps.sha256Hex rawToken) with
    | none =>
        simp only [hvalid, Option.some.injEq, Prod.mk.injEq] at hf
        obtain ⟨rfl, rfl⟩ := hf
        exact ⟨.refl s, fun _ h => by cases h⟩
    | some token =>
        simp only [hvalid, Option.some.injEq, Prod.mk.injEq] at hf
        obtain ⟨rfl, rfl⟩ := hf
        exact ⟨.record (.refl s) _ _,
          fun _ h => ⟨s, hs, Option.some.inj h ▸ hvalid⟩⟩
  intro found hfound
  apply Gated.okOr
  intro token htoken
  refine .bind (P := fun _ => True) (.db (.execute fun i s a t _ hf => ?_)) ?_
  · cases hf
    exact ⟨.record (.setTokens kind (.of_map (since_spent _ _) rfl))
      _ _, trivial⟩
  intro _ _
  obtain ⟨s, hs, hvalid⟩ := hfound token htoken
  exact .ok ⟨s, token, hs, hvalid, rfl⟩

theorem revokeAllSessions_gated (userId : Uuid) :
    Gated deps visits req n (revokeAllSessions userId) fun _ => True := by
  refine .db (.execute fun i s a t _ hf => ?_)
  cases hf
  exact ⟨.record (.setTokens .refresh (.of_map (since_revoked _ _) rfl))
    _ _, trivial⟩

theorem rotate_gated {rawToken : String}
    (hreq : req.refreshes? = some rawToken) :
    Gated deps visits req n (Web.rotate deps rawToken) fun renewed =>
      ∀ cookies : Cookies, cookies.refresh = some rawToken →
        Signed deps visits cookies renewed.1 := by
  refine .bind (redeem_gated _ _ _) fun userId hgranted =>
    .bind (activeUser_gated userId) ?_
  rintro user ⟨rfl, huser⟩
  exact .bind (issueTokenPair_gated (.renewal hreq hgranted huser)) fun _ _ =>
    .ok fun _ htoken => .session htoken hgranted huser

theorem respond_gated {p : Async ApiError Page}
    (hp : Gated deps visits req n p fun _ => True) :
    Gated deps visits req n (Web.respond p) fun _ => True := by
  refine .bind hp.attempt fun result _ => ?_
  cases result with
  | ok page => exact .ok trivial
  | error err => cases err <;> exact .ok trivial

/-- A page behind the login is served to a user who is signed in. -/
theorem requireSession_gated {cookies : Cookies} {path : String}
    {next : User → Async ApiError Page}
    (hreq : req.refreshes? = cookies.refresh)
    (hnext : ∀ user, Signed deps visits cookies user →
      Gated deps visits req n (next user) fun _ => True) :
    Gated deps visits req n (Web.requireSession deps cookies path next)
      fun _ => True := by
  have hcurrent : Gated deps visits req n (Web.currentUser deps cookies.access)
      fun current =>
      ∀ user, current = some user → Signed deps visits cookies user := by
    cases haccess : cookies.access with
    | none => exact .ok fun _ h => by cases h
    | some token =>
        refine .bind (validUserForAccessToken_gated token).attempt
          fun found hfound =>
          .ok fun user huser => ?_
        cases found with
        | ok current => exact hfound current rfl user huser cookies haccess
        | error err => cases huser
  have hrenewed : Gated deps visits req n
      (Web.renewSession deps cookies.refresh)
      fun renewed => ∀ r,
        renewed = some r → Signed deps visits cookies r.1 := by
    cases hrefresh : cookies.refresh with
    | none => exact .ok fun _ h => by cases h
    | some token =>
        refine .bind (rotate_gated (hreq.trans hrefresh)).attempt
          fun found hfound => .ok fun r hr => ?_
        cases found with
        | ok renewed =>
            cases hr
            exact hfound r rfl cookies hrefresh
        | error err => cases hr
  refine .bind hcurrent ?_
  rintro (_ | user) huser
  · refine .bind hrenewed ?_
    rintro (_ | ⟨user, accessToken, refreshToken⟩) huser'
    · exact .ok trivial
    · exact .bind (respond_gated (hnext user (huser' _ rfl)))
        fun _ _ => .ok trivial
  · exact .bind (respond_gated (hnext user (huser user rfl)))
      fun _ _ => .ok trivial

theorem authenticateLocal_gated {email password : String}
    (hreq : req.logsIn? = some (email, password)) :
    Gated deps visits req n (authenticateLocal deps email password) fun user =>
      Entitled deps visits req .refresh user.id := by
  refine .read fun s hs => .okOr fun user huser => ?_
  split
  · exact .throw _
  rename_i hactive
  refine .okOr fun passwordHash hhash =>
    .bind (.ofOption fun _ h => h) fun verified hverified => ?_
  cases verified with
  | false => exact .throw _
  | true =>
      refine .ok (.password hreq
        ⟨s, hs, Table.find?_of_mem (List.mem_of_find?_eq_some huser), ?_⟩
        ?_ hhash hverified)
      · simpa using hactive
      · simpa using List.find?_some huser

theorem sendPasswordResetEmail_gated {email : String}
    (hreq : req.forgets? = some email) (mailer : Mailer) :
    Gated deps visits req n (sendPasswordResetEmail deps mailer email)
      fun _ => True := by
  refine .read fun s hs => ?_
  split
  · exact .ok trivial
  rename_i user huser
  split
  · exact .ok trivial
  rename_i hgood
  obtain ⟨hactive, hhash⟩ : user.isActive = true ∧
      user.passwordHash ≠ none := by
    simpa [Option.isNone_iff_eq_none] using hgood
  refine .bind (P := fun _ => True) (createToken_gated ?_ _) fun token _ s =>
    .atomic fun _ t _ _ => ⟨.record (.refl t) _ _, trivial⟩
  exact .forgotten hreq ⟨s, hs,
    Table.find?_of_mem (List.mem_of_find?_eq_some huser), hactive⟩
    (by simpa using List.find?_some huser) hhash

theorem finishLogin_gated {user : Async ApiError User} {next failed : String}
    (huser : Gated deps visits req n user
      fun user => Entitled deps visits req .refresh user.id) :
    Gated deps visits req n (Web.finishLogin deps user next failed)
      fun _ => True := by
  refine .bind (huser.bind fun user => issueTokenPair_gated).attempt
    fun result _ => ?_
  cases result <;> exact .ok trivial

end Sessions

section Requests

variable {deps : AuthDeps} {visits : Accounts → Prop} {req : AccountRequest}
  {n : Nat}

theorem setPasswordHash_gated {token newPassword : String}
    (hreq : req.resets? = some (token, newPassword)) {userId : Uuid}
    (hgranted : Granted deps visits .passwordReset token userId)
    {passwordHash : String}
    (hhash : ∃ salt, deps.argon2Hash salt newPassword = some passwordHash) :
    Gated deps visits req n
      (Accounts.db (Users.setPasswordHash userId passwordHash))
      fun _ => True := by
  obtain ⟨salt, hhash⟩ := hhash
  refine .db (.execute fun i t a u _ hf => ?_)
  cases hf
  refine ⟨.modify fun user hid => ?_, trivial⟩
  subst hid
  exact .reset hreq hgranted hhash

theorem link_gated {identity : AuthenticatedIdentity}
    (hreq : req = .ssoCallback identity) {user : User} {s : Accounts}
    (hs : visits s) (huser : s.users.rows.find?
      (fun row => sameText deps.collation row.email identity.email) = some user)
    (hunlinked : ¬user.externalIdpSubject.isSome) :
    Gated deps visits req n (Users.linkExternalIdpSubject deps.collation user.id
      identity.externalIdpSubject) fun _ => True := by
  refine .bind (P := fun _ => True) (.execute fun i t a u _ hf => ?_) fun _ _ =>
    .select fun _ _ => trivial
  obtain ⟨u', hlink, heq⟩ := Option.map_eq_some_iff.mp hf
  cases heq
  obtain rfl := linkSubject_eq_some hlink
  refine ⟨.record (.modify fun row hid => ?_) _ _, trivial⟩
  have hemail : sameText deps.collation user.email identity.email = true := by
    simpa using List.find?_some huser
  refine .link hreq hs ?_ hemail (Option.not_isSome_iff_eq_none.mp hunlinked)
  rw [hid]
  exact Table.find?_of_mem (List.mem_of_find?_eq_some huser)

theorem getBySubject_gated (subject : String) :
    Gated deps visits req n
      (Accounts.db (Users.getByExternalIdpSubject deps.collation
      subject)) fun _ => True := by
  refine .db (.execute fun i s a t _ hf => ?_)
  cases hfound : s.bySubject? deps.collation subject with
  | none =>
      simp only [hfound, Option.some.injEq, Prod.mk.injEq] at hf
      obtain ⟨rfl, rfl⟩ := hf
      exact ⟨.refl s, trivial⟩
  | some user =>
      simp only [hfound, Option.some.injEq, Prod.mk.injEq] at hf
      obtain ⟨rfl, rfl⟩ := hf
      exact ⟨.record (.refl s) _ _, trivial⟩

theorem provisionOrLinkUser_gated {identity : AuthenticatedIdentity}
    (hreq : req = .ssoCallback identity) :
    Gated deps visits req n (provisionOrLinkUser deps identity)
      fun _ => True := by
  apply Gated.bind (getBySubject_gated _)
  intro found _
  cases found with
  | some user => exact .ok trivial
  | none =>
      apply Gated.read
      intro s hs
      split
      · rename_i user huser
        split
        · exact .throw _
        · rename_i hunlinked
          apply Gated.bind (.db (link_gated hreq hs huser hunlinked))
          intro linked _
          exact .ofOption fun _ _ => trivial
      · refine .db (.mono (.create fun id => ?_) fun _ _ => trivial)
        exact .provision hreq rfl rfl rfl

theorem register_gated (email displayName password : String) :
    Gated deps visits (.register email displayName password) n
      (Routes.register deps email displayName password) fun _ => True := by
  apply Gated.read
  intro s hs
  split
  · exact .throw _
  rename_i hallowed
  split
  · exact .throw _
  apply Gated.read
  intro t ht
  split
  · exact .throw _
  apply Gated.bind (hashPassword_gated password)
  intro passwordHash _
  refine .bind (.db (.create fun id => ?_)) ?_
  · exact .register rfl hs (by simpa using hallowed) rfl rfl
  rintro user ⟨u, v, hu, hmade⟩
  exact tokenResponse_gated (.registered rfl hu hmade rfl)

theorem bootstrapAdmin_gated (email password : String) :
    Gated deps visits (.bootstrapAdmin email password) n
      (bootstrapAdmin deps email password) fun _ => True := by
  apply Gated.read
  intro s hs
  split
  · exact .ok trivial
  apply Gated.read
  intro t ht
  split
  · exact .ok trivial
  rename_i hadmin
  have hnone : ∀ u ∈ t.users.rows, u.role ≠ .admin := by
    intro u hu hrole
    apply hadmin
    simp only [Bool.not_eq_true', List.all_eq_false]
    refine ⟨u, (List.mem_insertionSort _).mpr
      (List.mem_filter.mpr ⟨hu, ?_⟩), ?_⟩
    · simp
    · simp [hrole]
  apply Gated.bind (hashPassword_gated password)
  intro passwordHash _
  refine .bind (.db (.create fun id => ?_)) ?_
  · exact .bootstrap rfl ht hnone rfl
  intro user _
  exact .ok trivial

theorem createUser_gated (bearer : Option String) (new : NewUser) :
    Gated deps visits (.createUser bearer new) n
      (Routes.createUser deps bearer new) fun _ => True := by
  apply Gated.bind (authUser_gated bearer)
  intro actor hsigned
  apply Gated.bind (requireRole_gated actor)
  intro _ hrole
  have hactor : ByAdmin deps visits (.createUser bearer new) actor :=
    ⟨hsigned, hrole, hsigned.isActive⟩
  split
  · exact .throw _
  apply Gated.bind (hashOptional_gated new.password)
  intro passwordHash _
  refine .bind (.db (.create fun id => ?_)) ?_
  · exact .create hactor rfl
  intro created _
  apply Gated.bind (.audit hactor rfl)
  intro _ _
  exact .ok trivial

theorem createUserPage_gated {cookies : Cookies} {form : Web.CreateUserForm}
    {actor : User} (hsigned : Signed deps visits cookies actor) :
    Gated deps visits (.createUserPage cookies form) n
      (Web.createUser deps form actor) fun _ => True := by
  apply Gated.bind (requireAdmin_gated actor)
  intro _ hrole
  have hactor : ByAdmin deps visits (.createUserPage cookies form) actor :=
    ⟨hsigned, hrole, hsigned.isActive⟩
  apply Gated.okOr
  intro role hparse
  have hcreates : (AccountRequest.createUserPage cookies form).creates? =
      some (form.email, role) :=
    congrArg (Option.map fun role => (form.email, role)) hparse
  apply Gated.bind (hashPassword_gated form.password)
  intro passwordHash _
  refine .bind (.db (.create fun id => ?_)) ?_
  · exact .create hactor hcreates
  intro created _
  apply Gated.bind (.audit hactor rfl)
  intro _ _
  exact .ok trivial

theorem update_gated {actor : User} (hactor : ByAdmin deps visits req actor)
    {id : Uuid} {patch : UpdateUser}
    (hreq : req.update? deps = some (id, patch)) :
    Gated deps visits req n (Accounts.db (Users.update id patch))
      fun _ => True := by
  refine .db (.bind (P := fun _ => True) (.execute fun i s a t _ hf => ?_) ?_)
  · obtain ⟨t', hupdate, heq⟩ := Option.map_eq_some_iff.mp hf
    cases heq
    obtain rfl := updateUser_eq_some hupdate
    refine ⟨.modify fun user hid => ?_, trivial⟩
    subst hid
    exact .update hactor hreq
  · intro _ _
    exact .select fun _ _ => trivial

theorem deactivate_gated {actor : User} (hactor : ByAdmin deps visits req actor)
    {id : Uuid} (hreq : req.deactivates? = some id) :
    Gated deps visits req n (Routes.deactivate actor id) fun _ => True := by
  unfold Routes.deactivate
  split
  · exact .throw _
  rename_i hother
  refine .bind (P := fun _ => True) (.db (.execute fun i s a t _ hf => ?_)) ?_
  · cases hf
    refine ⟨Permits.modify fun user hid => ?_, trivial⟩
    subst hid
    exact .deactivate hactor hreq hother
  intro _ _
  apply Gated.bind (revokeAllSessions_gated id)
  intro _ _
  exact .audit hactor rfl

end Requests

section Handlers

variable {deps : AuthDeps} {visits : Accounts → Prop} {n : Nat}

theorem login_gated (email password : String) :
    Gated deps visits (.login email password) n
      (Routes.login deps email password) fun _ => True := by
  apply Gated.bind (authenticateLocal_gated rfl)
  intro user hentitled
  exact tokenResponse_gated hentitled

theorem refresh_gated (refreshToken : String) :
    Gated deps visits (.refresh refreshToken) n
      (Routes.refresh deps refreshToken) fun _ => True := by
  apply Gated.bind (redeem_gated _ _ _)
  intro userId hgranted
  apply Gated.bind (activeUser_gated userId)
  rintro user ⟨rfl, huser⟩
  exact tokenResponse_gated (.renewal rfl hgranted huser)

theorem logout_gated (refreshToken : String) :
    Gated deps visits (.logout refreshToken) n (Routes.logout deps refreshToken)
      fun _ => True := by
  apply Gated.bind (redeem_gated _ _ _).attempt
  intro result _
  exact .ok trivial

theorem requestPasswordReset_gated (email : String) :
    Gated deps visits (.requestPasswordReset email) n
      (Routes.requestPasswordReset deps email) fun _ => True := by
  apply Gated.okOr
  intro mailer _
  exact sendPasswordResetEmail_gated rfl mailer

theorem confirmPasswordReset_gated (token newPassword : String) :
    Gated deps visits (.confirmPasswordReset token newPassword) n
      (Routes.confirmPasswordReset deps token newPassword) fun _ => True := by
  unfold Routes.confirmPasswordReset
  split
  · exact .throw _
  · apply Gated.bind (redeem_gated _ _ _)
    intro userId hgranted
    apply Gated.bind (hashPassword_gated newPassword)
    intro passwordHash hhash
    apply Gated.bind (setPasswordHash_gated rfl hgranted hhash)
    intro _ _
    exact revokeAllSessions_gated userId

theorem ssoCallback_gated (identity : AuthenticatedIdentity) :
    Gated deps visits (.ssoCallback identity) n
      (Routes.ssoCallback deps identity) fun _ => True := by
  apply Gated.bind (provisionOrLinkUser_gated rfl)
  intro user _
  split
  · exact .throw _
  · exact .ok trivial

theorem ssoToken_gated (userId : Uuid) :
    Gated deps visits (.ssoToken userId) n (Routes.ssoToken deps userId)
      fun _ => True := by
  apply Gated.bind (activeUser_gated userId)
  rintro user ⟨rfl, huser⟩
  exact tokenResponse_gated (.handoff rfl huser)

theorem updateUser_gated (bearer : Option String) (id : Uuid)
    (patch : UpdateUser) :
    Gated deps visits (.updateUser bearer id patch) n
      (Routes.updateUser deps bearer id patch) fun _ => True := by
  apply Gated.bind (authUser_gated bearer)
  intro actor hsigned
  apply Gated.bind (requireRole_gated actor)
  intro _ hrole
  have hactor : ByAdmin deps visits (.updateUser bearer id patch) actor :=
    ⟨hsigned, hrole, hsigned.isActive⟩
  apply Gated.bind (update_gated hactor rfl)
  intro found _
  apply Gated.okOr
  intro updated _
  apply Gated.bind (.audit hactor rfl)
  intro _ _
  exact .ok trivial

theorem deactivateUser_gated (bearer : Option String) (id : Uuid) :
    Gated deps visits (.deactivateUser bearer id) n
      (Routes.deactivateUser deps bearer id) fun _ => True := by
  apply Gated.bind (authUser_gated bearer)
  intro actor hsigned
  apply Gated.bind (requireRole_gated actor)
  intro _ hrole
  exact deactivate_gated ⟨hsigned, hrole, hsigned.isActive⟩ rfl

theorem submitLogin_gated (email password : String) (next : Option String) :
    Gated deps visits (.submitLogin email password next) n
      (Web.submitLogin deps email password next) fun _ => True := by
  apply finishLogin_gated
  exact authenticateLocal_gated rfl

theorem ssoComplete_gated (userId : Uuid) (next : Option String) :
    Gated deps visits (.ssoComplete userId next) n
      (Web.ssoComplete deps userId next) fun _ => True := by
  apply finishLogin_gated
  apply (activeUser_gated userId).mono
  rintro user ⟨rfl, huser⟩
  exact .handoff rfl huser

theorem webLogout_gated (cookies : Cookies) :
    Gated deps visits (.webLogout cookies) n (Web.logout deps cookies)
      fun _ => True := by
  unfold Web.logout
  cases cookies.refresh with
  | none => exact .ok trivial
  | some token =>
      apply Gated.bind (redeem_gated _ _ _).attempt
      intro result _
      exact .ok trivial

theorem submitForgotPassword_gated (email : String) :
    Gated deps visits (.submitForgotPassword email) n
      (Web.submitForgotPassword deps email) fun _ => True := by
  unfold Web.submitForgotPassword
  cases deps.mailer with
  | none => exact .ok trivial
  | some mailer =>
      apply Gated.bind (sendPasswordResetEmail_gated rfl mailer)
      intro _ _
      apply Gated.read
      intro s hs
      exact .ok trivial

theorem submitResetPassword_gated (token newPassword : String) :
    Gated deps visits (.submitResetPassword token newPassword) n
      (Web.submitResetPassword deps token newPassword) fun _ => True := by
  apply Gated.read
  intro s hs
  split
  · exact .ok trivial
  apply Gated.bind (redeem_gated _ _ _).attempt
  intro result hgranted
  cases result with
  | error err => exact .ok trivial
  | ok userId =>
      apply Gated.bind (hashPassword_gated newPassword)
      intro passwordHash hhash
      apply Gated.bind (setPasswordHash_gated rfl (hgranted userId rfl) hhash)
      intro _ _
      apply Gated.bind (revokeAllSessions_gated userId)
      intro _ _
      exact .ok trivial

theorem updateUserPage_gated {cookies : Cookies} {id : Uuid}
    {form : Web.UpdateUserForm} {actor : User}
    (hsigned : Signed deps visits cookies actor) :
    Gated deps visits (.updateUserPage cookies id form) n
      (Web.updateUser deps id form actor) fun _ => True := by
  apply Gated.bind (requireAdmin_gated actor)
  intro _ hrole
  have hactor : ByAdmin deps visits (.updateUserPage cookies id form) actor :=
    ⟨hsigned, hrole, hsigned.isActive⟩
  apply Gated.okOr
  intro role hparse
  have hupdate : (AccountRequest.updateUserPage cookies id form).update? deps =
      some (id, form.patch deps role) :=
    congrArg (Option.map fun role => (id, form.patch deps role)) hparse
  apply Gated.bind (update_gated hactor hupdate)
  intro found _
  apply Gated.okOr
  intro updated _
  apply Gated.bind (.audit hactor rfl)
  intro _ _
  exact .ok trivial

theorem deactivateUserPage_gated {cookies : Cookies} {id : Uuid} {actor : User}
    (hsigned : Signed deps visits cookies actor) :
    Gated deps visits (.deactivateUserPage cookies id) n
      (Web.deactivateUser id actor) fun _ => True := by
  apply Gated.bind (requireAdmin_gated actor)
  intro _ hrole
  have hactor : ByAdmin deps visits (.deactivateUserPage cookies id) actor :=
    ⟨hsigned, hrole, hsigned.isActive⟩
  apply Gated.bind (deactivate_gated hactor rfl)
  intro _ _
  exact .ok trivial

end Handlers

/-- No request takes a step that it is not entitled to. -/
theorem serve_gated (deps : AuthDeps) (visits : Accounts → Prop)
    (req : AccountRequest) (n : Nat) :
    Gated deps visits req n (req.serve deps) fun _ => True := by
  cases req with
  | login email password => exact (login_gated email password).reply
  | register email displayName password =>
      exact (register_gated email displayName password).reply
  | refresh refreshToken => exact (refresh_gated refreshToken).reply
  | logout refreshToken => exact (logout_gated refreshToken).reply
  | requestPasswordReset email => exact (requestPasswordReset_gated email).reply
  | confirmPasswordReset token newPassword =>
      exact (confirmPasswordReset_gated token newPassword).reply
  | ssoCallback identity => exact (ssoCallback_gated identity).reply
  | ssoToken userId => exact (ssoToken_gated userId).reply
  | createUser bearer new => exact (createUser_gated bearer new).reply
  | updateUser bearer id patch => exact (updateUser_gated bearer id patch).reply
  | deactivateUser bearer id => exact (deactivateUser_gated bearer id).reply
  | submitLogin email password next =>
      exact (submitLogin_gated email password next).reply
  | ssoComplete userId next => exact (ssoComplete_gated userId next).reply
  | webLogout cookies => exact (webLogout_gated cookies).reply
  | submitForgotPassword email =>
      exact (respond_gated (submitForgotPassword_gated email)).reply
  | submitResetPassword token newPassword =>
      exact (respond_gated (submitResetPassword_gated token newPassword)).reply
  | createUserPage cookies form =>
      refine (requireSession_gated rfl ?_).reply
      intro actor hsigned
      exact createUserPage_gated hsigned
  | updateUserPage cookies id form =>
      refine (requireSession_gated rfl ?_).reply
      intro actor hsigned
      exact updateUserPage_gated hsigned
  | deactivateUserPage cookies id =>
      refine (requireSession_gated rfl ?_).reply
      intro actor hsigned
      exact deactivateUserPage_gated hsigned
  | page cookies path =>
      refine (requireSession_gated rfl ?_).reply
      intro actor hsigned
      exact .ok trivial
  | bootstrapAdmin email password =>
      exact (bootstrapAdmin_gated email password).reply

/-- The discipline of all requests, in runs whose threads find such states. -/
def gates (deps : AuthDeps) (visits : Nat → Accounts → Prop) :
    Discipline (server deps) where
  visits := visits
  inv _ := True
  rely _ _ := True
  may n := Permits deps (visits n)
  rely_refl _ := trivial
  rely_trans _ _ _ _ _ := trivial
  drift _ _ _ _ := ⟨trivial, trivial⟩
  step _ _ _ _ _ _ := ⟨trivial, trivial⟩
  abides n req s := serve_gated deps (visits n) req n s

/-- Whatever the requests are and however they interleave, each step is one that
its request may take, given what its thread has found. -/
theorem reaches_permits {deps : AuthDeps}
    {c d : Config Draw Accounts AccountRequest ApiError AccountReply}
    {s : Accounts} {moments : List (Nat × Accounts)}
    (hrun : Timed (server deps) .free ⟨s, []⟩ moments c) {n : Nat}
    {req : AccountRequest} (hstep : StepOf (server deps) .free n req c d) :
    Permits deps (Met ((n, c.state) :: moments) n) req c.state d.state := by
  let found : Nat → Accounts → Prop := Met ((n, c.state) :: moments)
  have hreach : Reaches (server deps) (Regime.free.during found) ⟨s, []⟩ c :=
    hrun.during fun m t hmet => hmet.later _
  have hstart := (gates deps found).at_nil (s := s) trivial
  have hat : (gates deps found).At c :=
    hstart.reaches hreach fun m t u hallowed => hallowed.2
  have hnow : found n c.state := List.mem_cons_self
  exact hat.may hnow hstep

/-- A step changes the row of a user only as its request may, and adds to the
audit log only in the name of an admin. -/
theorem account_changes_gated {deps : AuthDeps}
    {c d : Config Draw Accounts AccountRequest ApiError AccountReply}
    {s : Accounts} {moments : List (Nat × Accounts)}
    (hrun : Timed (server deps) .free ⟨s, []⟩ moments c) {n : Nat}
    {req : AccountRequest} (hstep : StepOf (server deps) .free n req c d) :
    (∀ id, Change deps (Met ((n, c.state) :: moments) n) req
      (c.state.users.find? id) (d.state.users.find? id)) ∧
    (d.state.auditLog = c.state.auditLog ∨ ∃ id entry actor,
      d.state.auditLog = c.state.auditLog ++ [(id, entry)] ∧
      entry.actorUserId = some (User.id actor) ∧
      ByAdmin deps (Met ((n, c.state) :: moments) n) req actor) := by
  have h := reaches_permits hrun hstep
  exact ⟨h.users, h.auditLog⟩

namespace Sample

theorem twoUsers_isSome : twoUsers.isSome = true := by decide

/-- The admin is about to make an admin of the other user. -/
def promoting :
    Option (Config Draw Accounts AccountRequest ApiError AccountReply) :=
  (server deps).play .free ⟨twoUsers.get twoUsers_isSome, []⟩
    (.arrive promote.1 :: steps 0 40 2)

def promoted (c : Config Draw Accounts AccountRequest ApiError AccountReply) :
    Option (Config Draw Accounts AccountRequest ApiError AccountReply) :=
  (server deps).act .free c (.run 0 ⟨⟨0, id 42, .none⟩, "42"⟩)

end Sample

theorem account_changes_gated_promoted :
    let s := Sample.twoUsers.get (by decide)
    let c := Sample.promoting.get (by decide)
    let d := (Sample.promoted c).get (by decide)
    (c.state.users.find? (Sample.id 13)).map User.role = some .requester ∧
    (d.state.users.find? (Sample.id 13)).map User.role = some .admin ∧
    ∃ moments, Timed (server Sample.deps) .free ⟨s, []⟩ moments c ∧
      Change Sample.deps (Met ((0, c.state) :: moments) 0) Sample.promote.1
        (c.state.users.find? (Sample.id 13))
          (d.state.users.find? (Sample.id 13)) := by
  intro s c d
  have hstep : StepOf (server Sample.deps) .free 0 Sample.promote.1 c d :=
    System.act_stepOf (Option.some_get _).symm rfl
  have hreach : Reaches (server Sample.deps) .free ⟨s, []⟩ c :=
    System.play_reaches (Option.some_get _).symm
  obtain ⟨moments, hrun⟩ := hreach.timed
  have h := account_changes_gated hrun hstep
  exact ⟨rfl, rfl, moments, hrun, h.1 (Sample.id 13)⟩

end Accounts

end Servcat
