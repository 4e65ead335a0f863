/-
Users who are not active have no session: which requests keep it so, and that a
session once revoked is never good again.
-/
import Servcat.Accounts.Sample

namespace Servcat

open Atomic Keyed

namespace Accounts

/-- The user exists and is not active. -/
def Inactive (s : Accounts) (id : Uuid) : Prop :=
  ∃ user, s.users.find? id = some user ∧ user.isActive = false

/-- Who is not active has no session that is not revoked. -/
def Revoked (s : Accounts) : Prop :=
  ∀ id, s.Inactive id → ¬s.Live id

/-- There is a session with this hash, and it is revoked. -/
def Spent (s : Accounts) (tokenHash : String) : Prop :=
  ∃ session ∈ s.sessions.rows, session.tokenHash = tokenHash ∧
    session.spentAt ≠ none

section Writes

variable {s t : Accounts}

theorem Spent.revokeSessions {tokenHash : String} (h : s.Spent tokenHash)
    (userId : Uuid) : (s.revokeSessions userId).Spent tokenHash := by
  obtain ⟨session, hsession, hhash, hspent⟩ := h
  refine ⟨_, List.mem_map_of_mem hsession, ?_, ?_⟩
  · exact ((revoked_keeps s.now userId).index session).trans hhash
  · unfold revoked
    split
    · exact Option.some_ne_none _
    · exact hspent

theorem Revoked.of (h : s.Revoked)
    (hinactive : ∀ id, t.Inactive id → s.Inactive id)
    (hlive : ∀ id, t.Live id → s.Live id) : t.Revoked :=
  fun id hid hsession => h id (hinactive id hid) (hlive id hsession)

theorem live_spend {kind : TokenKind} {id userId : Uuid}
    (h : (s.spend kind id).Live userId) : s.Live userId := by
  cases kind with
  | passwordReset => exact h
  | refresh =>
      obtain ⟨session, hsession, huser, hlive⟩ := h
      obtain ⟨old, hold, rfl⟩ := List.mem_map.mp hsession
      unfold spent at huser hlive
      split at hlive
      · cases hlive
      · rename_i hne
        rw [if_neg hne] at huser
        exact ⟨old, hold, huser, hlive⟩

theorem live_revokeSessions {id userId : Uuid}
    (h : (s.revokeSessions id).Live userId) :
    userId ≠ id ∧ s.Live userId := by
  obtain ⟨session, hsession, huser, hlive⟩ := h
  obtain ⟨old, hold, rfl⟩ := List.mem_map.mp hsession
  unfold revoked at huser hlive
  split at hlive
  · cases hlive
  · rename_i hne
    rw [if_neg hne] at huser
    refine ⟨?_, old, hold, huser, hlive⟩
    rintro rfl
    exact hne ⟨huser, hlive⟩

/-- The session that is inserted is the only one that is new. -/
theorem live_insertToken {kind : TokenKind} {id userId userId' : Uuid}
    {tokenHash : String} {expiresAt : Timestamp}
    (hinsert : s.insertToken kind id userId tokenHash expiresAt = some t)
    (h : t.Live userId') : userId' = userId ∨ s.Live userId' := by
  obtain ⟨tokens, htokens, rfl⟩ := insertToken_eq_some hinsert
  obtain ⟨session, hsession, huser, hlive⟩ := h
  cases kind with
  | passwordReset => exact .inr ⟨session, hsession, huser, hlive⟩
  | refresh =>
      rcases (Indexed.mem_insert htokens).mp hsession with hold | rfl
      · exact .inr ⟨session, hold, huser, hlive⟩
      · exact .inl huser.symm

/-- A change of a user's row that leaves `is_active` as it is. -/
theorem inactive_modify {k : Uuid} (f : User → User)
    {hf : ∀ row, (f row).id = row.id}
    (hactive : ∀ row, (f row).isActive = row.isActive) {id : Uuid}
    (h : Inactive { s with users := s.users.modify k f hf } id) :
    s.Inactive id := by
  obtain ⟨user, hfound, hinactive⟩ := h
  rw [Table.find?_modify] at hfound
  split at hfound
  · obtain ⟨old, hold, rfl⟩ := Option.map_eq_some_iff.mp hfound
    exact ⟨old, hold, (hactive old).symm.trans hinactive⟩
  · exact ⟨user, hfound, hinactive⟩

theorem inactive_insertUser {collation : String → String → Bool} {id : Uuid}
    {new : NewUser} {passwordHash : Option String}
    (hinsert : s.insertUser collation id new passwordHash = some t) {id' : Uuid}
    (h : t.Inactive id') : s.Inactive id' := by
  obtain ⟨users, husers, rfl⟩ := insertUser_eq_some hinsert
  obtain ⟨user, hfound, hinactive⟩ := h
  rw [Table.find?_insert husers] at hfound
  split at hfound
  · cases hfound
    cases hinactive
  · exact ⟨user, hfound, hinactive⟩

theorem inactive_linkSubject {collation : String → String → Bool} {id : Uuid}
    {subject : String} (hlink : s.linkSubject collation id subject = some t)
    {id' : Uuid} (h : t.Inactive id') : s.Inactive id' := by
  obtain rfl := linkSubject_eq_some hlink
  exact inactive_modify
    (fun row => { row with externalIdpSubject := some subject })
    (fun _ => rfl) h

theorem inactive_deactivateUser {id id' : Uuid}
    (h : (s.deactivateUser id).Inactive id') :
    id' = id ∨ s.Inactive id' := by
  obtain ⟨user, hfound, hinactive⟩ := h
  rw [find?_deactivateUser] at hfound
  split at hfound
  · exact .inl ‹_›
  · exact .inr ⟨user, hfound, hinactive⟩

/-- Only an update that sets `is_active` to false makes a user inactive. -/
theorem inactive_updateUser {id id' : Uuid} {patch : UpdateUser}
    (hupdate : s.updateUser id patch = some t) (h : t.Inactive id') :
    s.Inactive id' ∨ id' = id ∧ patch.isActive = some false := by
  obtain rfl := updateUser_eq_some hupdate
  obtain ⟨user, hfound, hinactive⟩ := h
  rw [Table.find?_modify] at hfound
  split at hfound
  rotate_left
  · exact .inl ⟨user, hfound, hinactive⟩
  obtain ⟨old, hold, rfl⟩ := Option.map_eq_some_iff.mp hfound
  have hpatched : patch.isActive.getD old.isActive = false := hinactive
  cases hpatch : patch.isActive with
  | none =>
      rw [hpatch] at hpatched
      exact .inl ⟨old, hold, hpatched⟩
  | some isActive =>
      rw [hpatch] at hpatched
      obtain rfl : isActive = false := hpatched
      exact .inr ⟨‹_›, rfl⟩

end Writes

theorem kept_revoked (deps : AuthDeps) : Kept deps Revoked where
  insertToken := by
    intro s t kind id user tokenHash expiresAt hs huser _ hinsert id'
      hinactive hlive
    obtain ⟨other, hother, hfalse⟩ := hinactive
    rw [users_of_insertToken hinsert] at hother
    rcases live_insertToken hinsert hlive with rfl | hlive
    · obtain rfl := Option.some.inj (huser.1.symm.trans hother)
      cases huser.2.symm.trans hfalse
    · exact hs id' ⟨other, hother, hfalse⟩ hlive
  spend {s} kind id hs := by
    refine hs.of (fun id' h => ?_) fun _ => live_spend
    rwa [Inactive, spend, users_setTokens] at h
  record _ _ hs := hs
  insertUser hs hinsert :=
    hs.of (fun _ => inactive_insertUser hinsert) fun id h => by
      obtain ⟨users, -, rfl⟩ := insertUser_eq_some hinsert
      exact h
  linkSubject hs hlink :=
    hs.of (fun _ => inactive_linkSubject hlink) fun id h => by
      obtain rfl := linkSubject_eq_some hlink
      exact h
  setPasswordHash _ passwordHash hs :=
    hs.of (fun _ => inactive_modify
      (fun row => { row with passwordHash := some passwordHash }) fun _ => rfl)
        fun _ h => h
  revokeSessions _ hs :=
    hs.of (fun _ h => h) fun _ h => (live_revokeSessions h).2
  insertAuditEntry hs hinsert := by
    obtain rfl := insertAuditEntry_eq_some hinsert
    exact hs
  deactivate hs _ _ _ := by
    intro id' hinactive hlive
    obtain ⟨hne, hlive⟩ := live_revokeSessions hlive
    rcases inactive_deactivateUser hinactive with rfl | hinactive
    · exact hne rfl
    · exact hs id' hinactive hlive

theorem kept_spent (deps : AuthDeps) (tokenHash : String) :
    Kept deps (·.Spent tokenHash) where
  insertToken := by
    rintro s t kind id user tokenHash' expiresAt ⟨session, hsession, hspent⟩
      _ _ hinsert
    obtain ⟨tokens, htokens, rfl⟩ := insertToken_eq_some hinsert
    cases kind with
    | passwordReset => exact ⟨session, hsession, hspent⟩
    | refresh =>
        exact ⟨session, (Indexed.mem_insert htokens).mpr
          (.inl hsession), hspent⟩
  spend := by
    rintro s kind id ⟨session, hsession, hhash, hspent⟩
    cases kind with
    | passwordReset => exact ⟨session, hsession, hhash, hspent⟩
    | refresh =>
        refine ⟨_, List.mem_map_of_mem hsession, ?_, ?_⟩
        · exact ((spent_keeps s.now id).index session).trans hhash
        · unfold spent
          split
          · exact Option.some_ne_none _
          · exact hspent
  record _ _ h := h
  insertUser h hinsert := by
    obtain ⟨users, -, rfl⟩ := insertUser_eq_some hinsert
    exact h
  linkSubject h hlink := by
    obtain rfl := linkSubject_eq_some hlink
    exact h
  setPasswordHash _ _ h := h
  revokeSessions userId h := h.revokeSessions userId
  insertAuditEntry h hinsert := by
    obtain rfl := insertAuditEntry_eq_some hinsert
    exact h
  deactivate h _ _ _ := h.revokeSessions _

/-- An update that makes a user inactive finds no session that is
not revoked. -/
def UpdatesSignedOut (deps : AuthDeps) (s : Accounts)
    (req : AccountRequest) : Prop :=
  ∀ id patch, req.update? deps = some (id, patch) →
    patch.isActive = some false → ¬s.Live id

/-- Every request may be made. -/
def anyRequest (_ : Accounts) (_ : AccountRequest) : Prop :=
  True

/-- Nothing is in the tables yet. -/
structure Empty (s : Accounts) : Prop where
  users : s.users = .empty
  sessions : s.sessions = .empty
  passwordResets : s.passwordResets = .empty
  auditLog : s.auditLog = []

variable {deps : AuthDeps} {s t : Accounts}

/-- No session is issued to a user who has none and is not signed in. -/
theorem keptBySessions_not_live (id : Uuid) :
    KeptBySessions (fun user => user.id ≠ id) fun s => ¬s.Live id where
  insertToken h _ hwho hinsert hlive := by
    rcases live_insertToken hinsert hlive with heq | hlive
    · exact hwho heq.symm
    · exact h hlive
  spend _ _ h hlive := h (live_spend hlive)
  record _ _ h := h

theorem Drift.revoked (h : s.Drift t) (hs : s.Revoked) : t.Revoked := by
  refine hs.of ?_ ?_
  · rintro id ⟨user, hfound, hinactive⟩
    obtain ⟨departmentId, hold⟩ := h.before hfound
    exact ⟨_, hold, hinactive⟩
  · intro id hlive
    rwa [Live, h.sessions] at hlive

/-- One request, which updates no user or one that has no session. -/
theorem serve_revoked {req : AccountRequest} (hs : s.Revoked)
    (hguard : UpdatesSignedOut deps s req) :
    wp Draw.Admitted (req.serve deps) (Leaves Revoked fun _ _ => True) s := by
  have hkept := kept_revoked deps
  by_cases hdeactivates : ∃ id patch, req.update? deps = some (id, patch) ∧
      patch.isActive = some false
  · obtain ⟨id, patch, hreq, hpatch⟩ := hdeactivates
    have hlive : ¬s.Live id := hguard id patch hreq hpatch
    refine serve_keeps hkept hs (P := fun t => ¬t.Live id) hlive req ?_ ?_
    · intro refreshToken
      refine rotate_keeps (hkept.toKeptBySessions.of_anyone.and
        (keptBySessions_not_live id)) ⟨hs, hlive⟩ ?_
      rintro user huser rfl
      exact hlive huser
    · intro id' patch' hreq' t u ht hnot hupdate
      obtain ⟨rfl, rfl⟩ := Prod.mk.inj (Option.some.inj (hreq.symm.trans hreq'))
      intro id' hinactive hlive'
      have hbefore : t.Live id' := by
        obtain rfl := updateUser_eq_some hupdate
        exact hlive'
      rcases inactive_updateUser hupdate hinactive with hold | ⟨rfl, -⟩
      · exact ht id' hold hbefore
      · exact hnot hbefore
  · refine serve_keeps_of_update hkept hs req
      fun id patch hreq t u ht hupdate => ?_
    refine ht.of (fun id' hinactive => ?_) fun id' hlive => ?_
    · rcases inactive_updateUser hupdate hinactive with hold | ⟨-, hpatch⟩
      · exact hold
      · exact absurd ⟨id, patch, hreq, hpatch⟩ hdeactivates
    · obtain rfl := updateUser_eq_some hupdate
      exact hlive

theorem Serial.revoked (hrun : Serial deps (UpdatesSignedOut deps) s t)
    (hs : s.Revoked) : t.Revoked := by
  induction hrun with
  | refl => exact hs
  | tail _ hstep ih =>
      cases hstep with
      | drift h => exact h.revoked ih
      | request hguard h => exact (h.ensures (serve_revoked ih hguard)).left

/-- A session that is revoked stays so, whatever is requested. -/
theorem Serial.spent {guard : Accounts → AccountRequest → Prop}
    {tokenHash : String} (hrun : Serial deps guard s t)
    (hs : s.Spent tokenHash) : t.Spent tokenHash := by
  induction hrun with
  | refl => exact hs
  | tail _ hstep ih =>
      cases hstep with
      | drift h => rwa [Spent, h.sessions]
      | request _ h =>
          refine (h.ensures (serve_keeps_of_update (kept_spent deps tokenHash)
            ih _ ?_)).left
          intro id patch _ t u ht hupdate
          obtain rfl := updateUser_eq_some hupdate
          exact ht

/-- A refresh token whose session is revoked is refused. -/
theorem Spent.refused {rawToken : String}
    (h : s.Spent (deps.sha256Hex rawToken)) {x : Exit ApiError Uuid}
    (hrun : Runs Draw.Admitted (redeemRefreshToken deps rawToken) s x t) :
    x = .error .unauthorized := by
  have hinvalid : s.valid? .refresh (deps.sha256Hex rawToken) = none := by
    refine Option.eq_none_iff_forall_ne_some.mpr fun token htoken => ?_
    obtain ⟨session, hsession, hhash, hspent⟩ := h
    obtain ⟨hmem, hhash', hunspent, -⟩ := valid?_eq_some_iff.mp htoken
    obtain rfl := Indexed.eq_of_index hsession hmem (hhash.trans hhash'.symm)
    exact hspent hunspent
  have hwp : wp Draw.Admitted (redeemRefreshToken deps rawToken)
      (fun x _ => x = .error .unauthorized) s := by
    refine (wp_bind _ _ _ _).mpr
      ((wp_mapError _ _ _ _).mpr ((wp_atomic _ _ _).mpr ?_))
    intro i hi
    rw [show i.fault = .none from hi]
    simp only [hinvalid]
    exact rfl
  exact hrun.ensures hwp

/-- From an empty database on, whatever is requested: while no update makes a
user inactive who has a session, no user who is not active has one, and what
revoked it is for good.  Refresh tokens from before are refused ever after. -/
theorem inactive_users_are_signed_out {deps : AuthDeps} {s₀ s : Accounts}
    (h₀ : s₀.Empty) (hrun : Serial deps (UpdatesSignedOut deps) s₀ s)
    {user : User} (huser : user ∈ s.users.rows)
    (hinactive : user.isActive = false) {session : IssuedToken}
    (hsession : session ∈ s.sessions.rows) (hof : session.userId = user.id) :
    session.spentAt ≠ none ∧
      ∀ t rawToken x u, Serial deps anyRequest s t →
        deps.sha256Hex rawToken = session.tokenHash →
        Runs Draw.Admitted (redeemRefreshToken deps rawToken) t x u →
        x = .error .unauthorized := by
  have hempty : s₀.Revoked := by
    rintro id - ⟨session, hsession, -⟩
    rw [h₀.sessions] at hsession
    cases hsession
  have hspent : session.spentAt ≠ none := fun hlive =>
    hrun.revoked hempty user.id ⟨user, Table.find?_of_mem huser, hinactive⟩
      ⟨session, hsession, hof, hlive⟩
  refine ⟨hspent, fun t rawToken x u hlater hhash hredeem => ?_⟩
  have hbefore : s.Spent (deps.sha256Hex rawToken) :=
    ⟨session, hsession, hhash.symm, hspent⟩
  exact (hlater.spent hbefore).refused hredeem

namespace Sample

/-- The admin updates whether the user is active. -/
def setActive (isActive : Bool) : AccountRequest :=
  .updateUser admin (id 13)
    { displayName := none
      departmentId := none
      managerUserId := none
      role := none
      isActive := some isActive }

/-- The user has signed in, and is then deactivated. -/
def deactivated : Option Accounts :=
  run [bootstrap, addUser, login, (.deactivateUser admin (id 13), 30)] empty

/-- The user has signed in, and is then made inactive by an update. -/
def madeInactive : Option Accounts :=
  run [bootstrap, addUser, login, (setActive false, 30)] empty

end Sample

theorem inactive_users_are_signed_out_sampled :
    let s := Sample.deactivated.get (by decide)
    ∃ user ∈ s.users.rows, user.isActive = false ∧
      ∃ session ∈ s.sessions.rows, session.userId = user.id ∧
        (session.spentAt ≠ none ∧
          ∀ t rawToken x u, Serial Sample.deps anyRequest s t →
            Sample.deps.sha256Hex rawToken = session.tokenHash →
            Runs Draw.Admitted (redeemRefreshToken Sample.deps rawToken) t x u →
            x = .error .unauthorized) := by
  intro s
  have hrun : Serial Sample.deps (UpdatesSignedOut Sample.deps)
      Sample.empty s :=
    Sample.serial_of_run (by simp [UpdatesSignedOut, AccountRequest.update?,
      Sample.bootstrap, Sample.addUser, Sample.login]) (Option.some_get _).symm
  have huser : ∃ user ∈ s.users.rows, user.isActive = false ∧
      user.id = Sample.id 13 := by
    decide
  have hsession : ∃ session ∈ s.sessions.rows,
      session.userId = Sample.id 13 := by decide
  obtain ⟨user, hmem, hinactive, hid⟩ := huser
  obtain ⟨session, hmem', hof⟩ := hsession
  have hof' : session.userId = user.id := hof.trans hid.symm
  exact ⟨user, hmem, hinactive, session, hmem', hof',
    inactive_users_are_signed_out ⟨rfl, rfl, rfl, rfl⟩ hrun hmem hinactive
      hmem' hof'⟩

/-- A user is made inactive by an update and keeps the session.  Once the user
is active again, the refresh token from before is good again. -/
theorem updated_user_stays_signed_in :
    let s := Sample.madeInactive.get (by decide)
    let t := (Sample.run [(Sample.setActive true, 40)] s).get (by decide)
    Sample.empty.Empty ∧ Serial Sample.deps anyRequest Sample.empty s ∧
    (s.users.find? (Sample.id 13)).map User.isActive = some false ∧
    (s.sessions.rows.map fun row => (row.userId, row.spentAt)) =
      [(Sample.id 13, none)] ∧
    Serial Sample.deps anyRequest s t ∧
    (runAlone Draw.Admitted (redeemRefreshToken Sample.deps "22")
      (Sample.draws 0 50) t).map Prod.fst = some (.ok (Sample.id 13)) :=
  ⟨⟨rfl, rfl, rfl, rfl⟩,
    Sample.serial_of_run (by simp [anyRequest]) (Option.some_get _).symm,
    by decide, by decide,
    Sample.serial_of_run (by simp [anyRequest]) (Option.some_get _).symm,
      by decide⟩

end Accounts

end Servcat
