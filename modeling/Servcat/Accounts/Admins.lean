/-
Some active user is an admin: which updates of users keep it so.
-/
import Servcat.Accounts.Deactivation

namespace Servcat

open Atomic Keyed

def User.ActiveAdmin (user : User) : Prop :=
  user.role = .admin ∧ user.isActive = true

instance (user : User) : Decidable user.ActiveAdmin :=
  inferInstanceAs (Decidable (_ ∧ _))

namespace Accounts

def HasAdmin (s : Accounts) : Prop :=
  ∃ user, s.users.find? user.id = some user ∧ user.ActiveAdmin

variable {deps : AuthDeps} {s t : Accounts}

theorem hasAdmin_iff :
    s.HasAdmin ↔ ∃ user ∈ s.users.rows, user.ActiveAdmin := by
  constructor
  · rintro ⟨user, hfound, hadmin⟩
    exact ⟨user, Table.mem_of_find? hfound, hadmin⟩
  · rintro ⟨user, hmem, hadmin⟩
    exact ⟨user, Table.find?_of_mem hmem, hadmin⟩

/-- A change of a user's row after which an active admin still is one. -/
theorem HasAdmin.modify (hs : s.HasAdmin) {k : Uuid} (f : User → User)
    {hf : ∀ row, (f row).id = row.id}
    (h : ∀ row, row.id = k → row.ActiveAdmin → (f row).ActiveAdmin) :
    HasAdmin { s with users := s.users.modify k f hf } := by
  obtain ⟨user, hfound, hadmin⟩ := hs
  by_cases hk : user.id = k
  · subst hk
    refine ⟨f user, ?_, h user rfl hadmin⟩
    rw [hf]
    exact (Table.find?_modify s.users user.id f hf user.id).trans
      (by simp [hfound])
  · refine ⟨user, ?_, hadmin⟩
    exact (Table.find?_modify s.users k f hf user.id).trans
      (by simp [hk, hfound])

theorem kept_hasAdmin (deps : AuthDeps) : Kept deps HasAdmin where
  insertToken hs _ _ hinsert := by rwa [HasAdmin, users_of_insertToken hinsert]
  spend kind id hs := by rwa [HasAdmin, spend, users_setTokens]
  record _ _ hs := hs
  insertUser := by
    rintro s t id new passwordHash ⟨user, hfound, hadmin⟩ hinsert
    obtain ⟨users, husers, rfl⟩ := insertUser_eq_some hinsert
    exact ⟨user, Table.find?_insert_of_some husers hfound, hadmin⟩
  linkSubject {s t id subject} hs hlink := by
    obtain rfl := linkSubject_eq_some hlink
    exact hs.modify (fun row => { row with externalIdpSubject := some subject })
      fun _ _ h => h
  setPasswordHash _ passwordHash hs :=
    hs.modify (fun row => { row with passwordHash := some passwordHash })
      fun _ _ h => h
  revokeSessions _ hs := hs
  insertAuditEntry hs hinsert := by
    obtain rfl := insertAuditEntry_eq_some hinsert
    exact hs
  -- The admin who deactivates someone else is left.
  deactivate {s actor id} _ hactor hadmin hself := by
    refine ⟨actor, ?_, hadmin, hactor.2⟩
    change (s.deactivateUser id).users.find? actor.id = some actor
    rw [find?_deactivateUser, if_neg hself, hactor.1]

/-- If the update takes an active admin's place, there is another one. -/
def Spares (s : Accounts) (id : Uuid) (patch : UpdateUser) : Prop :=
  ∀ user, s.users.find? id = some user → user.ActiveAdmin →
    ¬(patched patch user).ActiveAdmin →
    ∃ other, s.users.find? other.id = some other ∧ other.id ≠ id ∧
      other.ActiveAdmin

/-- Exactly these updates leave an active admin. -/
theorem hasAdmin_updateUser_iff {id : Uuid} {patch : UpdateUser}
    (hs : s.HasAdmin) (hupdate : s.updateUser id patch = some t) :
    t.HasAdmin ↔ s.Spares id patch := by
  obtain rfl := updateUser_eq_some hupdate
  have hfind := Table.find?_modify s.users id (patched patch) (patched_id patch)
  constructor
  · rintro ⟨other, hfound, hadmin⟩ user huser - hpatched
    rw [show _ = _ from hfind other.id] at hfound
    by_cases hid : other.id = id
    · rw [if_pos hid, hid, huser] at hfound
      cases hfound
      exact absurd hadmin hpatched
    · rw [if_neg hid] at hfound
      exact ⟨other, hfound, hid, hadmin⟩
  · intro hspares
    obtain ⟨user, hfound, hadmin⟩ := hs
    by_cases hid : user.id = id
    · subst hid
      by_cases hpatched : (patched patch user).ActiveAdmin
      · exact ⟨patched patch user,
          (hfind user.id).trans (by simp [hfound]), hpatched⟩
      · obtain ⟨other, hother, hne, hadmin'⟩ :=
          hspares user hfound hadmin hpatched
        exact ⟨other, (hfind other.id).trans (by simp [hne, hother]), hadmin'⟩
    · exact ⟨user, (hfind user.id).trans (by simp [hid, hfound]), hadmin⟩

/-- An update that takes an active admin's place leaves another one. -/
def UpdatesSparingAdmins (deps : AuthDeps) (s : Accounts)
    (req : AccountRequest) : Prop :=
  ∀ id patch, req.update? deps = some (id, patch) → s.Spares id patch

theorem serve_hasAdmin {req : AccountRequest} (hs : s.HasAdmin)
    (hguard : UpdatesSparingAdmins deps s req) :
    wp Draw.Admitted (req.serve deps) (Leaves HasAdmin fun _ _ => True) s := by
  have hkept := kept_hasAdmin deps
  let P (t : Accounts) : Prop :=
    ∀ id patch, req.update? deps = some (id, patch) → t.Spares id patch
  have hP : KeptBySessions anyone P :=
    keptBySessions_users fun users => ∀ id patch,
      req.update? deps = some (id, patch) →
      ∀ user, users.find? id = some user → user.ActiveAdmin →
        ¬(patched patch user).ActiveAdmin →
        ∃ other, users.find? other.id = some other ∧ other.id ≠ id ∧
          other.ActiveAdmin
  refine serve_keeps hkept hs (P := P) hguard req ?_ ?_
  · intro refreshToken
    exact rotate_keeps (hkept.toKeptBySessions.and hP) ⟨hs, hguard⟩
      fun _ _ => trivial
  · intro id patch hreq t u ht hspares hupdate
    exact (hasAdmin_updateUser_iff ht hupdate).mpr (hspares id patch hreq)

theorem Drift.hasAdmin (h : s.Drift t) (hs : s.HasAdmin) : t.HasAdmin := by
  obtain ⟨user, hfound, hadmin⟩ := hs
  obtain ⟨departmentId, hfound'⟩ := h.after hfound
  exact ⟨{ user with departmentId }, hfound', hadmin⟩

/-- Some active user is an admin, as long as every update that takes an active
admin's place leaves another one. -/
theorem active_admin_remains (hs : ∃ user ∈ s.users.rows, user.ActiveAdmin)
    (hrun : Serial deps (UpdatesSparingAdmins deps) s t) :
    ∃ user ∈ t.users.rows, user.ActiveAdmin := by
  rw [← hasAdmin_iff] at hs ⊢
  induction hrun with
  | refl => exact hs
  | tail _ hstep ih =>
      cases hstep with
      | drift h => exact h.hasAdmin ih
      | request hguard h => exact (h.ensures (serve_hasAdmin ih hguard)).left

namespace Sample

/-- The only admin makes a requester of themselves, through the API. -/
def demoteSelf : AccountRequest × Nat :=
  (.updateUser admin (id 3)
    { displayName := none
      departmentId := none
      managerUserId := none
      role := some .requester
      isActive := none }, 20)

/-- The admin makes an admin of the other user, through the form. -/
def promote : AccountRequest × Nat :=
  (.updateUserPage ⟨admin, none⟩ (id 13) ⟨"admin", none, none, some "true"⟩, 20)

/-- The admin and a requester. -/
def twoUsers : Option Accounts :=
  run [bootstrap, addUser] empty

end Sample

theorem active_admin_remains_sampled :
    let s := Sample.twoUsers.get (by decide)
    let t := (Sample.run [Sample.promote] s).get (by decide)
    ∃ user ∈ t.users.rows, user.ActiveAdmin := by
  intro s t
  have hrun : Serial Sample.deps (UpdatesSparingAdmins Sample.deps) s t := by
    refine Sample.serial_of_run ?_ (Option.some_get _).symm
    intro req hreq s id patch hupdate user _ _ hpatched
    obtain rfl := List.mem_singleton.mp hreq
    cases hupdate
    exact absurd ⟨rfl, rfl⟩ hpatched
  exact active_admin_remains (by decide) hrun

/-- The only admin makes a requester of themselves, and none is left. -/
theorem last_admin_demoted :
    let s := Sample.twoUsers.get (by decide)
    let t := (Sample.run [Sample.demoteSelf] s).get (by decide)
    (∃ user ∈ s.users.rows, user.ActiveAdmin) ∧
    Serial Sample.deps anyRequest s t ∧
      ¬∃ user ∈ t.users.rows, user.ActiveAdmin :=
  ⟨by decide, Sample.serial_of_run (by simp [anyRequest])
    (Option.some_get _).symm, by decide⟩

end Accounts

end Servcat
