/-
Rows and disk agree about the logos: every logo a row names is there, as long as
no write fails while the file of one is gone.
-/
import Servcat.Atomic.Inputs
import Servcat.Uploads.Serving

namespace Servcat

open Atomic Keyed Posix

namespace Uploads

/-- What has a logo. -/
inductive Owner where
  | org
  | department (id : Uuid)
deriving DecidableEq, Repr

namespace Owner

def subdir : Owner → String
  | org => "org"
  | department _ => "departments"

def slot : Owner → String
  | org => "org"
  | department id => toString id

end Owner

/-- The `logo_url` of its row. -/
def logos (s : Uploads) : Owner → Option String
  | .org => s.orgSettings.logoUrl
  | .department id => (s.departments.find? id).bind Department.logoUrl

variable (uploadsDir : String)

/-- The address names a file that is there. -/
def NamesFile (s : Uploads) (url : String) : Prop :=
  ∃ path, belowUploads url = some path ∧
    s.files (normalize (filePath uploadsDir path)) ≠ none

/-- The logos of these rows are there. -/
def ExistFor (owners : Owner → Prop) (s : Uploads) : Prop :=
  ∀ owner, owners owner → ∀ url, logos s owner = some url →
    NamesFile uploadsDir s url

/-- Every logo that a row names is there. -/
abbrev LogosExist (s : Uploads) : Prop :=
  ExistFor uploadsDir (fun _ => True) s

/-- Where the file of a logo is. -/
def place (owner : Owner) (uuid : Uuid) (extension : String) : List Component :=
  normalize (filePath uploadsDir
    (logoPath owner.subdir owner.slot uuid extension))

/-- The address is one of a logo of this row. -/
def IsLogo (owner : Owner) (url : String) : Prop :=
  ∃ uuid extension, '/' ∉ extension.toList ∧
    url = logoUrl owner.subdir owner.slot uuid extension

/-- Every row names a logo of its own. -/
def Named (s : Uploads) : Prop :=
  ∀ owner url, logos s owner = some url → IsLogo owner url

variable {uploadsDir} {s t : Uploads}

namespace Owner

theorem subdir_cases (owner : Owner) :
    owner.subdir = "org" ∨ owner.subdir = "departments" := by
  cases owner with
  | org => exact .inl rfl
  | department id => exact .inr rfl

theorem folder_subdir (owner : Owner) : Folder owner.subdir := by
  rcases owner.subdir_cases with h | h <;> rw [h] <;>
    exact ⟨by decide, by decide, by decide⟩

theorem slash_notMem_slot (owner : Owner) : '/' ∉ owner.slot.toList := by
  cases owner with
  | org => decide
  | department id => exact id.slash_notMem

theorem isName_subdir (owner : Owner) : IsName owner.subdir.toList := by
  rcases owner.subdir_cases with h | h <;> rw [h] <;>
    exact ⟨by decide, by decide, by decide, by decide⟩

/-- The name of a file says whose it is. -/
theorem eq_of_logoFile {owner owner' : Owner} {uuid uuid' : Uuid}
    {extension extension' : String} (hsubdir : owner.subdir = owner'.subdir)
    (hfile : (logoFile owner.slot uuid extension).toList =
      (logoFile owner'.slot uuid' extension').toList) : owner = owner' := by
  have hfolders : "org" ≠ "departments" := by decide
  rw [toList_logoFile, toList_logoFile] at hfile
  cases owner with
  | org =>
      cases owner' with
      | org => rfl
      | department id => exact absurd hsubdir hfolders
  | department id =>
      cases owner' with
      | org => exact absurd hsubdir.symm hfolders
      | department id' =>
          have hlength : id.toString.toList.length =
              id'.toString.toList.length := by
            rw [id.length_toString, id'.length_toString]
          have hslot := (List.append_inj hfile hlength).1
          rw [Uuid.toString_inj (String.toList_inj.mp hslot)]

end Owner

/-- Different rows have their files at different places. -/
theorem owner_of_place {owner owner' : Owner} {uuid uuid' : Uuid}
    {extension extension' : String} (hextension : '/' ∉ extension.toList)
    (hextension' : '/' ∉ extension'.toList)
    (h : place uploadsDir owner uuid extension =
      place uploadsDir owner' uuid' extension') :
    owner = owner' := by
  have hplace {owner : Owner} {uuid : Uuid} {extension : String}
      (hextension : '/' ∉ extension.toList) :
        place uploadsDir owner uuid extension =
        normalize uploadsDir.toList ++ [.normal owner.subdir.toList,
          .normal (logoFile owner.slot uuid extension).toList] :=
    normalize_join_names owner.isName_subdir
      (isName_logoFile owner.slash_notMem_slot hextension uuid)
        uploadsDir.toList
  rw [hplace hextension, hplace hextension'] at h
  simp only [List.append_cancel_left_eq, List.cons.injEq,
    Component.normal.injEq, and_true] at h
  exact Owner.eq_of_logoFile (String.toList_inj.mp h.1) h.2

theorem namesFile_logoUrl {owner : Owner} {uuid : Uuid} {extension : String} :
    NamesFile uploadsDir s (logoUrl owner.subdir owner.slot uuid extension) ↔
      s.files (place uploadsDir owner uuid extension) ≠ none := by
  constructor
  · rintro ⟨path, hpath, hfile⟩
    rw [belowUploads_logoUrl] at hpath
    obtain rfl := Option.some.inj hpath
    exact hfile
  · exact fun hfile => ⟨_, belowUploads_logoUrl _ _ _ _, hfile⟩

theorem logos_setFile (s : Uploads) (path : List Component)
    (content : Option Bytes) : logos (s.setFile path content) = logos s := by
  funext owner
  cases owner <;> rfl

theorem files_setFile (s : Uploads) (path other : List Component)
    (content : Option Bytes) :
    (s.setFile path content).files other =
      if other = path then content else s.files other :=
  Function.update_apply s.files path content other

theorem logos_of_cleared {url : Option String}
    (h : Cleared uploadsDir url s t) : logos t = logos s := by
  rcases h with rfl | ⟨path, -, rfl⟩
  · rfl
  · exact logos_setFile _ _ _

theorem Named.of_logos (h : Named s)
    (hlogos : logos t = logos s) : Named t := by
  intro owner url hurl
  rw [hlogos] at hurl
  exact h owner url hurl

/-- A write takes no file away. -/
theorem ExistFor.write {owners : Owner → Prop}
    (h : ExistFor uploadsDir owners s) (path : List Component) (bytes : Bytes) :
    ExistFor uploadsDir owners (s.setFile path (some bytes)) := by
  intro owner howner url hurl
  rw [logos_setFile] at hurl
  obtain ⟨below, hbelow, hfile⟩ := h owner howner url hurl
  refine ⟨below, hbelow, ?_⟩
  rw [files_setFile]
  split
  · exact Option.some_ne_none bytes
  · exact hfile

/-- What is removed for one row is the file of no other. -/
theorem ExistFor.cleared {owner : Owner} (h : LogosExist uploadsDir s)
    (hnamed : Named s) (hcleared : Cleared uploadsDir (logos s owner) s t) :
    ExistFor uploadsDir (· ≠ owner) t := by
  intro other hother url hurl
  rw [logos_of_cleared hcleared] at hurl
  have hfile := h other trivial url hurl
  rcases hcleared with rfl | ⟨path, hpath, rfl⟩
  · exact hfile
  obtain ⟨removed, hremoved, hbelow⟩ := Option.bind_eq_some_iff.mp hpath
  obtain ⟨uuid, extension, hextension, rfl⟩ := hnamed owner removed hremoved
  obtain ⟨uuid', extension', hextension', rfl⟩ := hnamed other url hurl
  rw [belowUploads_logoUrl] at hbelow
  obtain rfl := Option.some.inj hbelow
  rw [namesFile_logoUrl] at hfile ⊢
  have hplace : place uploadsDir other uuid' extension' ≠
      normalize (filePath uploadsDir
        (logoPath owner.subdir owner.slot uuid extension)) :=
    fun heq => hother (owner_of_place hextension' hextension heq)
  rw [files_setFile, if_neg hplace]
  exact hfile

/-- The row of an owner is written, if there is one. -/
structure Renamed (owner : Owner) (url : Option String)
    (s t : Uploads) : Prop where
  files : t.files = s.files
  self : logos t owner = url ∨ logos t owner = none
  other : ∀ other, other ≠ owner → logos t other = logos s other

theorem Renamed.named {owner : Owner} {url : Option String}
    (h : Renamed owner url s t) (hnamed : Named s)
    (hurl : ∀ u, url = some u → IsLogo owner u) : Named t := by
  intro other u hu
  by_cases heq : other = owner
  · subst heq
    rcases h.self with hself | hself
    · exact hurl u (hself.symm.trans hu)
    · rw [hself] at hu
      cases hu
  · rw [h.other other heq] at hu
    exact hnamed other u hu

theorem Renamed.logosExist {owner : Owner} {url : Option String}
    (h : Renamed owner url s t) (hothers : ExistFor uploadsDir (· ≠ owner) s)
    (hurl : ∀ u, url = some u → NamesFile uploadsDir s u) :
    LogosExist uploadsDir t := by
  intro other _ u hu
  have hfiles : NamesFile uploadsDir s u → NamesFile uploadsDir t u := by
    rintro ⟨path, hpath, hfile⟩
    exact ⟨path, hpath, by rwa [h.files]⟩
  by_cases heq : other = owner
  · subst heq
    rcases h.self with hself | hself
    · exact hfiles (hurl u (hself.symm.trans hu))
    · rw [hself] at hu
      cases hu
  · rw [h.other other heq] at hu
    exact hfiles (hothers other heq u hu)

/-- Rows and disk agree. -/
structure Agrees (uploadsDir : String) (s : Uploads) : Prop where
  named : Named s
  exist : LogosExist uploadsDir s

/-- While the file of a logo is gone, no write fails and no
statement is lost. -/
def Careful (uploadsDir : String) (i : DiskInput) (s : Uploads) : Prop :=
  LogosExist uploadsDir s ∨ i.disk = .none ∧ i.fault ≠ .lostRequest

/-- How the row of an owner is read and written. -/
structure Accesses {ρ : Type} (uploadsDir : String) (owner : Owner)
    (row : Async ApiError ρ) (logoUrl : ρ → Option String)
    (setLogoUrl : Option String → Async ApiError ρ) : Prop where
  read : ∀ s, wp (Careful uploadsDir) row
    (fun x t => t = s ∧ ∀ r, x = .ok r → logoUrl r = logos s owner) s
  write : ∀ s url, wp (Careful uploadsDir) (setLogoUrl url)
    (fun _ t => Renamed owner url s t ∨
      t = s ∧ LogosExist uploadsDir s) s

section Requests

variable {ρ : Type} {owner : Owner} {row : Async ApiError ρ}
  {rowUrl : ρ → Option String} {setLogoUrl : Option String → Async ApiError ρ}

/-- What follows the reading of a row goes on with its logo. -/
theorem wp_row (haccess : Accesses uploadsDir owner row rowUrl setLogoUrl)
    {α : Type} {k : ρ → Async ApiError α} {Q : Uploads → Prop} (hs : Q s)
    (h : ∀ current, rowUrl current = logos s owner →
      wp (Careful uploadsDir) (k current) (fun _ t => Q t) s) :
    wp (Careful uploadsDir) (row >>= k) (fun _ t => Q t) s := by
  rw [wp_bind]
  refine wp_mono ?_ (haccess.read s)
  rintro x u ⟨hu, hcurrent⟩
  rw [hu]
  cases x with
  | ok current => exact h current (hcurrent current rfl)
  | error err => exact hs
  | panicked => exact hs

theorem wp_replaceLogo
    (haccess : Accesses uploadsDir owner row rowUrl setLogoUrl)
    (hs : Agrees uploadsDir s) (contentType : Option String) (bytes : Bytes) :
    wp (Careful uploadsDir)
      (replaceLogo uploadsDir row rowUrl setLogoUrl owner.subdir owner.slot
        contentType bytes)
      (fun _ t => Agrees uploadsDir t) s := by
  unfold replaceLogo
  rw [wp_bind]
  cases contentType with
  | none => exact hs
  | some contentType =>
      refine wp_row haccess hs fun current hcurrent => ?_
      rw [wp_bind, hcurrent]
      refine wp_saveLogo (fun err => hs) ?_
      intro extension uuid t i hextension hcleared hi path
      obtain ⟨-, hslash, -⟩ := extension_spec hextension
      have hnamed := hs.named.of_logos (logos_of_cleared hcleared)
      have hothers := hs.exist.cleared hs.named hcleared
      have hpath : path = place uploadsDir owner uuid extension := by
        rw [place, filePath_logoPath owner.folder_subdir
          owner.slash_notMem_slot hslash]
      -- A write that fails found the file before still in its place.
      have hkept : i.disk ≠ .none → LogosExist uploadsDir t :=
        fun hdisk => hi.resolve_right fun hcareful => hdisk hcareful.1
      have hwritten (bytes : Bytes) : Named (t.setFile path (some bytes)) :=
        hnamed.of_logos (logos_setFile _ _ _)
      refine ⟨fun _ => ?_, fun hlost => ?_, fun hlost => ?_⟩
      · refine wp_mono ?_ (haccess.write _ _)
        rintro y u (hrenamed | ⟨rfl, hexist⟩)
        · refine ⟨hrenamed.named (hwritten bytes) ?_,
            hrenamed.logosExist (hothers.write path bytes) ?_⟩
          · rintro _ ⟨⟩
            exact ⟨uuid, extension, hslash, rfl⟩
          · rintro _ ⟨⟩
            rw [namesFile_logoUrl, hpath, files_setFile, if_pos rfl]
            exact Option.some_ne_none bytes
        · exact ⟨hwritten bytes, hexist⟩
      · exact ⟨hnamed, hkept (by simp [hlost])⟩
      · exact ⟨hwritten i.torn, (hkept (by simp [hlost])).write path i.torn⟩

theorem wp_clearLogo (haccess : Accesses uploadsDir owner row rowUrl setLogoUrl)
    (hs : Agrees uploadsDir s) :
    wp (Careful uploadsDir) (clearLogo uploadsDir row rowUrl setLogoUrl)
      (fun _ t => Agrees uploadsDir t) s := by
  refine wp_row haccess hs fun current hcurrent => ?_
  rw [wp_bind, hcurrent]
  refine wp_deleteLogo fun t hcleared => ?_
  have hnamed := hs.named.of_logos (logos_of_cleared hcleared)
  have hothers := hs.exist.cleared hs.named hcleared
  refine wp_mono ?_ (haccess.write t none)
  rintro y u (hrenamed | ⟨rfl, hexist⟩)
  · exact ⟨hrenamed.named hnamed fun _ h => (by cases h),
      hrenamed.logosExist hothers fun _ h => (by cases h)⟩
  · exact ⟨hnamed, hexist⟩

end Requests

/-- A statement on the row is executed, or lost where the file of every
logo is there. -/
theorem wp_execute {f : Uploads → Uploads}
    {post : Exit DbError Unit → Uploads → Prop} (hexecuted : ∀ x, post x (f s))
    (hlost : ∀ x, LogosExist uploadsDir s → post x s) :
    wp (Careful uploadsDir) (execute f) post s := by
  refine (wp_atomic _ _ _).mpr fun i hi => ?_
  cases hfault : i.fault with
  | none => exact hexecuted _
  | lostRequest =>
      exact hlost _ (hi.resolve_right fun hcareful => hcareful.2 hfault)
  | lostReply => exact hexecuted _

theorem wp_select {valid : DiskInput → Uploads → Prop} {α : Type}
    (f : Uploads → α) :
    wp valid (select f) (fun x t => t = s ∧ ∀ a, x = .ok a → a = f s) s := by
  refine (wp_atomic _ _ _).mpr fun i _ => ?_
  cases i.fault with
  | none => exact ⟨rfl, fun a h => (Exit.ok.inj h).symm⟩
  | lostRequest => exact ⟨rfl, fun a h => (by cases h)⟩
  | lostReply => exact ⟨rfl, fun a h => (by cases h)⟩

/-- A row is updated and read again. -/
theorem wp_update {α : Type} (f : Uploads → Uploads) (read : Uploads → α) :
    wp (Careful uploadsDir) (do execute f; select read)
      (fun _ t => t = f s ∨ t = s ∧ LogosExist uploadsDir s) s := by
  have hread (t : Uploads) (hpost : t = f s ∨ t = s ∧ LogosExist uploadsDir s)
      (x : Exit DbError Unit) : wp (Careful uploadsDir)
        (Program.onOk (fun _ => select read) x)
        (fun _ t => t = f s ∨ t = s ∧ LogosExist uploadsDir s) t := by
    cases x with
    | ok _ =>
        refine wp_mono ?_ (wp_select read)
        rintro x u ⟨rfl, -⟩
        exact hpost
    | error err => exact hpost
    | panicked => exact hpost
  rw [wp_bind]
  exact wp_execute (hread _ (.inl rfl)) fun x hexist =>
    hread s (.inr ⟨rfl, hexist⟩) x

theorem accesses_org : Accesses uploadsDir .org (db OrgSettings.get)
    Servcat.OrgSettings.logoUrl fun url => db (OrgSettings.setLogoUrl url) := by
  constructor
  · intro s
    rw [db, wp_mapError]
    refine wp_mono ?_ (wp_select _)
    rintro x t ⟨ht, hvalue⟩
    refine ⟨ht, ?_⟩
    cases x with
    | ok settings =>
        rintro _ ⟨⟩
        rw [hvalue settings rfl]
        rfl
    | error err => exact fun r h => (by cases h)
    | panicked => exact fun r h => (by cases h)
  · intro s url
    rw [db, wp_mapError]
    refine wp_mono ?_ (wp_update _ _)
    rintro x t (rfl | hkept)
    · refine .inl ⟨rfl, .inl rfl, fun other hother => ?_⟩
      cases other with
      | org => exact absurd rfl hother
      | department id => rfl
    · exact .inr hkept

theorem accesses_department (id : Uuid) : Accesses uploadsDir (.department id)
    (department (Departments.getById id)) Department.logoUrl
    fun url => department (Departments.setLogoUrl id url) := by
  constructor
  · intro s
    rw [department, wp_bind, db, wp_mapError]
    refine wp_mono ?_ (wp_select _)
    rintro x t ⟨ht, hvalue⟩
    cases x with
    | ok found =>
        cases found with
        | none => exact ⟨ht, fun r h => (by cases h)⟩
        | some row =>
            refine ⟨ht, ?_⟩
            rintro _ ⟨⟩
            have hrow : s.departments.find? id = some row := (hvalue _ rfl).symm
            simp [logos, hrow]
    | error err => exact ⟨ht, fun r h => (by cases h)⟩
    | panicked => exact ⟨ht, fun r h => (by cases h)⟩
  · intro s url
    rw [department, wp_bind, db, wp_mapError]
    refine wp_mono ?_ (wp_update _ _)
    rintro x t hpost
    have hrenamed : Renamed (.department id) url s t ∨
        t = s ∧ LogosExist uploadsDir s := by
      rcases hpost with rfl | hkept
      · refine .inl ⟨rfl, ?_, fun other hother => ?_⟩
        · simp only [logos, Table.find?_modify]
          cases s.departments.find? id with
          | none => exact .inr rfl
          | some row => exact .inl (by simp)
        · cases other with
          | org => rfl
          | department id' =>
              have hne : id' ≠ id :=
                fun heq => hother (congrArg Owner.department heq)
              simp only [logos, Table.find?_modify, if_neg hne]
      · exact .inr hkept
    cases x with
    | ok found => cases found <;> exact hrenamed
    | error err => exact hrenamed
    | panicked => exact hrenamed

/-- A request about a logo, whatever its answer. -/
inductive LogoRequest (uploadsDir : String)
    (valid : DiskInput → Uploads → Prop) :
    Uploads → Uploads → Prop
  | uploadOrg {user : User} {contentType : Option String} {bytes : Bytes}
      {s t : Uploads} {response : Exit ApiError Servcat.OrgSettings}
      (hrun : Runs valid (Settings.uploadLogo uploadsDir user contentType bytes)
        s response t) :
      LogoRequest uploadsDir valid s t
  | removeOrg {user : User} {s t : Uploads}
      {response : Exit ApiError Servcat.OrgSettings}
      (hrun : Runs valid (Settings.removeLogo uploadsDir user) s response t) :
      LogoRequest uploadsDir valid s t
  | uploadDepartment {user : User} {id : Uuid} {contentType : Option String}
      {bytes : Bytes} {s t : Uploads} {response : Exit ApiError Department}
      (hrun : Runs valid (Departments.uploadLogo uploadsDir user id
        contentType bytes) s response t) : LogoRequest uploadsDir valid s t
  | removeDepartment {user : User} {id : Uuid} {s t : Uploads}
      {response : Exit ApiError Department}
      (hrun : Runs valid (Departments.removeLogo uploadsDir user id) s
        response t) :
      LogoRequest uploadsDir valid s t

/-- What requires an administrator does nothing for anybody else. -/
theorem wp_requireAdmin {valid : DiskInput → Uploads → Prop} {α : Type}
    {user : User} {p : Async ApiError α}
    {post : Exit ApiError α → Uploads → Prop}
    (hforbidden : post (.error .forbidden) s) (h : wp valid p post s) :
    wp valid (do requireAdmin user; p) post s := by
  rw [wp_bind, requireAdmin]
  split
  · exact h
  · exact hforbidden

theorem agrees_of_request (hs : Agrees uploadsDir s)
    (hrequest : LogoRequest uploadsDir (Careful uploadsDir) s t) :
    Agrees uploadsDir t := by
  have hkept {α : Type} {p : Async ApiError α} {x : Exit ApiError α}
      (hrun : Runs (Careful uploadsDir) p s x t)
      (h : wp (Careful uploadsDir) p (fun _ t => Agrees uploadsDir t) s) :
      Agrees uploadsDir t :=
    hrun.ensures h
  cases hrequest with
  | @uploadOrg user contentType bytes _ _ response hrun =>
      exact hkept hrun (wp_requireAdmin hs
        (wp_replaceLogo accesses_org hs contentType bytes))
  | @removeOrg user _ _ response hrun =>
      exact hkept hrun (wp_requireAdmin hs (wp_clearLogo accesses_org hs))
  | @uploadDepartment user id contentType bytes _ _ response hrun =>
      exact hkept hrun <| wp_requireAdmin hs <|
        wp_replaceLogo (accesses_department id) hs contentType bytes
  | @removeDepartment user id _ _ response hrun =>
      exact hkept hrun (wp_requireAdmin hs
        (wp_clearLogo (accesses_department id) hs))

/-- Rows and disk agree after any sequence of requests. -/
theorem logos_exist_of_careful (hstart : ∀ owner, logos s owner = none)
    (hrun : Relation.ReflTransGen
      (LogoRequest uploadsDir (Careful uploadsDir)) s t) :
    LogosExist uploadsDir t := by
  have hagrees : Agrees uploadsDir t := by
    induction hrun with
    | refl =>
        have hnone (owner : Owner) (url : String) : logos s owner ≠
            some url := by
          rw [hstart owner]
          simp
        exact ⟨fun owner url h => absurd h (hnone owner url),
          fun owner _ url h => absurd h (hnone owner url)⟩
    | tail _ hrequest ih => exact agrees_of_request ih hrequest
  exact hagrees.exist

section Failures

/-- An administrator. -/
def administrator : User :=
  ⟨⟨1#128⟩, "admin@example.org", "Admin", none, none, none, none, .admin, true⟩

/-- The `n`th step of a request, and what becomes of its call to the
file system. -/
def logoInput (n : ℕ) (disk : Fault) : DiskInput :=
  ⟨⟨0, ⟨BitVec.ofNat 128 n⟩, .none⟩, disk, []⟩

/-- The logo of the organisation after its first upload, and where
its file is. -/
def firstLogo : String :=
  logoUrl "org" "org" ⟨7#128⟩ "png"

def firstPlace : List Component :=
  place "data/uploads" .org ⟨7#128⟩ "png"

/-- After the first upload. -/
def uploaded : Uploads :=
  ⟨⟨"ServCat", some firstLogo, false, "UTC"⟩, .empty,
    Function.update (fun _ => none) firstPlace (some [137]), []⟩

theorem first_upload :
    Runs (fun (i : DiskInput) _ => i.disk = .none ∧ i.fault = .none)
    (Settings.uploadLogo "data/uploads" administrator (some "image/png")
      [137]) initial
    (.ok uploaded.orgSettings) uploaded :=
  @runs_of_runAlone _ _ _ _ _ _ _ (List.replicate 6
    (logoInput 7 .none)) _ _ _ rfl

theorem logos_exist_of_careful_uploaded :
    LogosExist "data/uploads" uploaded := by
  have hnone (owner : Owner) : logos initial owner = none := by
    cases owner <;> rfl
  have hcareful : ∀ (i : DiskInput) (s : Uploads),
      i.disk = .none ∧ i.fault = .none →
      Careful "data/uploads" i s := fun i s hi => .inr ⟨hi.1, by simp [hi.2]⟩
  exact logos_exist_of_careful hnone
    (.single (.uploadOrg (first_upload.mono hcareful)))

/-- The write of a second logo fails when the file of the first is gone. -/
theorem failed_upload_loses_logo : ∃ s t url, (∀ owner, logos s owner = none) ∧
    Relation.ReflTransGen (LogoRequest "data/uploads" fun _ _ => True) s t ∧
    logos t .org = some url ∧ ¬ NamesFile "data/uploads" t url := by
  have hsecond : Runs (fun _ _ => True)
      (Settings.uploadLogo "data/uploads" administrator (some "image/png")
        [80]) uploaded
      (.error .internal) (uploaded.setFile firstPlace none) :=
    @runs_of_runAlone _ _ _ _ _ _ _
      (List.replicate 4 (logoInput 8 .none) ++
        [logoInput 8 .lostRequest]) _ _ _ rfl
  have hgone : (uploaded.setFile firstPlace none).files firstPlace = none := by
    rw [files_setFile, if_pos rfl]
  have hnames : NamesFile "data/uploads" (uploaded.setFile firstPlace none)
      firstLogo ↔ (uploaded.setFile firstPlace none).files firstPlace ≠ none :=
    @namesFile_logoUrl _ _ .org _ _
  exact ⟨initial, _, firstLogo, fun owner => by cases owner <;> rfl,
    .tail (.single (.uploadOrg (first_upload.mono fun _ _ _ => trivial)))
      (.uploadOrg hsecond),
    rfl, fun hfile => hnames.mp hfile hgone⟩

end Failures

end Uploads

end Servcat
