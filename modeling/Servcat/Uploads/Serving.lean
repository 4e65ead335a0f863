/-
Serving the uploads: nothing outside of their directory is read, and a logo is
served as it was uploaded.
-/
import Servcat.Model.UuidText
import Servcat.Uploads
import Mathlib.Data.List.TakeWhile

namespace Servcat

open Atomic Posix

namespace Uploads

/-- The name of the file of a logo. -/
def logoFile (slot : String) (uuid : Uuid) (extension : String) : String :=
  s!"{slot}-{uuid}.{extension}"

/-- The address of a logo. -/
def logoUrl (subdir slot : String) (uuid : Uuid)
    (extension : String) : String :=
  s!"/uploads/{subdir}/{logoFile slot uuid extension}"

/-- The part of this address below `/uploads/`. -/
def logoPath (subdir slot : String) (uuid : Uuid)
    (extension : String) : List Char :=
  subdir.toList ++ '/' :: (logoFile slot uuid extension).toList

/-- The state after the file of an address was asked to be removed. -/
def Cleared (uploadsDir : String) (url : Option String)
    (s t : Uploads) : Prop :=
  t = s ∨ ∃ path, url.bind belowUploads = some path ∧
    t = s.setFile (normalize (filePath uploadsDir path)) none

variable {valid : DiskInput → Uploads → Prop} {uploadsDir : String}
  {s : Uploads}

theorem isPrefixOf?_append {α : Type} [BEq α] [ReflBEq α]
    (start rest : List α) : start.isPrefixOf? (start ++ rest) = some rest := by
  induction start with
  | nil => cases rest <;> rfl
  | cons x start ih => simpa [List.isPrefixOf?] using ih

theorem toList_logoUrl (subdir slot : String) (uuid : Uuid)
    (extension : String) :
    (logoUrl subdir slot uuid extension).toList =
      "/uploads/".toList ++ logoPath subdir slot uuid extension := by
  have htext : logoUrl subdir slot uuid extension =
      "/uploads/" ++ subdir ++ "/" ++ logoFile slot uuid extension := rfl
  rw [htext, String.toList_append, String.toList_append, String.toList_append,
    List.append_assoc, List.append_assoc]
  rfl

theorem belowUploads_logoUrl (subdir slot : String) (uuid : Uuid)
    (extension : String) :
    belowUploads (logoUrl subdir slot uuid extension) =
      some (logoPath subdir slot uuid extension) := by
  rw [belowUploads, toList_logoUrl, isPrefixOf?_append]

/-- The text names one folder below another. -/
structure Folder (text : String) : Prop where
  ne_empty : text ≠ ""
  slash_notMem : '/' ∉ text.toList
  ne_parent : text ≠ ".."

theorem Folder.toList_ne_nil {text : String}
    (h : Folder text) : text.toList ≠ [] :=
  fun hnil => h.ne_empty (String.toList_eq_nil_iff.mp hnil)

theorem contentTypeFor_append {extension : List Char} (h : '.' ∉ extension)
    (start : List Char) :
    contentTypeFor (start ++ '.' :: extension) = contentTypeFor extension := by
  have hpos : ∀ c ∈ extension.reverse, decide (c ≠ '.') = true := by
    intro c hc
    exact decide_eq_true (ne_of_mem_of_not_mem (List.mem_reverse.mp hc) h)
  have htake : (start ++ '.' :: extension).reverse.takeWhile (· ≠ '.') =
      extension.reverse.takeWhile (· ≠ '.') := by
    rw [List.reverse_append, List.reverse_cons, List.append_assoc,
      List.takeWhile_append_of_pos hpos, List.takeWhile_eq_self_iff.mpr hpos]
    simp
  rw [contentTypeFor, contentTypeFor, htake]

/-- The kinds of logos there are, and the extensions of their files. -/
theorem extension_spec {contentType extension : String}
    (h : allowedContentTypes.lookup contentType = some extension) :
    '.' ∉ extension.toList ∧ '/' ∉ extension.toList ∧
      ∀ start,
        contentTypeFor (start ++ '.' :: extension.toList) = contentType := by
  have hmem : (contentType, extension) ∈ allowedContentTypes := by
    obtain ⟨before, after, hlist, -⟩ := List.lookup_eq_some_iff.mp h
    rw [hlist]
    exact List.mem_append_right before List.mem_cons_self
  have hserved : '.' ∉ extension.toList ∧ '/' ∉ extension.toList ∧
      contentTypeFor extension.toList = contentType := by
    simp only [allowedContentTypes, List.mem_cons, List.not_mem_nil, or_false,
      Prod.mk.injEq] at hmem
    rcases hmem with
      ⟨rfl, rfl⟩ | ⟨rfl, rfl⟩ | ⟨rfl, rfl⟩ | ⟨rfl, rfl⟩ <;> decide
  obtain ⟨hdot, hslash, hcontent⟩ := hserved
  exact ⟨hdot, hslash, fun start =>
    (contentTypeFor_append hdot start).trans hcontent⟩

section Rules

variable {ε : Type}

theorem wp_deleteLogo {url : Option String}
    {post : Exit ε Unit → Uploads → Prop}
    (h : ∀ t, Cleared uploadsDir url s t → post (.ok ()) t) :
    wp valid (deleteLogo uploadsDir url) post s := by
  unfold deleteLogo
  cases hpath : url.bind belowUploads with
  | none => exact h s (.inl rfl)
  | some path =>
      refine (wp_atomic _ _ _).mpr fun i _ => ?_
      have hremoved : Cleared uploadsDir url s
          (s.setFile (normalize (filePath uploadsDir path)) none) :=
        .inr ⟨path, hpath, rfl⟩
      cases i.disk with
      | none => exact h _ hremoved
      | lostRequest => exact h s (.inl rfl)
      | lostReply => exact h _ hremoved

/-- A logo is refused before anything is done, or the file before is asked to be
removed and its own is written. -/
theorem wp_saveLogo {subdir slot contentType : String} {bytes : Bytes}
    {previousUrl : Option String} {post : Exit ApiError String → Uploads → Prop}
    (hrefused : ∀ err, post (.error err) s)
    (hwritten : ∀ extension uuid t i,
      allowedContentTypes.lookup contentType = some extension →
      Cleared uploadsDir previousUrl s t → valid i t →
      let place := normalize (join (join uploadsDir.toList subdir.toList)
        (logoFile slot uuid extension).toList)
      (i.disk = .none → post (.ok (logoUrl subdir slot uuid extension))
        (t.setFile place (some bytes))) ∧
      (i.disk = .lostRequest → post (.error .internal) t) ∧
      (i.disk = .lostReply →
        post (.error .internal) (t.setFile place (some i.torn)))) :
    wp valid (saveLogo uploadsDir subdir slot contentType bytes previousUrl)
      post s := by
  unfold saveLogo
  split
  · exact hrefused _
  rw [wp_bind]
  cases hextension : allowedContentTypes.lookup contentType with
  | none => exact hrefused _
  | some extension =>
      change wp valid (createDirAll >>= _) post s
      rw [wp_bind]
      refine (wp_atomic _ _ _).mpr fun i _ => ?_
      cases i.disk with
      | none =>
          change wp valid (deleteLogo uploadsDir previousUrl >>= _) post s
          rw [wp_bind]
          refine wp_deleteLogo fun t hcleared => ?_
          change wp valid (newUuid >>= _) post t
          rw [wp_bind]
          refine (wp_atomic _ _ _).mpr fun j _ => ?_
          change wp valid (writeFile _ bytes >>= _) post t
          rw [wp_bind]
          refine (wp_atomic _ _ _).mpr fun k hk => ?_
          obtain ⟨hok, hlost, htorn⟩ :=
            hwritten extension j.uuid t k hextension hcleared hk
          cases hdisk : k.disk with
          | none => exact hok hdisk
          | lostRequest => exact hlost hdisk
          | lostReply => exact htorn hdisk
      | lostRequest => exact hrefused _
      | lostReply => exact hrefused _

end Rules

theorem toList_logoFile (slot : String) (uuid : Uuid) (extension : String) :
    (logoFile slot uuid extension).toList =
      slot.toList ++ '-' :: (uuid.toString.toList ++
        '.' :: extension.toList) := by
  have htext : logoFile slot uuid extension =
      slot ++ "-" ++ uuid.toString ++ "." ++ extension := rfl
  rw [htext]
  simp

theorem isName_logoFile {slot extension : String} (hslot : '/' ∉ slot.toList)
    (hextension : '/' ∉ extension.toList) (uuid : Uuid) :
    IsName (logoFile slot uuid extension).toList := by
  rw [toList_logoFile]
  have hdash : '-' ∈ slot.toList ++
      '-' :: (uuid.toString.toList ++ '.' :: extension.toList) :=
    List.mem_append_right _ List.mem_cons_self
  refine ⟨List.ne_nil_of_mem hdash, ?_, ne_of_mem_of_not_mem' hdash (by decide),
    ne_of_mem_of_not_mem' hdash (by decide)⟩
  simp [hslot, hextension, uuid.slash_notMem]

/-- The file of a logo is the one its address is read from. -/
theorem filePath_logoPath {subdir slot extension : String}
    (hsubdir : Folder subdir) (hslot : '/' ∉ slot.toList)
    (hextension : '/' ∉ extension.toList) (uuid : Uuid) :
    filePath uploadsDir (logoPath subdir slot uuid extension) =
      join (join uploadsDir.toList subdir.toList)
        (logoFile slot uuid extension).toList := by
  obtain ⟨hne, hslash, -, -⟩ := isName_logoFile hslot hextension uuid
  have hfile : isAbsolute (logoFile slot uuid extension).toList = false := by
    simpa using isAbsolute_append hne hslash []
  exact (join_join hsubdir.toList_ne_nil hsubdir.slash_notMem hfile
    uploadsDir.toList).symm

/-- The file system does what it is asked. -/
def Readable (i : DiskInput) (_ : Uploads) : Prop :=
  i.disk = .none

instance (i : DiskInput) (s : Uploads) : Decidable (Readable i s) :=
  inferInstanceAs (Decidable (_ = _))

/-- Before the first upload. -/
def initial : Uploads :=
  ⟨⟨"ServCat", none, false, "UTC"⟩, .empty, fun _ => none, []⟩

end Uploads

end Servcat
