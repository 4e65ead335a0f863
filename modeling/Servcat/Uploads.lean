/-
The logos of the organisation and of its departments: the files they are
kept in, the rows that name them, and the requests that replace, remove
and serve them.
-/
import Servcat.Model.Errors
import Servcat.Posix.Paths
import Servcat.Store.World
import Mathlib.Logic.Function.Basic

namespace Servcat

open Atomic Keyed Posix

abbrev Bytes := List UInt8

structure Department where
  id : Uuid
  name : String
  logoUrl : Option String
  parentDepartmentId : Option Uuid
deriving DecidableEq, Repr

/-- The rows with logos, and what is on the disk; a file is known by its place.
No code looks at the paths that have been read, of which the newest is first. -/
structure Uploads where
  orgSettings : OrgSettings
  departments : Table Department.id
  files : List Component → Option Bytes
  reads : List (List Char)

/-- What a step is given from outside: `disk` is the fault of a call to the file
system, and `torn` what a write that fails after all leaves in its file. -/
structure DiskInput extends Input where
  disk : Fault
  torn : Bytes
deriving DecidableEq, Repr

namespace Uploads

/-- An `async fn` over the logos. -/
abbrev Async (ε α : Type) := Program DiskInput Uploads ε α

section Steps

variable {ε α : Type}

def select (f : Uploads → α) : Async DbError α :=
  .atomic fun i s =>
    match i.fault with
    | .none => (.ok (f s), s)
    | _ => (.error .sqlx, s)

def execute (f : Uploads → Uploads) : Async DbError Unit :=
  .atomic fun i s =>
    match i.fault with
    | .none => (.ok (), f s)
    | .lostRequest => (.error .sqlx, s)
    | .lostReply => (.error .sqlx, f s)

def db (p : Async DbError α) : Async ApiError α :=
  p.mapError .ofDb

def setFile (s : Uploads) (place : List Component)
    (content : Option Bytes) : Uploads :=
  { s with files := Function.update s.files place content }

def noteRead (s : Uploads) (path : List Char) : Uploads :=
  { s with reads := path :: s.reads }

/-- `Uuid::new_v4`. -/
def newUuid : Async ε Uuid :=
  .atomic fun i s => (.ok i.uuid, s)

/-- `tokio::fs::create_dir_all`; directories leave no mark. -/
def createDirAll : Async ApiError Unit :=
  .atomic fun i s =>
    match i.disk with
    | .none => (.ok (), s)
    | _ => (.error .internal, s)

/-- `tokio::fs::write`. -/
def writeFile (path : List Char) (bytes : Bytes) : Async ApiError Unit :=
  .atomic fun i s =>
    match i.disk with
    | .none => (.ok (), s.setFile (normalize path) (some bytes))
    | .lostRequest => (.error .internal, s)
    | .lostReply => (.error .internal, s.setFile (normalize path) (some i.torn))

/-- `tokio::fs::remove_file` where nobody looks at its error. -/
def removeFile (path : List Char) : Async ε Unit :=
  .atomic fun i s =>
    match i.disk with
    | .lostRequest => (.ok (), s)
    | _ => (.ok (), s.setFile (normalize path) none)

/-- `tokio::fs::read`, without its error. -/
def readFile (path : List Char) : Async ε (Option Bytes) :=
  .atomic fun i s =>
    match i.disk with
    | .none =>
        (.ok (if endsInName path then s.files (normalize path) else none),
          s.noteRead path)
    | _ => (.ok none, s.noteRead path)

end Steps

namespace OrgSettings

def get : Async DbError Servcat.OrgSettings :=
  select Uploads.orgSettings

def setLogoUrl (logoUrl : Option String) :
    Async DbError Servcat.OrgSettings := do
  execute fun s => { s with orgSettings := { s.orgSettings with logoUrl } }
  get

end OrgSettings

namespace Departments

def getById (id : Uuid) : Async DbError (Option Department) :=
  select (·.departments.find? id)

def setLogoUrl (id : Uuid) (logoUrl : Option String) :
    Async DbError (Option Department) := do
  execute fun s =>
    { s with
      departments :=
        s.departments.modify id (fun row => { row with logoUrl }) fun _ => rfl }
  getById id

end Departments

def maxLogoBytes : Nat :=
  5 * 1024 * 1024

def allowedContentTypes : List (String × String) :=
  [("image/png", "png"), ("image/jpeg", "jpg"), ("image/svg+xml", "svg"),
    ("image/webp", "webp")]

def logoTooLarge : ApiError :=
  .badRequest "logo must be 5MB or smaller"

def logoTypeNotAllowed : ApiError :=
  .badRequest
    "logo must be PNG, JPEG, SVG, or WebP (set Content-Type accordingly)"

variable (uploadsDir : String)

/-- Where an address below `/uploads/` is on the disk. -/
def filePath (path : List Char) : List Char :=
  join uploadsDir.toList path

/-- The part of an address below `/uploads/`. -/
def belowUploads (url : String) : Option (List Char) :=
  "/uploads/".toList.isPrefixOf? url.toList

def deleteLogo {ε : Type} (url : Option String) : Async ε Unit :=
  match url.bind belowUploads with
  | none => pure ()
  | some relative => removeFile (filePath uploadsDir relative)

/-- Writes the logo to a file of its own and removes the one before; the address
of the new one. -/
def saveLogo (subdir slot contentType : String) (bytes : Bytes)
    (previousUrl : Option String) : Async ApiError String := do
  if bytes.length > maxLogoBytes then .throw logoTooLarge
  else do
    let extension ← .okOr logoTypeNotAllowed
      (allowedContentTypes.lookup contentType)
    let dir := join uploadsDir.toList subdir.toList
    createDirAll
    deleteLogo uploadsDir previousUrl
    let uuid ← newUuid
    let filename := s!"{slot}-{uuid}.{extension}"
    writeFile (join dir filename.toList) bytes
    return s!"/uploads/{subdir}/{filename}"

/-- `require_role(&[Role::Admin])`. -/
def requireAdmin (user : User) : Async ApiError Unit :=
  if user.role = .admin then pure () else .throw .forbidden

def contentTypeMissing : ApiError :=
  .badRequest "Content-Type header is required"

def departmentNotFound : ApiError :=
  .notFound "department not found"

/-- What a department is read or written with, if there is one. -/
def department (p : Async DbError (Option Department)) :
    Async ApiError Department := do
  let found ← db p
  .okOr departmentNotFound found

section Rows

variable {ρ : Type} (row : Async ApiError ρ) (logoUrl : ρ → Option String)
  (setLogoUrl : Option String → Async ApiError ρ)

/-- The logo of a row is replaced. -/
def replaceLogo (subdir slot : String) (contentType : Option String)
    (bytes : Bytes) : Async ApiError ρ := do
  let contentType ← .okOr contentTypeMissing contentType
  let current ← row
  let url ← saveLogo uploadsDir subdir slot contentType bytes (logoUrl current)
  setLogoUrl (some url)

/-- The logo of a row is removed. -/
def clearLogo : Async ApiError ρ := do
  let current ← row
  deleteLogo uploadsDir (logoUrl current)
  setLogoUrl none

end Rows

namespace Settings

def uploadLogo (user : User) (contentType : Option String) (bytes : Bytes) :
    Async ApiError Servcat.OrgSettings := do
  requireAdmin user
  replaceLogo uploadsDir (db OrgSettings.get) Servcat.OrgSettings.logoUrl
    (fun url => db (OrgSettings.setLogoUrl url)) "org" "org" contentType bytes

def removeLogo (user : User) : Async ApiError Servcat.OrgSettings := do
  requireAdmin user
  clearLogo uploadsDir (db OrgSettings.get) Servcat.OrgSettings.logoUrl
    fun url => db (OrgSettings.setLogoUrl url)

end Settings

namespace Departments

def uploadLogo (user : User) (id : Uuid) (contentType : Option String)
    (bytes : Bytes) : Async ApiError Department := do
  requireAdmin user
  replaceLogo uploadsDir (department (getById id)) Department.logoUrl
    (fun url => department (setLogoUrl id url)) "departments" (toString id)
      contentType bytes

def removeLogo (user : User) (id : Uuid) : Async ApiError Department := do
  requireAdmin user
  clearLogo uploadsDir (department (getById id)) Department.logoUrl
    fun url => department (setLogoUrl id url)

end Departments

/-- The response to a request for an upload. -/
inductive Served where
  | notFound
  | file (contentType : String) (bytes : Bytes)
deriving DecidableEq, Repr

def contentTypeFor (path : List Char) : String :=
  match String.ofList ((path.reverse.takeWhile (· ≠ '.')).reverse) with
  | "png" => "image/png"
  | "jpg" => "image/jpeg"
  | "jpeg" => "image/jpeg"
  | "svg" => "image/svg+xml"
  | "webp" => "image/webp"
  | _ => "application/octet-stream"

def rejects (path : List Char) : Bool :=
  (path.splitOn '/').any fun segment => segment = ['.', '.'] ∨ segment = []

/-- `GET /uploads/{*path}`. -/
def serve {ε : Type} (path : List Char) : Async ε Served :=
  if rejects path then pure .notFound
  else do
    match ← readFile (filePath uploadsDir path) with
    | some bytes => return .file (contentTypeFor path) bytes
    | none => return .notFound

end Uploads

end Servcat
