/-
A small deployment of the accounts: hashes one can read, access tokens that
are as long as the number of their user, and an admin who is there from the
first start on.
-/
import Servcat.Accounts.Effects
import Servcat.Sample

namespace Servcat

open Atomic Keyed

namespace Accounts

namespace Sample

def id (n : Nat) : Uuid :=
  Servcat.Sample.id n

/-- The letter of a role in an access token. -/
def letter : Role → Char
  | .requester => 'r'
  | .approver => 'p'
  | .agent => 'g'
  | .admin => 'a'

def roleOf (c : Char) : Option Role :=
  [Role.requester, .approver, .agent, .admin].find? fun role => letter role = c

def accessToken (user : User) : String :=
  .ofList (List.replicate user.id.bits.toNat (letter user.role))

def deps : AuthDeps where
  collation := fun a b => decide (a ≤ b)
  sha256Hex := fun token => "#" ++ token
  argon2Hash := fun _ password => some ("$" ++ password)
  argon2Verify := fun password hash => some (hash == "$" ++ password)
  issueAccessToken := fun _ user => .ok (accessToken user)
  verifyAccessToken := fun _ token =>
    (token.toList.head?.bind roleOf).map fun role =>
      (id token.toList.length, role)
  parseUuid := fun _ => none
  refreshTokenTtl := 60
  mailer := none

def empty : Accounts where
  users := .empty
  departments := []
  sessions := .empty
  passwordResets := .empty
  auditLog := []
  orgSettings :=
    (Servcat.Sample.world Servcat.Sample.approvalThenTicket).db.orgSettings
  now := 0
  log := []

/-- What a request is given at its steps: no fault, and identifiers and tokens
from `first` on. -/
def draws (thread first : Nat) : List Draw :=
  (List.range 30).map fun k =>
    ⟨⟨thread, id (first + k), .none⟩, toString (first + k)⟩

/-- One request alone: its exit and the state after it. -/
def perform (req : AccountRequest) (first : Nat) (s : Accounts) :
    Option (Exit ApiError AccountReply × Accounts) :=
  runAlone Draw.Admitted (req.serve deps) (draws 0 first) s

/-- The state after some requests, each with the number from which
on it draws. -/
def run : List (AccountRequest × Nat) → Accounts → Option Accounts
  | [], s => some s
  | (req, first) :: rest, s =>
      (perform req first s).bind fun result => run rest result.2

theorem serial_of_run {guard : Accounts → AccountRequest → Prop}
    {reqs : List (AccountRequest × Nat)} {s t : Accounts}
    (hguard : ∀ req ∈ reqs, ∀ s, guard s req.1) (hrun : run reqs s = some t) :
    Serial deps guard s t := by
  induction reqs generalizing s with
  | nil =>
      cases hrun
      exact .refl
  | cons req rest ih =>
      obtain ⟨result, hperform, hrest⟩ := Option.bind_eq_some_iff.mp hrun
      have hstep : SerialStep deps guard s result.2 :=
        .request (hguard req List.mem_cons_self s) (runs_of_runAlone hperform)
      exact .head hstep
        (ih (fun r hr => hguard r (List.mem_cons_of_mem _ hr)) hrest)

/-- The admin of the first start is user 3. -/
def bootstrap : AccountRequest × Nat :=
  (.bootstrapAdmin "root@example.org" "correct horse", 0)

/-- The access token of the admin. -/
def admin : Option String :=
  some "aaa"

/-- The admin adds user 13, a requester. -/
def addUser : AccountRequest × Nat :=
  (.createUser admin
    { email := "ada@example.org"
      displayName := "ada"
      password := some "battery staple"
      externalIdpSubject := none
      departmentId := none
      managerUserId := none
      role := .requester }, 10)

/-- The user signs in and is given the refresh token 22. -/
def login : AccountRequest × Nat :=
  (.login "ada@example.org" "battery staple", 20)

end Sample

end Accounts

end Servcat
