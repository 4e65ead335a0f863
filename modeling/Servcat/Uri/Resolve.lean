/-
Where a relative address leads, read against an address of the web: the states
that the standard's parser goes through before the path, and what they come to.
-/
import Mathlib.Data.List.DropRight
import Mathlib.Data.List.TakeWhile
import Mathlib.Data.Nat.Notation

namespace Uri

inductive Scheme where
  | http
  | https
deriving DecidableEq, Repr

def Scheme.defaultPort : Scheme → ℕ
  | http => 80
  | https => 443

/-- The origin of an address; the port is the one that is used. -/
structure WebOrigin (Host : Type) where
  scheme : Scheme
  host : Host
  port : ℕ
deriving DecidableEq, Repr

/-- A backslash is a slash in these schemes. -/
def isSlash (c : Char) : Bool :=
  c == '/' || c == '\\'

def endsAuthority (c : Char) : Bool :=
  isSlash c || c == '?' || c == '#'

def isC0ControlOrSpace (c : Char) : Bool :=
  c.toNat ≤ 0x20

def isTabOrNewline (c : Char) : Bool :=
  c == '\t' || c == '\n' || c == '\r'

/-- The address as the states read it. -/
def clean (address : List Char) : List Char :=
  ((address.dropWhile isC0ControlOrSpace).rdropWhile isC0ControlOrSpace).filter
    fun c => !isTabOrNewline c

section States

variable {Host : Type} (parseHost : List Char → Option Host)
  (base : WebOrigin Host)

def portDone (host : Host) (digits : List Char) : Option (WebOrigin Host) :=
  if digits = [] then some ⟨base.scheme, host, base.scheme.defaultPort⟩
  else if Nat.ofDigitChars 10 digits 0 ≤ 65535 then
    some ⟨base.scheme, host, Nat.ofDigitChars 10 digits 0⟩
  else none

def portState (host : Host) (buffer : List Char) :
    List Char → Option (WebOrigin Host)
  | [] => portDone base host buffer
  | c :: rest =>
      if c.isDigit then portState host (buffer ++ [c]) rest
      else if endsAuthority c then portDone base host buffer
      else none

def hostDone (buffer : List Char) : Option (WebOrigin Host) :=
  if buffer = [] then none
  else (parseHost buffer).map fun host =>
    ⟨base.scheme, host, base.scheme.defaultPort⟩

/-- Whether the state is inside brackets after one more character. -/
def bracketed (inside : Bool) (c : Char) : Bool :=
  if c = '[' then true else if c = ']' then false else inside

def hostState (inside : Bool) (buffer : List Char) :
    List Char → Option (WebOrigin Host)
  | [] => hostDone parseHost base buffer
  | c :: rest =>
      if c = ':' ∧ inside = false then
        if buffer = [] then none
        else (parseHost buffer).bind fun host => portState base host [] rest
      else if endsAuthority c then hostDone parseHost base buffer
      else hostState (bracketed inside c) (buffer ++ [c]) rest

/-- The pointer goes back to where the buffer starts once the
credentials are read. -/
def authorityState (atSignSeen : Bool) (buffer : List Char) :
    List Char → Option (WebOrigin Host)
  | [] =>
      if atSignSeen = true ∧ buffer = [] then none
      else hostState parseHost base false [] buffer
  | c :: rest =>
      if c = '@' then authorityState true [] rest
      else if endsAuthority c then
        if atSignSeen = true ∧ buffer = [] then none
        else hostState parseHost base false [] (buffer ++ c :: rest)
      else authorityState atSignSeen (buffer ++ [c]) rest

def ignoreSlashesState : List Char → Option (WebOrigin Host)
  | [] => authorityState parseHost base false [] []
  | c :: rest =>
      if isSlash c then ignoreSlashesState rest
      else authorityState parseHost base false [] (c :: rest)

/-- The states of the path, the query and the fragment leave the
host as it is. -/
def relativeSlashState : List Char → Option (WebOrigin Host)
  | [] => some base
  | c :: rest =>
      if isSlash c then ignoreSlashesState parseHost base rest else some base

def relativeState : List Char → Option (WebOrigin Host)
  | [] => some base
  | c :: rest =>
      if isSlash c then relativeSlashState parseHost base rest else some base

/-- The origin that an address without a scheme has, if it is one. -/
def resolve (address : List Char) : Option (WebOrigin Host) :=
  relativeState parseHost base (clean address)

/-- The text between the slashes that an address starts with and its path. -/
def authorityText (address : List Char) : List Char :=
  (address.dropWhile isSlash).takeWhile fun c => !endsAuthority c

/-- The host, and what is after the first colon that is not in brackets. -/
def splitPort (inside : Bool) : List Char → List Char × List Char
  | [] => ([], [])
  | c :: rest =>
      if c = ':' ∧ inside = false then ([], rest)
      else
        let (host, port) := splitPort (bracketed inside c) rest
        (c :: host, port)

def readPort (scheme : Scheme) (digits : List Char) : Option ℕ :=
  if digits.all Char.isDigit = false then none
  else if digits = [] then some scheme.defaultPort
  else if Nat.ofDigitChars 10 digits 0 ≤ 65535 then
    some (Nat.ofDigitChars 10 digits 0)
  else none

/-- The origin that a host and a port name. -/
def readOrigin (scheme : Scheme)
    (host port : List Char) : Option (WebOrigin Host) :=
  if host = [] then none
  else (parseHost host).bind fun host =>
    (readPort scheme port).map fun port => ⟨scheme, host, port⟩

/-- The origin that an authority names: what is before its last at sign
does not count. -/
def readAuthority (scheme : Scheme)
    (text : List Char) : Option (WebOrigin Host) :=
  let (host, port) := splitPort false (text.rtakeWhile (· ≠ '@'))
  readOrigin parseHost scheme host port

/-- An address that names an authority. -/
def hasAuthority (address : List Char) : Bool :=
  ((clean address).takeWhile isSlash).length ≥ 2

/-- A rest of an address that is no longer part of the authority. -/
def Ends (tail : List Char) : Prop :=
  ∀ c ∈ tail.head?, endsAuthority c = true

variable {parseHost base} {text tail : List Char}

theorem endsAuthority_cases {c : Char} (h : endsAuthority c = true) :
    c = '/' ∨ c = '\\' ∨ c = '?' ∨ c = '#' := by
  simpa [endsAuthority, isSlash, or_assoc] using h

theorem portState_append (htext : ∀ c ∈ text, endsAuthority c = false)
    (htail : Ends tail) {host : Host} {buffer : List Char} :
    portState base host buffer (text ++ tail) =
      if text.all Char.isDigit = false then none
      else portDone base host (buffer ++ text) := by
  induction text generalizing buffer with
  | nil =>
      rw [List.append_nil]
      cases tail with
      | nil => rfl
      | cons c rest =>
          have hc := htail c rfl
          have hdigit : c.isDigit = false := by
            rcases endsAuthority_cases hc with rfl | rfl | rfl | rfl <;> rfl
          simp [portState, hc, hdigit]
  | cons c text ih =>
      have hc := htext c List.mem_cons_self
      have hrest :=
        @ih (fun d hd => htext d (List.mem_cons_of_mem _ hd)) (buffer ++ [c])
      cases hdigit : c.isDigit with
      | true => simp [portState, hdigit, hrest]
      | false => simp [portState, hdigit, hc]

theorem portDone_eq (host : Host) (digits : List Char) :
    (if digits.all Char.isDigit = false then none
     else portDone base host digits) =
      (readPort base.scheme digits).map fun port =>
        ⟨base.scheme, host, port⟩ := by
  unfold readPort portDone
  split_ifs <;> rfl

theorem hostDone_eq (buffer : List Char) :
    hostDone parseHost base buffer =
      readOrigin parseHost base.scheme buffer [] := by
  unfold hostDone readOrigin
  split
  · rfl
  · cases parseHost buffer <;> rfl

theorem hostState_append (htext : ∀ c ∈ text, endsAuthority c = false)
    (htail : Ends tail) {inside : Bool} {buffer : List Char} :
    hostState parseHost base inside buffer (text ++ tail) =
      readOrigin parseHost base.scheme (buffer ++ (splitPort inside text).1)
        (splitPort inside text).2 := by
  induction text generalizing inside buffer with
  | nil =>
      rw [splitPort, List.append_nil, List.nil_append, ← hostDone_eq]
      cases tail with
      | nil => rfl
      | cons c rest =>
          have hc := htail c rfl
          have hcolon : c ≠ ':' := by
            rcases endsAuthority_cases hc with rfl | rfl | rfl | rfl <;> decide
          simp [hostState, hc, hcolon]
  | cons c text ih =>
      have hc := htext c List.mem_cons_self
      have htext' : ∀ d ∈ text, endsAuthority d = false :=
        fun d hd => htext d (List.mem_cons_of_mem _ hd)
      rw [List.cons_append, hostState, splitPort]
      split
      · rw [List.append_nil, readOrigin]
        congr 1
        refine congrArg (parseHost buffer).bind (funext fun host => ?_)
        rw [portState_append htext' htail, List.nil_append, portDone_eq]
      · rw [if_neg (by simp [hc]), ih htext']
        simp

theorem rtakeWhile_append_at (before after : List Char) :
    (before ++ '@' :: after).rtakeWhile (· ≠ '@') = after.rtakeWhile
      (· ≠ '@') := by
  have hafter : (after.reverse ++ '@' :: before.reverse).takeWhile (· ≠ '@') =
      after.reverse.takeWhile (· ≠ '@') := by
    rw [List.takeWhile_append]
    split
    · rename_i hlength
      rw [(List.takeWhile_prefix _).eq_of_length hlength]
      simp
    · rfl
  rw [List.rtakeWhile, List.rtakeWhile, ← hafter]
  simp

theorem rtakeWhile_of_notMem {buffer : List Char} (h : '@' ∉ buffer) :
    buffer.rtakeWhile (· ≠ '@') = buffer := by
  rw [List.rtakeWhile_eq_self_iff]
  intro c hc
  exact decide_eq_true (ne_of_mem_of_not_mem hc h)

/-- Nothing is left for the host. -/
theorem hostState_nil (htail : Ends tail) :
    hostState parseHost base false [] tail = none := by
  have h := @hostState_append _ parseHost base [] tail (by simp) htail false []
  rw [List.nil_append] at h
  rw [h]
  rfl

theorem authorityState_append (htext : ∀ c ∈ text, endsAuthority c = false)
    (htail : Ends tail) {seen : Bool} {buffer : List Char}
    (hbuffer : '@' ∉ buffer) :
    authorityState parseHost base seen buffer (text ++ tail) =
      hostState parseHost base false []
        ((buffer ++ text).rtakeWhile (· ≠ '@') ++ tail) := by
  induction text generalizing seen buffer with
  | nil =>
      have hdone : (if seen = true ∧ buffer = [] then none
          else hostState parseHost base false [] (buffer ++ tail)) =
            hostState parseHost base false [] (buffer ++ tail) := by
        split
        · rename_i h
          rw [h.2, List.nil_append, hostState_nil htail]
        · rfl
      rw [List.append_nil, rtakeWhile_of_notMem hbuffer,
        List.nil_append, ← hdone]
      cases tail with
      | nil => rw [authorityState, List.append_nil]
      | cons c rest =>
          have hc := htail c rfl
          have hat : c ≠ '@' := by
            rcases endsAuthority_cases hc with rfl | rfl | rfl | rfl <;> decide
          rw [authorityState, if_neg hat, if_pos hc]
  | cons c text ih =>
      have hc := htext c List.mem_cons_self
      have htext' : ∀ d ∈ text, endsAuthority d = false :=
        fun d hd => htext d (List.mem_cons_of_mem _ hd)
      rw [List.cons_append, authorityState]
      split
      · rename_i hat
        rw [ih htext' List.not_mem_nil, hat, rtakeWhile_append_at,
          List.nil_append]
      · rename_i hat
        have hbuffer' : '@' ∉ buffer ++ [c] := by
          rw [List.mem_append, List.mem_singleton, not_or]
          exact ⟨hbuffer, Ne.symm hat⟩
        rw [if_neg (by simp [hc]), ih htext' hbuffer', List.append_assoc,
          List.singleton_append]

theorem ends_dropWhile (address : List Char) :
    Ends (address.dropWhile fun c => !endsAuthority c) := by
  intro c hc
  have hnot := List.head?_dropWhile_not (fun c => !endsAuthority c) address
  rw [hc] at hnot
  simpa using hnot

/-- The authority ends where the path starts. -/
theorem authorityState_eq (address : List Char) :
    authorityState parseHost base false [] address =
      readAuthority parseHost base.scheme
        (address.takeWhile fun c => !endsAuthority c) := by
  have htail := ends_dropWhile address
  have hsplit := List.takeWhile_append_dropWhile
      (p := fun c => !endsAuthority c) (l := address)
  generalize htext : address.takeWhile (fun c => !endsAuthority c) =
    text at hsplit
  generalize address.dropWhile (fun c => !endsAuthority c) =
    tail at hsplit htail
  have hinside : ∀ c ∈ text, endsAuthority c = false := by
    intro c hc
    rw [← htext] at hc
    simpa using List.mem_takeWhile_imp (p := fun c => !endsAuthority c) hc
  have hhost : ∀ c ∈ text.rtakeWhile (· ≠ '@'), endsAuthority c = false :=
    fun c hc => hinside c ((List.rtakeWhile_suffix _ _).subset hc)
  rw [← hsplit, authorityState_append hinside htail List.not_mem_nil,
    List.nil_append, hostState_append hhost htail, List.nil_append]
  rfl

theorem ignoreSlashesState_eq (address : List Char) :
    ignoreSlashesState parseHost base address =
      readAuthority parseHost base.scheme (authorityText address) := by
  induction address with
  | nil => exact authorityState_eq []
  | cons c rest ih =>
      rw [ignoreSlashesState, authorityText]
      split
      · rename_i hslash
        rw [ih, List.dropWhile_cons_of_pos hslash]
        rfl
      · rename_i hslash
        rw [authorityState_eq, List.dropWhile_cons_of_neg hslash]

/-- An address without an authority stays with the base, and any other has the
origin that its authority names. -/
theorem resolve_eq (address : List Char) :
    resolve parseHost base address =
      if hasAuthority address = true then
        readAuthority parseHost base.scheme (authorityText (clean address))
      else some base := by
  unfold resolve hasAuthority
  rcases clean address with _ | ⟨c, _ | ⟨d, rest⟩⟩
  · rfl
  · cases hc : isSlash c <;> simp [relativeState, relativeSlashState, hc]
  · cases hc : isSlash c with
    | false => simp [relativeState, hc]
    | true =>
        cases hd : isSlash d with
        | false => simp [relativeState, relativeSlashState, hc, hd]
        | true =>
            simp [relativeState, relativeSlashState, hc, hd,
              ignoreSlashesState_eq, authorityText]

end States

end Uri
