/-
The addresses of the login page that redirects lead to, and what the login page
reads from their query strings.
-/
import Servcat.Accounts.Sample
import Servcat.Uri.Urlencoded

namespace Servcat

open Atomic Uri

namespace Accounts

namespace Web

structure LoginQuery where
  next : Option String
  error : Bool
  reset : Bool
deriving DecidableEq, Repr

/-- The fields of a login query that were read so far. -/
structure LoginFields where
  next : Option String
  error : Option Bool
  reset : Option Bool

/-- `bool::from_str`. -/
def parseBool : String → Option Bool
  | "true" => some true
  | "false" => some false
  | _ => none

/-- A field must not come twice, and an unknown one is passed over. -/
def LoginFields.visit (fields : LoginFields) :
    String × String → Option LoginFields
  | ("next", value) =>
      if fields.next.isSome then none
      else some { fields with next := some value }
  | ("error", value) =>
      if fields.error.isSome then none
      else (parseBool value).map fun error =>
        { fields with error := some error }
  | ("reset", value) =>
      if fields.reset.isSome then none
      else (parseBool value).map fun reset =>
        { fields with reset := some reset }
  | _ => some fields

/-- The extractor `Query<LoginQuery>`; `none` rejects the request. -/
def LoginQuery.parse (text : String) : Option LoginQuery := do
  let fields ← (pairs text).foldlM LoginFields.visit ⟨none, none, none⟩
  return {
    next := fields.next
    error := fields.error.getD false
    reset := fields.reset.getD false }

/-- What `urlencodingEncode` makes of a byte. -/
def encodedByte (byte : UInt8) : List Char :=
  let c := Char.ofNat byte.toNat
  if c.isAlphanum || c ∈ ['-', '_', '.', '~', '/', '?', '='] then [c]
  else ['%', hexDigit (byte.toNat / 16), hexDigit (byte.toNat % 16)]

theorem urlencodingEncode_eq (s : String) :
    urlencodingEncode s = .ofList ((utf8 s).flatMap encodedByte) :=
  rfl

theorem encodedByte_spec (byte : UInt8) :
    Encodes byte ((encodedByte byte).map Char.toUInt8) ∧
      ∀ c ∈ encodedByte byte, c.toNat < 128 ∧ c ≠ '#' := by
  have hall : ∀ n < 256, let byte := UInt8.ofNat n
      let written := (encodedByte byte).map Char.toUInt8
      (written = [byte] ∧ byte ≠ '%'.toUInt8 ∧ byte ≠ '+'.toUInt8 ∧
        byte ≠ '&'.toUInt8 ∨ written = escape byte) ∧
          (encodedByte byte).all (fun c => c.toNat < 128 ∧ c ≠ '#') = true := by
    decide +kernel
  have hbyte := hall byte.toNat byte.toNat_lt
  rw [UInt8.ofNat_toNat] at hbyte
  obtain ⟨⟨hraw, hpercent, hplus, hamp⟩ | hescaped, hchars⟩ := hbyte
  · exact ⟨hraw ▸ .raw hpercent hplus hamp, literal hchars⟩
  · exact ⟨hescaped ▸ .escaped, literal hchars⟩

theorem encoded_chars {s : String} {c : Char}
    (hc : c ∈ (utf8 s).flatMap encodedByte) :
    c.toNat < 128 ∧ c ≠ '#' := by
  obtain ⟨byte, -, hc⟩ := List.mem_flatMap.mp hc
  exact (encodedByte_spec byte).2 c hc

/-- The bytes of a field that holds an encoded text. -/
theorem utf8_field {name : List Char} (hname : ∀ c ∈ name, c.toNat < 128)
    (s : String) :
    utf8 (.ofList (name ++ '=' :: (utf8 s).flatMap encodedByte)) =
      name.map Char.toUInt8 ++ '='.toUInt8 ::
        (utf8 s).flatMap fun byte => (encodedByte byte).map Char.toUInt8 := by
  have hascii : ∀ c ∈ name ++ '=' :: (utf8 s).flatMap encodedByte,
      c.toNat < 128 := by
    intro c hc
    rcases List.mem_append.mp hc with hc | hc
    · exact hname c hc
    · rcases List.mem_cons.mp hc with rfl | hc
      · decide
      · exact (encoded_chars hc).1
  rw [utf8_ofList_ascii hascii, List.map_append, List.map_cons,
    List.map_flatMap]

/-- Where a page behind the login sends a browser without a session. -/
def loginPath (path : String) : String :=
  s!"/login?next={urlencodingEncode path}"

theorem loginPath_eq (path : String) :
    loginPath path = .ofList (['/', 'l', 'o', 'g', 'i', 'n'] ++ '?' ::
      (['n', 'e', 'x', 't'] ++ '=' :: (utf8 path).flatMap encodedByte)) := by
  have htext : loginPath path = "/login?next=" ++ urlencodingEncode path := rfl
  rw [htext, urlencodingEncode_eq, ← String.toList_inj, String.toList_append,
    String.toList_ofList, String.toList_ofList]
  simp

theorem pairs_loginPath (path : String) :
    pairs (query (loginPath path)) = [("next", path)] := by
  have hencodes : ∀ byte, Encodes byte ((encodedByte byte).map Char.toUInt8) :=
    fun byte => (encodedByte_spec byte).1
  have hquery : query (loginPath path) =
      .ofList (['n', 'e', 'x', 't'] ++
        '=' :: (utf8 path).flatMap encodedByte) := by
    have hnone : ∀ c ∈ ['n', 'e', 'x', 't'] ++
        '=' :: (utf8 path).flatMap encodedByte,
        decide (c ≠ '#') = true := by
      intro c hc
      rw [decide_eq_true_eq]
      rcases List.mem_append.mp hc with hc | hc
      · exact ne_of_mem_of_not_mem hc (by decide)
      · rcases List.mem_cons.mp hc with rfl | hc
        · decide
        · exact (encoded_chars hc).2
    rw [loginPath_eq, query_append (literal (by decide)),
      List.takeWhile_eq_self_iff.mpr hnone]
  have hname : ∀ c ∈ ['n', 'e', 'x', 't'], c.toNat < 128 := literal (by decide)
  have hfield := utf8_field hname path
  rw [hquery, pairs_eq_singleton hfield (by decide), decode_flatMap hencodes,
    decode_ascii (literal (by decide))]
  rw [hfield, List.mem_append, List.mem_cons, not_or, not_or]
  exact ⟨by decide, by decide, amp_notMem_flatMap hencodes _⟩

/-- A property of what a program returns, if it returns. -/
def Returns {ε α : Type} (P : α → Prop) (x : Exit ε α) (_ : Accounts) : Prop :=
  ∀ a, x = .ok a → P a

theorem returns_bind {ε α β : Type} {valid : Draw → Accounts → Prop}
    {p : Async ε α} {k : α → Async ε β} {P : β → Prop} {s : Accounts}
    (h : ∀ a t, Runs valid p s (.ok a) t → wp valid (k a) (Returns P) t) :
    wp valid (p >>= k) (Returns P) s := by
  rw [wp_bind]
  refine (wp_iff_runs _ _ _).mpr fun x t hrun => ?_
  cases x with
  | ok a => exact h a t hrun
  | error err => exact fun _ heq => by cases heq
  | panicked => exact fun _ heq => by cases heq

variable (deps : AuthDeps)

/-- A browser without a session is sent to the login page, and the page it asked
for can be read from there; every other response is that of the page. -/
theorem requireSession_returns (cookies : Cookies) (path : String)
    (next : User → Async ApiError Page) :
    ∃ location, pairs (query location) = [("next", path)] ∧
      (∀ (valid : Draw → Accounts → Prop) s response t,
        Runs valid (requireSession deps cookies path next) s (.ok response) t →
          response = ⟨.redirect location, .keep⟩ ∨
            ∃ user s' t',
              Runs valid (respond (next user)) s' (.ok response.page) t') ∧
      ∀ (valid : Draw → Accounts → Prop) s,
        Runs valid (requireSession deps ⟨none, none⟩ path next) s
          (.ok ⟨.redirect location, .keep⟩) s := by
  refine ⟨loginPath path, pairs_loginPath path,
    fun valid s response t hrun => ?_, fun valid s => .exit _ s⟩
  let P : PageResponse → Prop := fun response =>
    response = ⟨.redirect (loginPath path), .keep⟩ ∨
      ∃ user s' t', Runs valid (respond (next user)) s' (.ok response.page) t'
  have hpage : ∀ user cookies s', wp valid
      (respond (next user) >>=
        fun page => return (⟨page, cookies⟩ : PageResponse))
      (Returns P) s' := by
    intro user cookies s'
    refine returns_bind fun page t' hpage => ?_
    rintro _ ⟨⟩
    exact .inr ⟨user, s', t', hpage⟩
  have hall : wp valid (requireSession deps cookies path next)
      (Returns P) s := by
    refine returns_bind fun current s₁ _ => ?_
    cases current with
    | some user => exact hpage user .keep s₁
    | none =>
        refine returns_bind fun renewed s₂ _ => ?_
        cases renewed with
        | some session =>
            exact hpage session.1 (.set session.2.1 session.2.2) s₂
        | none =>
            rintro _ ⟨⟩
            exact .inl rfl
  exact hrun.ensures hall response rfl

/-- The browser is sent to an address at which the login page says that the
login failed, and goes on to `next` after the next one. -/
def ShowsFailure (page : Page) (next : String) : Prop :=
  ∃ location parsed, page = .redirect location ∧
    LoginQuery.parse (query location) = some parsed ∧ parsed.error = true ∧
      parsed.next = some next

/-- A flag is not read from a number. -/
theorem parse_failed (next : String) :
    LoginQuery.parse (query s!"/login?error=1&next={next}") = none := by
  let field := ['e', 'r', 'r', 'o', 'r', '=', '1', '&']
  let rest := (['n', 'e', 'x', 't', '='] ++ next.toList).takeWhile (· ≠ '#')
  have htext : s!"/login?error=1&next={next}" =
      .ofList (['/', 'l', 'o', 'g', 'i', 'n'] ++ '?' ::
        (field ++ (['n', 'e', 'x', 't', '='] ++ next.toList))) := by
    have hparts : s!"/login?error=1&next={next}" =
        "/login?error=1&next=" ++ next := rfl
    rw [hparts, ← String.toList_inj, String.toList_append, String.toList_ofList]
    simp [field]
  have hquery : query s!"/login?error=1&next={next}" =
      .ofList (field ++ rest) := by
    rw [htext, query_append (literal (by decide)),
      List.takeWhile_append_of_pos (literal (by decide))]
  have hbytes : utf8 (.ofList (field ++ rest)) =
      ['e', 'r', 'r', 'o', 'r'].map Char.toUInt8 ++
        '='.toUInt8 :: ['1'].map Char.toUInt8 ++
          '&'.toUInt8 :: utf8 (.ofList rest) := by
    rw [String.ofList_append, utf8_append,
      utf8_ofList_ascii (literal (by decide))]
    rfl
  have hpairs : pairs (.ofList (field ++ rest)) =
      ("error", "1") :: pairs (.ofList rest) := by
    rw [pairs_eq_cons hbytes (by decide) (by decide),
      decode_ascii (literal (by decide)), decode_ascii (literal (by decide))]
  rw [hquery, LoginQuery.parse, hpairs]
  rfl

theorem submitLogin_page {valid : Draw → Accounts → Prop} {deps : AuthDeps}
    {email password : String} {next : Option String} {s t : Accounts}
    {response : PageResponse}
    (hrun : Runs valid (submitLogin deps email password next) s
      (.ok response) t) :
    response.page = .redirect (safeNext next) ∧ response.cookies ≠ .keep ∨
      response =
        ⟨.redirect s!"/login?error=1&next={safeNext next}", .keep⟩ := by
  let P : PageResponse → Prop := fun response =>
    response.page = .redirect (safeNext next) ∧ response.cookies ≠ .keep ∨
      response = ⟨.redirect s!"/login?error=1&next={safeNext next}", .keep⟩
  have hall : wp valid (submitLogin deps email password next)
      (Returns P) s := by
    refine returns_bind fun result s' _ => ?_
    cases result with
    | ok tokens =>
        rintro _ ⟨⟩
        exact .inl ⟨rfl, by simp⟩
    | error err =>
        rintro _ ⟨⟩
        exact .inr rfl
  exact hrun.ensures hall response rfl

/-- A login that failed is never shown as one. -/
theorem failed_login_unshown {valid : Draw → Accounts → Prop} {deps : AuthDeps}
    {email password : String} {next : Option String} {s t : Accounts}
    {response : PageResponse}
    (hrun : Runs valid (submitLogin deps email password next) s
      (.ok response) t)
    (hfailed : response.cookies = .keep) :
    ¬ ShowsFailure response.page (safeNext next) := by
  rcases submitLogin_page hrun with ⟨-, hcookies⟩ | rfl
  · exact absurd hfailed hcookies
  · rintro ⟨location, parsed, hpage, hparsed, -⟩
    obtain rfl := Page.redirect.inj hpage
    rw [parse_failed] at hparsed
    cases hparsed

theorem safeNext_some (n : String) :
    safeNext (some n) =
      if ['/'] <+: n.toList ∧ ¬ ['/', '/'] <+: n.toList then n else "/" := by
  have hslash : "/".toList = ['/'] := rfl
  have hslashes : "//".toList = ['/', '/'] := rfl
  unfold safeNext
  simp only [Bool.and_eq_true, Bool.not_eq_true', String.startsWith_string_iff,
    String.startsWith_string_eq_false_iff, hslash, hslashes]

theorem safeNext_catalog : safeNext (some "/catalog") = "/catalog" := by
  rw [safeNext_some, if_pos (by decide)]

/-- A login with an unknown email. -/
theorem unknown_email_redirected : ∃ t,
    Runs Draw.Admitted
      (submitLogin Sample.deps "eve@example.org" "guess" (some "/catalog"))
      Sample.empty
        (.ok ⟨.redirect "/login?error=1&next=/catalog", .keep⟩) t := by
  have hrun (target : String) (htarget : safeNext (some "/catalog") = target) :
      Runs Draw.Admitted
        (submitLogin Sample.deps "eve@example.org" "guess" (some "/catalog"))
          Sample.empty
        (.ok ⟨.redirect s!"/login?error=1&next={target}", .keep⟩)
          Sample.empty := by
    subst htarget
    exact @runs_of_runAlone _ _ _ _ _ _ _ (Sample.draws 0 0) _ _ _ rfl
  exact ⟨_, hrun _ safeNext_catalog⟩

theorem failed_login_unshown_sampled :
    ¬ ShowsFailure (.redirect "/login?error=1&next=/catalog")
      (safeNext (some "/catalog")) := by
  obtain ⟨t, hrun⟩ := unknown_email_redirected
  exact failed_login_unshown hrun rfl

/-- The path is one of this site, and yet the login page does not
get it back. -/
theorem failed_login_loses_path : ∃ response t,
    safeNext (some "/catalog") = "/catalog" ∧
      Runs Draw.Admitted
        (submitLogin Sample.deps "eve@example.org" "guess" (some "/catalog"))
        Sample.empty (.ok response) t ∧
      response = ⟨.redirect "/login?error=1&next=/catalog", .keep⟩ ∧
      ¬ ShowsFailure response.page "/catalog" := by
  obtain ⟨t, hrun⟩ := unknown_email_redirected
  refine ⟨_, t, safeNext_catalog, hrun, rfl, ?_⟩
  rintro ⟨location, parsed, hpage, hparsed, -⟩
  obtain rfl := Page.redirect.inj hpage
  have hnone : LoginQuery.parse (query "/login?error=1&next=/catalog") = none :=
    parse_failed "/catalog"
  rw [hnone] at hparsed
  cases hparsed

end Web

end Accounts

end Servcat
