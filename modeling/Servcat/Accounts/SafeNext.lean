/-
Where a browser goes after a login: the path that `safeNext` lets through is
resolved against the address of the server.
-/
import Servcat.Accounts.LoginPage
import Servcat.Uri.Resolve

namespace Servcat

open Uri

namespace Accounts

namespace Web

variable {Host : Type} (parseHost : List Char → Option Host)
  (server : WebOrigin Host)

/-- Wherever the address leads, it is still the server. -/
def StaysOnSite (address : String) : Prop :=
  ∀ origin, resolve parseHost server address.toList = some origin →
    origin = server

/-- The authority that a browser finds in the text, if it can read it, is
the server. -/
def NamesServer (next : String) : Prop :=
  ∀ origin,
    readAuthority parseHost server.scheme (authorityText (clean next.toList)) =
      some origin →
    origin = server

variable {parseHost server}

theorem staysOnSite_slash : StaysOnSite parseHost server "/" := by
  rintro origin ⟨⟩
  rfl

theorem staysOnSite_iff {address : String} :
    StaysOnSite parseHost server address ↔
    hasAuthority address.toList = false ∨
      NamesServer parseHost server address := by
  unfold StaysOnSite NamesServer
  rw [resolve_eq]
  cases hasAuthority address.toList with
  | false => simp
  | true => simp

/-- A browser stays on the site exactly if the text is refused because it does
not start with a slash or starts with two, or no second slash or backslash
follows its first, or the authority that then follows is the server's own or is
none that a browser can read. -/
theorem safeNext_staysOnSite_iff (parseHost : List Char → Option Host)
    (server : WebOrigin Host) (next : String) :
    StaysOnSite parseHost server (safeNext (some next)) ↔
      ¬ (['/'] <+: next.toList ∧ ¬ ['/', '/'] <+: next.toList) ∨
        hasAuthority next.toList = false ∨
          NamesServer parseHost server next := by
  rw [safeNext_some]
  by_cases hguard : ['/'] <+: next.toList ∧ ¬ ['/', '/'] <+: next.toList
  · rw [if_pos hguard, staysOnSite_iff]
    exact (or_iff_right (not_not_intro hguard)).symm
  · rw [if_neg hguard]
    exact iff_of_true staysOnSite_slash (.inl hguard)

/-- The names of hosts that need no other reading. -/
def domain (text : List Char) : Option String :=
  some (String.ofList (text.map Char.toLower))

/-- A backslash is as good as the slash that is looked for. -/
theorem safeNext_backslash :
    safeNext (some "/\\evil.example") = "/\\evil.example" ∧
      resolve domain ⟨.https, "desk.example", 443⟩
        (safeNext (some "/\\evil.example")).toList =
          some ⟨.https, "evil.example", 443⟩ ∧
      ¬ StaysOnSite domain ⟨.https, "desk.example", 443⟩
        (safeNext (some "/\\evil.example")) := by
  have hsafe : safeNext (some "/\\evil.example") = "/\\evil.example" := by
    rw [safeNext_some, if_pos (by decide)]
  have hresolved : resolve domain ⟨.https, "desk.example", 443⟩
      "/\\evil.example".toList =
      some ⟨.https, "evil.example", 443⟩ := by
    decide
  rw [hsafe]
  exact ⟨rfl, hresolved, fun hstays => absurd (hstays _ hresolved) (by decide)⟩

end Web

end Accounts

end Servcat
