/-
To whom sessions and the tokens of password resets are issued: along every run,
to someone who signed in, or asked for it by an email of theirs.
-/
import Servcat.Accounts.Gates

namespace Servcat

open Atomic Keyed

namespace Accounts

theorem Drift.tokens {s t : Accounts} (h : s.Drift t) (kind : TokenKind) :
    t.tokens kind = s.tokens kind := by
  cases kind with
  | refresh => exact h.sessions
  | passwordReset => exact h.passwordResets

theorem Since.trans {a b c : IssuedToken} (hab : Since a b)
    (hbc : Since b c) : Since a c where
  id := hbc.id.trans hab.id
  userId := hbc.userId.trans hab.userId
  tokenHash := hbc.tokenHash.trans hab.tokenHash
  expiresAt := hbc.expiresAt.trans hab.expiresAt
  spentAt h := hbc.spentAt (hab.spentAt h)

/-- The token was issued at a step of a request that was entitled to one for
that user, given what its thread had found; before the step there was no
such token. -/
def Issued (deps : AuthDeps) (s : Accounts)
    (c : Config Draw Accounts AccountRequest ApiError AccountReply)
    (kind : TokenKind) (row : IssuedToken) : Prop :=
  ∃ moments b d n req first,
    Timed (server deps) .free ⟨s, []⟩ moments b ∧
    StepOf (server deps) .free n req b d ∧ Reaches (server deps) .free d c ∧
    (∀ old ∈ (b.state.tokens kind).rows, old.id ≠ first.id) ∧
    first ∈ (d.state.tokens kind).rows ∧ Since first row ∧
    Entitled deps (Met ((n, b.state) :: moments) n) req kind row.userId

section Runs

variable {deps : AuthDeps} {s : Accounts} {kind : TokenKind} {row : IssuedToken}
  {b c d : Config Draw Accounts AccountRequest ApiError AccountReply}

theorem Issued.later {old : IssuedToken} (h : Issued deps s c kind old)
    (hcd : Reaches (server deps) .free c d) (hsince : Since old row) :
    Issued deps s d kind row := by
  rcases h with
    ⟨moments, b, e, n, req, first, hrun, hof, hec, hnew, hfirst, hold, h⟩
  refine ⟨moments, b, e, n, req, first, hrun, hof, hec.trans hcd, hnew,
    hfirst, ?_, ?_⟩
  · exact hold.trans hsince
  · rw [hsince.userId]
    exact h

end Runs

namespace Sample

/-- The other user signs in. -/
def signedIn :
    Option (Config Draw Accounts AccountRequest ApiError AccountReply) :=
  (server deps).play .free ⟨twoUsers.get twoUsers_isSome, []⟩
    (.arrive login.1 :: steps 0 40 5)

end Sample

end Accounts

end Servcat
