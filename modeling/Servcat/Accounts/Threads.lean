/-
Requests about accounts interleaved statement by statement: how a program is
matched against the moves of its thread.
-/
import Servcat.Accounts.Effects

namespace Servcat

open Atomic Keyed

namespace Accounts

variable {Φ ε α β : Type}

/-- Thread `n`, whose steps are to be these moves. -/
def thread (move : Nat → Φ → Accounts → Φ → Accounts → Prop) (n : Nat) :
    Automaton Draw Accounts Φ :=
  ⟨fun _ i _ => i.thread = n, move n⟩

/-- `Q` holds of the value at the end, if there is one. -/
def Yields (Q : α → Φ → Prop) : Exit ε α → Φ → Prop
  | .ok a, φ => Q a φ
  | _, _ => True

section Rules

variable {move : Nat → Φ → Accounts → Φ → Accounts → Prop} {n : Nat} {φ : Φ}
  {Q : β → Φ → Prop} (idle : ∀ n φ s, move n φ s φ s)

theorem yields_bind {p : Async ε α} {k : α → Async ε β}
    (h : Follows (thread move n)
      (Yields fun a ψ => Follows (thread move n) (Yields Q) (k a) ψ) p φ) :
    Follows (thread move n) (Yields Q) (p >>= k) φ := by
  refine (follows_bind _ _ _ _).mpr (h.mono fun x ψ hx => ?_)
  cases x with
  | ok a => exact hx
  | error | panicked => trivial

theorem yields_db {p : Async DbError β}
    (h : Follows (thread move n) (Yields Q) p φ) :
    Follows (thread move n) (Yields Q) (db p) φ := by
  refine (follows_mapError _ _ _ _).mpr (h.mono fun x ψ hx => ?_)
  cases x with
  | ok a => exact hx
  | error | panicked => trivial

theorem yields_okOr {e : ε} {value : Option α} {k : α → Async ε β}
    (h : ∀ a, value = some a → Follows (thread move n) (Yields Q) (k a) φ) :
    Follows (thread move n) (Yields Q) (.okOr e value >>= k) φ := by
  cases value with
  | none => trivial
  | some a => exact h a rfl

include idle

/-- A writing statement ends in the phase of its effect, unless it has none. -/
theorem yields_execute {f : Draw → Accounts → Option (β × Accounts)}
    (h : ∀ i s b t, i.thread = n → f i s = some (b, t) →
      ∃ φ', move n φ s φ' t ∧ Q b φ') :
    Follows (thread move n) (Yields Q) (execute f) φ := by
  refine (follows_atomic _ _).mpr fun i s hi => ?_
  cases hf : f i s with
  | none => exact ⟨φ, idle n φ s, trivial⟩
  | some result =>
      obtain ⟨b, t⟩ := result
      obtain ⟨φ', hmove, hQ⟩ := h i s b t hi hf
      cases i.fault with
      | none => exact ⟨φ', hmove, hQ⟩
      | lostRequest => exact ⟨φ, idle n φ s, trivial⟩
      | lostReply => exact ⟨φ', hmove, trivial⟩

theorem yields_select {f : Accounts → β}
    (h : ∀ s, ∃ φ', move n φ s φ' s ∧ Q (f s) φ') :
    Follows (thread move n) (Yields Q) (select f) φ := by
  refine (follows_atomic _ _).mpr fun i s _ => ?_
  obtain ⟨φ', hmove, hQ⟩ := h s
  cases i.fault with
  | none => exact ⟨φ', hmove, hQ⟩
  | lostRequest | lostReply => exact ⟨φ, idle n φ s, trivial⟩

/-- Reading in front of the rest of a program. -/
theorem yields_read {f : Accounts → α} {k : α → Async ApiError β}
    (h : ∀ s, ∃ φ',
      move n φ s φ' s ∧ Follows (thread move n) (Yields Q) (k (f s)) φ') :
    Follows (thread move n) (Yields Q) (db (select f) >>= k) φ :=
  yields_bind (yields_db (yields_select idle h))

/-- Reading back the row of a user. -/
theorem getById_yields (id : Uuid) :
    Follows (thread move n)
      (Yields fun found ψ => ψ = φ ∧ ∀ user, found = some user → user.id = id)
      (Users.getById id) φ :=
  yields_select idle fun s =>
    ⟨φ, idle n φ s, rfl, fun _ h => Table.key_of_find? h⟩

theorem yields_utcNow {k : Timestamp → Async ε β}
    (h : ∀ now, Follows (thread move n) (Yields Q) (k now) φ) :
    Follows (thread move n) (Yields Q) (utcNow >>= k) φ :=
  (follows_bind _ _ _ _).mpr
    ((follows_atomic _ _).mpr fun _ s _ => ⟨φ, idle n φ s, h s.now⟩)

theorem yields_random {k : String → Async ε β}
    (h : ∀ token, Follows (thread move n) (Yields Q) (k token) φ) :
    Follows (thread move n) (Yields Q) (random >>= k) φ :=
  (follows_bind _ _ _ _).mpr ((follows_atomic _ _).mpr fun i s _ =>
    ⟨φ, idle n φ s, h i.token⟩)

/-- Redeeming a token is one move to find it and another to mark it. -/
theorem redeem_follows {deps : AuthDeps} {kind : TokenKind} {invalid : ApiError}
    {rawToken : String} (found redeemed : IssuedToken → Φ)
    (hfind : ∀ s token, s.valid? kind (deps.sha256Hex rawToken) = some token →
      move n φ s (found token) (s.record n (.presented kind token)))
    (hmark : ∀ (s : Accounts) token, move n (found token) s (redeemed token)
      ((s.spend kind token.id).record n (.redeemed kind token.id))) :
    Follows (thread move n)
      (Yields fun userId ψ => ∃ token,
        userId = token.userId ∧ ψ = redeemed token)
      (redeem deps kind invalid rawToken) φ := by
  refine yields_bind (yields_db (yields_execute idle ?_))
  rintro i s result t hi hsome
  cases hvalid : s.valid? kind (deps.sha256Hex rawToken) with
  | none =>
      simp only [hvalid, Option.some.injEq, Prod.mk.injEq] at hsome
      obtain ⟨rfl, rfl⟩ := hsome
      exact ⟨φ, idle n φ s, trivial⟩
  | some token =>
      simp only [hvalid, Option.some.injEq, Prod.mk.injEq] at hsome
      obtain ⟨rfl, rfl⟩ := hsome
      rw [hi]
      refine ⟨_, hfind s token hvalid, yields_okOr ?_⟩
      rintro _ ⟨⟩
      refine yields_bind (yields_db (yields_execute idle ?_))
      rintro i s _ t hi ⟨⟩
      rw [hi]
      exact ⟨_, hmark s token, token, rfl, rfl⟩

end Rules

end Accounts

end Servcat
