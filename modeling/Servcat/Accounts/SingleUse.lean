/-
Refresh tokens and the tokens of password resets are checked by one statement
and marked as spent by another: when each of them is redeemed once.
-/
import Servcat.Accounts.Threads
import Servcat.Accounts.Sample

namespace Servcat

open Atomic Keyed

namespace Accounts

/-- A call of `redeem_refresh_token` or of `redeem_password_reset_token`. -/
structure Redemption where
  kind : TokenKind
  rawToken : String
deriving DecidableEq, Repr

def Redemption.code (deps : AuthDeps)
    (call : Redemption) : Async ApiError Uuid :=
  match call.kind with
  | .refresh => redeemRefreshToken deps call.rawToken
  | .passwordReset => redeemPasswordResetToken deps call.rawToken

/-- Any number of calls, with faults at any of their statements. -/
def redemptions (deps : AuthDeps) :
    System Draw Accounts Redemption ApiError Uuid where
  code := Redemption.code deps
  input n i := i.thread = n
  drift := Drift

instance (deps : AuthDeps) (n : Nat) (i : Draw) :
    Decidable ((redemptions deps).input n i) :=
  inferInstanceAs (Decidable (_ = _))

/-- The statement that marks a token as spent finds it not spent yet. -/
def redeemsUnspent : Regime Accounts Redemption where
  arrives _ := True
  allowed n s t := ∀ kind, ∀ row ∈ (s.tokens kind).rows,
    t.log = (n, .redeemed kind row.id) :: s.log → row.spentAt = none

instance : Regime.Checked redeemsUnspent where
  arrives _ := isTrue trivial
  allowed n s t :=
    decidable_of_iff
      (∀ kind ∈ [TokenKind.refresh, .passwordReset],
        ∀ row ∈ (s.tokens kind).rows,
        t.log = (n, .redeemed kind row.id) :: s.log → row.spentAt = none)
      ⟨fun h kind => h kind (by cases kind <;> simp), fun h kind _ => h kind⟩

namespace SingleUse

/-- How far a call has come. -/
inductive Stage where
  | looking
  | found (token : IssuedToken)
  | redeemed (token : IssuedToken)

structure Phase where
  kind : TokenKind
  tokenHash : String
  stage : Stage

/-- What a call may do to the accounts. -/
inductive Move (n : Nat) : Phase → Accounts → Phase → Accounts → Prop
  | idle {φ : Phase} {s : Accounts} : Move n φ s φ s
  | find {kind : TokenKind} {tokenHash : String} {s : Accounts}
      {token : IssuedToken} (hvalid : s.valid? kind tokenHash = some token) :
      Move n ⟨kind, tokenHash, .looking⟩ s ⟨kind, tokenHash, .found token⟩
        (s.record n (.presented kind token))
  | redeem {kind : TokenKind} {tokenHash : String} {s : Accounts}
      {token : IssuedToken} :
      Move n ⟨kind, tokenHash, .found token⟩ s
        ⟨kind, tokenHash, .redeemed token⟩
        ((s.spend kind token.id).record n (.redeemed kind token.id))

variable {deps : AuthDeps}

/-- A call goes through the stages. -/
theorem redeem_stages (n : Nat) (kind : TokenKind) (invalid : ApiError)
    (rawToken : String) :
    Follows (thread Move n)
      (Yields fun _ ψ => ∃ token,
        ψ = ⟨kind, deps.sha256Hex rawToken, .redeemed token⟩)
      (redeem deps kind invalid rawToken)
        ⟨kind, deps.sha256Hex rawToken, .looking⟩ := by
  refine Follows.mono (fun x ψ hx => ?_)
    (redeem_follows (fun _ _ _ => .idle)
      (fun token => Phase.mk kind _ (.found token))
      (fun token => Phase.mk kind _ (.redeemed token))
      (fun _ _ => .find) fun _ _ => .redeem)
  cases x with
  | ok userId =>
      obtain ⟨token, -, rfl⟩ := hx
      exact ⟨token, rfl⟩
  | error | panicked => trivial

def cover (deps : AuthDeps) : Cover (redemptions deps) Phase where
  move := Move
  entry call := ⟨call.kind, deps.sha256Hex call.rawToken, .looking⟩
  post call := Yields fun _ ψ =>
    ∃ token, ψ = ⟨call.kind, deps.sha256Hex call.rawToken, .redeemed token⟩
  follows n call := by
    obtain ⟨kind, rawToken⟩ := call
    cases kind with
    | refresh => exact redeem_stages n .refresh .unauthorized rawToken
    | passwordReset =>
        exact redeem_stages n .passwordReset invalidResetToken rawToken

/-- There is a token with this identifier and this hash. -/
def Known (s : Accounts) (kind : TokenKind) (id : Uuid)
    (tokenHash : String) : Prop :=
  ∃ row ∈ (s.tokens kind).rows, row.id = id ∧ row.tokenHash = tokenHash

/-- What no step undoes: tokens stay, those that are spent are, and so
does the log. -/
structure Grows (s t : Accounts) : Prop where
  tokens : ∀ kind, ∀ row ∈ (s.tokens kind).rows, ∃ row' ∈ (t.tokens kind).rows,
    row'.id = row.id ∧ row'.tokenHash = row.tokenHash ∧
      (row.spentAt ≠ none → row'.spentAt ≠ none)
  log : ∀ e ∈ s.log, e ∈ t.log

theorem Grows.refl (s : Accounts) : Grows s s :=
  ⟨fun _ row hrow => ⟨row, hrow, rfl, rfl, id⟩, fun _ h => h⟩

theorem Grows.trans {s t u : Accounts} (h : Grows s t)
    (h' : Grows t u) : Grows s u := by
  refine ⟨fun kind row hrow => ?_, fun e he => h'.log e (h.log e he)⟩
  obtain ⟨row', hrow', hid, hhash, hspent⟩ := h.tokens kind row hrow
  obtain ⟨row'', hrow'', hid', hhash', hspent'⟩ := h'.tokens kind row' hrow'
  exact ⟨row'', hrow'', hid'.trans hid, hhash'.trans hhash, hspent' ∘ hspent⟩

theorem Grows.known {s t : Accounts} (h : Grows s t) {kind : TokenKind}
    {id : Uuid} {tokenHash : String} (hknown : Known s kind id tokenHash) :
    Known t kind id tokenHash := by
  obtain ⟨row, hrow, rfl, rfl⟩ := hknown
  obtain ⟨row', hrow', hid, hhash, -⟩ := h.tokens kind row hrow
  exact ⟨row', hrow', hid, hhash⟩

theorem Drift.grows {s t : Accounts} (h : s.Drift t) : Grows s t where
  tokens kind row hrow := by
    refine ⟨row, ?_, rfl, rfl, id⟩
    cases kind with
    | refresh => rwa [tokens, h.sessions]
    | passwordReset => rwa [tokens, h.passwordResets]
  log e he := by rwa [h.log]

theorem Move.grows {n : Nat} {φ φ' : Phase} {s t : Accounts}
    (h : Move n φ s φ' t) : Grows s t := by
  cases h with
  | idle => exact .refl s
  | find hvalid =>
      refine ⟨fun kind row hrow => ⟨row, ?_, rfl, rfl, id⟩,
        fun e he => List.mem_cons_of_mem _ he⟩
      rwa [tokens_record]
  | @redeem kind tokenHash s token =>
      refine ⟨fun kind' row hrow => ?_, fun e he => ?_⟩
      · rw [tokens_record, spend, tokens_setTokens]
        by_cases hkind : kind' = kind
        · subst hkind
          rw [if_pos rfl]
          have hkeeps := spent_keeps s.now token.id
          refine ⟨_, List.mem_map_of_mem hrow, hkeeps.key row,
            hkeeps.index row, ?_⟩
          unfold spent
          split
          · exact fun _ => Option.some_ne_none _
          · exact id
        · rw [if_neg hkind]
          exact ⟨row, hrow, rfl, rfl, id⟩
      · rw [log_record, spend, log_setTokens]
        exact List.mem_cons_of_mem _ he

/-- Whoever is on record for a token has spent it, and is the only one. -/
def Inv (s : Accounts) : Prop :=
  ∀ kind id n, (n, AccountEvent.redeemed kind id) ∈ s.log →
    (∃ row ∈ (s.tokens kind).rows, row.id = id ∧ row.spentAt ≠ none) ∧
      ∀ m, (m, AccountEvent.redeemed kind id) ∈ s.log → m = n

/-- What a thread relies on in each phase. -/
def Holds (n : Nat) (φ : Phase) (s : Accounts) : Prop :=
  match φ.stage with
  | .looking => True
  | .found token => Known s φ.kind token.id φ.tokenHash
  | .redeemed token => Known s φ.kind token.id φ.tokenHash ∧
      (n, .redeemed φ.kind token.id) ∈ s.log

theorem Grows.holds {s t : Accounts} (h : Grows s t) {n : Nat} {φ : Phase}
    (hφ : Holds n φ s) : Holds n φ t := by
  obtain ⟨kind, tokenHash, stage⟩ := φ
  cases stage with
  | looking => trivial
  | found token => exact h.known hφ
  | redeemed token => exact ⟨h.known hφ.1, h.log _ hφ.2⟩

/-- Tokens that grew and a log with nothing new about them. -/
theorem Inv.of_grows {s t : Accounts} (hs : Inv s) (h : Grows s t)
    (hlog : ∀ n kind id, (n, AccountEvent.redeemed kind id) ∈ t.log →
      (n, AccountEvent.redeemed kind id) ∈ s.log) : Inv t := by
  intro kind id n hn
  obtain ⟨⟨row, hrow, rfl, hspent⟩, hunique⟩ := hs kind id n (hlog _ _ _ hn)
  obtain ⟨row', hrow', hid, -, hspent'⟩ := h.tokens kind row hrow
  exact ⟨⟨row', hrow', hid, hspent' hspent⟩,
    fun m hm => hunique m (hlog _ _ _ hm)⟩

/-- Marking a token as spent that is not. -/
theorem Inv.redeem {s : Accounts} (hs : Inv s) {n : Nat} {kind : TokenKind}
    {id : Uuid} {tokenHash : String} (hknown : Known s kind id tokenHash)
    (hunspent : ∀ row ∈ (s.tokens kind).rows, row.id = id → row.spentAt = none)
    (hgrows : Grows s ((s.spend kind id).record n (.redeemed kind id))) :
    Inv ((s.spend kind id).record n (.redeemed kind id)) := by
  have hlog : ∀ m kind' id', (m, AccountEvent.redeemed kind' id') ∈
      ((s.spend kind id).record n (.redeemed kind id)).log →
      (m, AccountEvent.redeemed kind' id') ∈ s.log ∨
        m = n ∧ kind' = kind ∧ id' = id := by
    intro m kind' id' hm
    rw [log_record, spend, log_setTokens] at hm
    rcases List.mem_cons.mp hm with heq | hm
    · cases heq
      exact .inr ⟨rfl, rfl, rfl⟩
    · exact .inl hm
  have hfresh : ∀ m, (m, AccountEvent.redeemed kind id) ∉ s.log := by
    intro m hm
    obtain ⟨⟨row, hrow, hid, hspent⟩, -⟩ := hs kind id m hm
    exact hspent (hunspent row hrow hid)
  intro kind' id' m hm
  rcases hlog m kind' id' hm with hm' | ⟨rfl, rfl, rfl⟩
  · obtain ⟨⟨row, hrow, hid, hspent⟩, hunique⟩ := hs kind' id' m hm'
    obtain ⟨row', hrow', hid', -, hspent'⟩ := hgrows.tokens kind' row hrow
    refine ⟨⟨row', hrow', hid'.trans hid, hspent' hspent⟩, fun m' hm'' => ?_⟩
    rcases hlog m' kind' id' hm'' with hold | ⟨rfl, rfl, rfl⟩
    · exact hunique m' hold
    · exact absurd hm' (hfresh m)
  · obtain ⟨row, hrow, hid, -⟩ := hknown
    refine ⟨⟨spent s.now id' row, ?_,
      ((spent_keeps s.now id').key row).trans hid, ?_⟩, fun m' hm' => ?_⟩
    · rw [tokens_record, spend, tokens_setTokens, if_pos rfl]
      exact List.mem_map_of_mem hrow
    · unfold spent
      rw [if_pos hid]
      exact Option.some_ne_none _
    · rcases hlog m' kind' id' hm' with hold | ⟨rfl, -, -⟩
      · exact absurd hold (hfresh m')
      · rfl

def outline (deps : AuthDeps) : Outline (cover deps) redeemsUnspent where
  inv := Inv
  holds := Holds
  absent _ _ := True
  grow := Grows
  grow_refl := .refl
  grow_trans := .trans
  entry _ _ _ _ _ _ := trivial
  drift s t hs h :=
    ⟨hs.of_grows (Drift.grows h)
      fun n kind id hn => by rwa [h.log] at hn, Drift.grows h,
      fun n => ⟨fun _ => trivial, fun φ => (Drift.grows h).holds⟩⟩
  step n φ φ' s t hs hφ hmove hallowed := by
    have hgrows := Move.grows hmove
    have hothers : ∀ m, m ≠ n → (True → True) ∧ ∀ ψ, Holds m ψ s →
        Holds m ψ t :=
      fun m _ => ⟨id, fun ψ => hgrows.holds⟩
    cases hmove with
    | idle => exact ⟨hs, hgrows, hφ, hothers⟩
    | find hvalid =>
        refine ⟨hs.of_grows hgrows ?_, hgrows, hgrows.known ?_, hothers⟩
        · intro m kind' id' hm
          rcases List.mem_cons.mp hm with heq | hm
          · cases heq
          · exact hm
        · obtain ⟨hmem, hhash, -, -⟩ := valid?_eq_some_iff.mp hvalid
          exact ⟨_, hmem, rfl, hhash⟩
    | @redeem kind tokenHash _ token =>
        refine ⟨hs.redeem hφ ?_ hgrows, hgrows,
          ⟨hgrows.known hφ, List.mem_cons_self⟩, hothers⟩
        intro row hrow hid
        refine hallowed kind row hrow ?_
        rw [log_record, spend, log_setTokens, hid]

end SingleUse

/-- Of any number of calls that redeem the same token, one succeeds at most,
provided each call that marks a token as spent finds it not spent yet. -/
theorem tokens_redeemed_once {deps : AuthDeps} {s : Accounts} (hs : s.log = [])
    {d : Config Draw Accounts Redemption ApiError Uuid}
    (hrun : Reaches (redemptions deps) redeemsUnspent ⟨s, []⟩ d) {n m : Nat}
    {call : Redemption} {x y : Uuid}
    (hn : d.threads[n]? = some (call, .exit (.ok x)))
    (hm : d.threads[m]? = some (call, .exit (.ok y))) : n = m := by
  have hinv : SingleUse.Inv s := by
    intro kind id n hn
    rw [hs] at hn
    cases hn
  have hd := ((SingleUse.outline deps).at_reaches
    ((SingleUse.outline deps).at_nil hinv fun _ => trivial) hrun).1
  obtain ⟨φ, hφ, token, rfl⟩ := hd.thread n _ _ hn
  obtain ⟨ψ, hψ, token', rfl⟩ := hd.thread m _ _ hm
  obtain ⟨⟨row, hrow, hid, hhash⟩, hlog⟩ := hφ
  obtain ⟨⟨row', hrow', hid', hhash'⟩, hlog'⟩ := hψ
  obtain rfl := Indexed.eq_of_index hrow hrow' (hhash.trans hhash'.symm)
  rw [← hid', hid] at hlog'
  exact ((hd.inv _ _ _ hlog').2 n hlog)

namespace Sample

/-- User 13 holds the refresh token 22 and was sent the reset token 23. -/
def issued : Accounts :=
  { empty with
    users := ⟨[Servcat.Sample.user 13 "ada" .requester], by decide⟩
    sessions := ⟨⟨[⟨id 50, id 13, "#22", 60, none⟩], by decide⟩, by decide⟩
    passwordResets :=
      ⟨⟨[⟨id 51, id 13, "#23", 60, none⟩], by decide⟩, by decide⟩ }

abbrev RedemptionSchedule := List (Action Draw Redemption)

/-- Thread `n` takes `k` steps. -/
def steps {ℓ : Type} (n first k : Nat) : List (Action Draw ℓ) :=
  ((draws n first).take k).map (.run n)

/-- Two calls on one token, one after the other. -/
def redeemTwice (call : Redemption) : RedemptionSchedule :=
  .arrive call :: steps 0 100 2 ++ .arrive call :: steps 1 200 1

/-- Two calls on one token, each of which looks for it before the
other marks it. -/
def redeemAtOnce (call : Redemption) : RedemptionSchedule :=
  [.arrive call, .arrive call] ++ steps 0 100 1 ++ steps 1 200 2 ++
    steps 0 101 1

def played (R : Regime Accounts Redemption) [R.Checked]
    (schedule : RedemptionSchedule) :
    Option (Config Draw Accounts Redemption ApiError Uuid) :=
  (redemptions deps).play R ⟨issued, []⟩ schedule

end Sample

theorem tokens_redeemed_once_played :
    let d :=
      (Sample.played redeemsUnspent (Sample.redeemTwice ⟨.refresh, "22"⟩)).get
        (by decide)
    ∀ m y, d.threads[m]? = some (⟨.refresh, "22"⟩, .exit (.ok y)) → 0 = m :=
  fun _ _ => tokens_redeemed_once (x := Sample.id 13) rfl
    (System.play_reaches (Option.some_get _).symm) rfl

/-- Two requests redeem the same refresh token, and two others the same
reset token. -/
theorem tokens_redeemed_twice :
    (∃ d, Reaches (redemptions Sample.deps) .free ⟨Sample.issued, []⟩ d ∧
      d.threads[0]? = some (⟨.refresh, "22"⟩, .exit (.ok (Sample.id 13))) ∧
      d.threads[1]? = some (⟨.refresh, "22"⟩, .exit (.ok (Sample.id 13)))) ∧
    ∃ d, Reaches (redemptions Sample.deps) .free ⟨Sample.issued, []⟩ d ∧
      d.threads[0]? = some
        (⟨.passwordReset, "23"⟩, .exit (.ok (Sample.id 13))) ∧
      d.threads[1]? = some
        (⟨.passwordReset, "23"⟩, .exit (.ok (Sample.id 13))) := by
  have hrefresh :
      (Sample.played .free (Sample.redeemAtOnce ⟨.refresh, "22"⟩)).isSome := by
    decide
  have hreset :
      (Sample.played .free (Sample.redeemAtOnce
        ⟨.passwordReset, "23"⟩)).isSome := by
    decide
  constructor
  · exact ⟨_, System.play_reaches (Option.some_get hrefresh).symm, rfl, rfl⟩
  · exact ⟨_, System.play_reaches (Option.some_get hreset).symm, rfl, rfl⟩

end Accounts

end Servcat
