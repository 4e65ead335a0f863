/-
Every approval is settled at most once, its instance is resumed at most once,
and with the decision that was recorded.
-/
import Servcat.Sample
import Servcat.Concurrent.Growth
import Mathlib.Data.List.Pairwise

namespace Servcat

open Atomic Keyed

/-- The approval this entry of the log says was settled. -/
def Event.settles? : Event → Option Uuid
  | .decided approvalId _ => some approvalId
  | _ => none

/-- The approval this entry of the log says an instance is resumed for. -/
def Event.resumes? : Event → Option Uuid
  | .resumed approvalId .. => some approvalId
  | _ => none

namespace World

/-- The approvals that were settled, newest first. -/
def settlements (w : World) : List Uuid :=
  w.log.filterMap fun entry => entry.2.settles?

/-- The approvals `resume_after_approval` was called for, newest first. -/
def resumptions (w : World) : List Uuid :=
  w.log.filterMap fun entry => entry.2.resumes?

/-- What the log says about approvals is true of their rows. -/
structure Settlement (w : World) : Prop where
  settled : ∀ n id status, (n, Event.decided id status) ∈ w.log →
    ∃ a, w.db.approvals.find? id = some a ∧ a.status = status ∧
      status ≠ .pending
  resumed : ∀ n id decision user, (n, Event.resumed id decision user) ∈ w.log →
    ∃ a, w.db.approvals.find? id = some a ∧ decision.Fits a.status ∧
      (decision = .approve → user = some a.approverUserId)
  settledOnce : w.settlements.Nodup
  resumedOnce : w.resumptions.Nodup

variable {w w' : World}

theorem mem_settlements {id : Uuid} :
    id ∈ w.settlements ↔ ∃ n status, (n, Event.decided id status) ∈ w.log := by
  constructor
  · intro h
    obtain ⟨⟨n, event⟩, hmem, hevent⟩ := List.mem_filterMap.mp h
    cases event <;> cases hevent
    exact ⟨n, _, hmem⟩
  · rintro ⟨n, status, hmem⟩
    exact List.mem_filterMap.mpr ⟨_, hmem, rfl⟩

theorem mem_resumptions {id : Uuid} :
    id ∈ w.resumptions ↔ ∃ n decision user,
      (n, Event.resumed id decision user) ∈ w.log := by
  constructor
  · intro h
    obtain ⟨⟨n, event⟩, hmem, hevent⟩ := List.mem_filterMap.mp h
    cases event <;> cases hevent
    exact ⟨n, _, _, hmem⟩
  · rintro ⟨n, decision, user, hmem⟩
    exact List.mem_filterMap.mpr ⟨_, hmem, rfl⟩

/-- Only one thread settles an approval. -/
theorem Settlement.owner (hw : w.Settlement) {n m : Nat} {id : Uuid}
    {status status' : ApprovalStatus} (h : (n, Event.decided id status) ∈ w.log)
    (h' : (m, Event.decided id status') ∈ w.log) : n = m := by
  by_contra hne
  have hsymm : Std.Symm fun e f : Nat × Event => ∀ a, e.2.settles? = some a →
      ∀ b, f.2.settles? = some b → a ≠ b :=
    ⟨fun e f hef b hb a ha heq => hef a ha b hb heq.symm⟩
  have hpairs := (List.pairwise_filterMap.mp hw.settledOnce).forall h h'
    fun heq => hne (congrArg Prod.fst heq)
  exact hpairs id rfl id rfl rfl

/-- Entries of the log that are about no approval. -/
def Silent (newer : List (Nat × Event)) : Prop :=
  ∀ entry ∈ newer, entry.2.settles? = none ∧ entry.2.resumes? = none

theorem settlements_append {newer : List (Nat × Event)} (h : Silent newer)
    (hlog : w'.log = newer ++ w.log) : w'.settlements = w.settlements := by
  have hnone : newer.filterMap (fun entry => entry.2.settles?) = [] :=
    List.filterMap_eq_nil_iff.mpr fun entry hentry => (h entry hentry).1
  rw [settlements, hlog, List.filterMap_append, hnone]
  rfl

theorem resumptions_append {newer : List (Nat × Event)} (h : Silent newer)
    (hlog : w'.log = newer ++ w.log) : w'.resumptions = w.resumptions := by
  have hnone : newer.filterMap (fun entry => entry.2.resumes?) = [] :=
    List.filterMap_eq_nil_iff.mpr fun entry hentry => (h entry hentry).2
  rw [resumptions, hlog, List.filterMap_append, hnone]
  rfl

/-- What the log already says stays true. -/
theorem Settlement.of_old (hw : w.Settlement) (hgrows : w.Grows w') :
    (∀ n id status, (n, Event.decided id status) ∈ w.log →
      ∃ a, w'.db.approvals.find? id = some a ∧ a.status = status ∧
        status ≠ .pending) ∧
    ∀ n id decision user, (n, Event.resumed id decision user) ∈ w.log →
      ∃ a, w'.db.approvals.find? id = some a ∧ decision.Fits a.status ∧
        (decision = .approve → user = some a.approverUserId) := by
  constructor
  · intro n id status hmem
    obtain ⟨a, ha, rfl, hne⟩ := hw.settled n id status hmem
    obtain ⟨b, hb, hbecomes⟩ := hgrows.approvals id a ha
    exact ⟨b, hb, hbecomes.settled hne, hne⟩
  · intro n id decision user hmem
    obtain ⟨a, ha, hfits, huser⟩ := hw.resumed n id decision user hmem
    obtain ⟨b, hb, hbecomes⟩ := hgrows.approvals id a ha
    refine ⟨b, hb, ?_, by rw [hbecomes.approverUserId]; exact huser⟩
    rw [hbecomes.settled hfits.ne_pending]
    exact hfits

theorem Settlement.of_silent (hw : w.Settlement) (hgrows : w.Grows w')
    {newer : List (Nat × Event)} (h : Silent newer)
    (hlog : w'.log = newer ++ w.log) : w'.Settlement := by
  obtain ⟨hsettled, hresumed⟩ := hw.of_old hgrows
  have hold : ∀ entry ∈ w'.log, entry.2.settles?.isSome ∨
      entry.2.resumes?.isSome → entry ∈ w.log := by
    intro entry hmem hsome
    rw [hlog] at hmem
    rcases List.mem_append.mp hmem with hnew | hold
    · obtain ⟨hsettles, hresumes⟩ := h entry hnew
      simp [hsettles, hresumes] at hsome
    · exact hold
  exact
    { settled := fun n id status hmem =>
        hsettled n id status (hold _ hmem (Or.inl rfl))
      resumed := fun n id decision user hmem =>
        hresumed n id decision user (hold _ hmem (Or.inr rfl))
      settledOnce := by rw [settlements_append h hlog]; exact hw.settledOnce
      resumedOnce := by rw [resumptions_append h hlog]; exact hw.resumedOnce }

/-- The log says nothing yet about an approval that is pending. -/
theorem Settlement.of_pending (hw : w.Settlement) {id : Uuid}
    (h : w.db.isPending id = true) :
    id ∉ w.settlements ∧ id ∉ w.resumptions := by
  obtain ⟨a, ha, hpending⟩ := Db.isPending_iff.mp h
  constructor
  · intro hmem
    obtain ⟨n, status, hmem⟩ := mem_settlements.mp hmem
    obtain ⟨b, hb, rfl, hne⟩ := hw.settled n id status hmem
    rw [ha, Option.some.injEq] at hb
    exact hne (hb ▸ hpending)
  · intro hmem
    obtain ⟨n, decision, user, hmem⟩ := mem_resumptions.mp hmem
    obtain ⟨b, hb, hfits, -⟩ := hw.resumed n id decision user hmem
    rw [ha, Option.some.injEq] at hb
    exact hfits.ne_pending (hb ▸ hpending)

/-- Settling an approval that is pending. -/
theorem Settlement.settle (hw : w.Settlement) {n : Nat} {id : Uuid}
    {status : ApprovalStatus} {comment : Option String}
    (hpending : w.db.isPending id = true) (hne : status ≠ .pending)
    (hgrows : w.Grows (w.commit n (w.db.updateApproval id status comment w.now)
      [.decided id status])) :
    (w.commit n (w.db.updateApproval id status comment w.now)
      [.decided id status]).Settlement := by
  obtain ⟨hsettled, hresumed⟩ := hw.of_old hgrows
  refine ⟨fun m id' status' hmem => ?_, fun m id' decision user hmem => ?_,
    List.nodup_cons.mpr ⟨(hw.of_pending hpending).1, hw.settledOnce⟩,
      hw.resumedOnce⟩
  · rcases List.mem_cons.mp hmem with heq | hmem
    · cases heq
      obtain ⟨a, ha, hpending⟩ := Db.isPending_iff.mp hpending
      refine ⟨Db.decided status comment w.now a, ?_, ?_, hne⟩
      · rw [commit_db, Db.find?_updateApproval, if_pos rfl, ha, Option.map_some]
      · rw [Db.decided, if_pos hpending]
    · exact hsettled m id' status' hmem
  · rcases List.mem_cons.mp hmem with heq | hmem
    · cases heq
    · exact hresumed m id' decision user hmem

/-- Resuming an instance for an approval that was not used for that before. -/
theorem Settlement.resume (hw : w.Settlement) {n : Nat} {id : Uuid}
    {a : PendingApproval} {decision : ApprovalDecision} {user : Option Uuid}
    (hnot : id ∉ w.resumptions) (ha : w.db.approvals.find? id = some a)
    (hfits : decision.Fits a.status)
    (huser : decision = .approve → user = some a.approverUserId) :
    (w.record n (.resumed id decision user)).Settlement := by
  refine ⟨fun m id' status hmem => ?_, fun m id' decision' user' hmem => ?_,
    hw.settledOnce, List.nodup_cons.mpr ⟨hnot, hw.resumedOnce⟩⟩
  · rcases List.mem_cons.mp hmem with heq | hmem
    · cases heq
    · exact hw.settled m id' status hmem
  · rcases List.mem_cons.mp hmem with heq | hmem
    · cases heq
      exact ⟨a, ha, hfits, huser⟩
    · exact hw.resumed m id' decision' user' hmem

end World

/-- What thread `n` relies on while an approval it settled awaits resumption. -/
def Stage.Owns (n : Nat) (w : World) : Stage → Prop
  | .flipped approval decision user =>
      (∃ status, (n, Event.decided approval.id status) ∈ w.log) ∧
      approval.id ∉ w.resumptions ∧ w.Settled approval decision ∧
      (decision = .approve → user = some approval.approverUserId)
  | _ => True

def Phase.Owns (n : Nat) (w : World) (φ : Phase) : Prop :=
  (∀ a ∈ φ.known, w.Stored a) ∧ φ.stage.Owns n w

theorem Phase.Owns.mono {n : Nat} {w w' : World} {φ : Phase} (hφ : φ.Owns n w)
    (hgrows : w.Grows w') {newer : List (Nat × Event)}
    (hlog : w'.log = newer ++ w.log)
    (hresumptions : ∀ approval decision user,
      φ.stage = .flipped approval decision user →
      approval.id ∉ w.resumptions → approval.id ∉ w'.resumptions) : φ.Owns
        n w' := by
  obtain ⟨hknown, hstage⟩ := hφ
  refine ⟨fun a ha => hgrows.stored (hknown a ha), ?_⟩
  cases hs : φ.stage with
  | flipped approval decision user =>
      rw [hs] at hstage
      obtain ⟨⟨status, hmem⟩, hnot, hsettled, huser⟩ := hstage
      exact ⟨⟨status, by rw [hlog]; exact List.mem_append_right _ hmem⟩,
        hresumptions _ _ _ hs hnot, hgrows.settled hsettled, huser⟩
  | _ => trivial

theorem Sees.owns {n : Nat} {w : World} {φ φ' : Phase} (h : Sees w φ φ')
    (hφ : φ.Owns n w) : φ'.Owns n w := by
  cases h with
  | nothing => exact hφ
  | approvals rows hrows =>
      exact ⟨(Sees.approvals rows hrows).stored hφ.1, hφ.2⟩
  | definition | task => exact ⟨hφ.1, trivial⟩

theorem Move.settlement {n : Nat} {φ φ' : Phase} {w w' : World}
    (h : Move n φ w φ' w') (hw : w.Settlement) (hφ : φ.Owns n w) :
    w'.Settlement ∧ φ'.Owns n w' ∧ ∀ m (ψ : Phase), m ≠ n → ψ.Owns m w →
      ψ.Owns m w' := by
  have hgrows := h.grows
  -- Most steps write nothing about approvals to the log.
  have hsilent : ∀ newer, World.Silent newer → w'.log = newer ++ w.log →
      w'.Settlement ∧ φ.Owns n w' ∧ ∀ m (ψ : Phase), m ≠ n → ψ.Owns m w →
        ψ.Owns m w' := by
    intro newer hnewer hlog
    have hsame := World.resumptions_append hnewer hlog
    have hmono : ∀ m (ψ : Phase), ψ.Owns m w → ψ.Owns m w' :=
      fun m ψ hψ => hψ.mono hgrows hlog fun _ _ _ _ hnot =>
        by rw [hsame]; exact hnot
    exact ⟨hw.of_silent hgrows hnewer hlog, hmono n φ hφ,
      fun m ψ _ => hmono m ψ⟩
  cases h with
  | look h => exact ⟨hw, h.owns hφ, fun _ _ _ => id⟩
  | @remark _ event h =>
      refine hsilent [(n, event)] ?_ rfl
      cases event with
      | notified | expiryResumeFailed =>
          simp [World.Silent, Event.settles?, Event.resumes?]
      | _ => cases h
  | create =>
      obtain ⟨hw', hφ', hothers⟩ := hsilent [] (by simp [World.Silent]) rfl
      exact ⟨hw', ⟨hφ'.1, trivial⟩, hothers⟩
  | @load w reading stage hrow h =>
      obtain ⟨hw', hφ', hothers⟩ := hsilent [(n, .began reading)]
        (by simp [World.Silent, Event.settles?, Event.resumes?]) rfl
      exact ⟨hw', ⟨hφ'.1, by cases h <;> trivial⟩, hothers⟩
  | tickets => exact hsilent [] (by simp [World.Silent]) rfl
  | dispatch => exact hsilent [] (by simp [World.Silent]) rfl
  | @openApproval _ _ _ _ approval =>
      obtain ⟨hw', hφ', hothers⟩ := hsilent [(n, .approvalCreated approval)]
        (by simp [World.Silent, Event.settles?, Event.resumes?]) rfl
      exact ⟨hw', ⟨hφ'.1, trivial⟩, hothers⟩
  | @save _ row stepId answers status =>
      obtain ⟨hw', hφ', hothers⟩ :=
        hsilent [(n, .saved row.id stepId (.object answers) status)]
          (by simp [World.Silent, Event.settles?, Event.resumes?]) rfl
      exact ⟨hw', ⟨hφ'.1, trivial⟩, hothers⟩
  | @flip w approval status decision user comment hsubmits hknown hpending h =>
      have howns : (Stage.flipped approval decision user).Owns n
          (w.commit n (w.db.updateApproval approval.id status comment w.now)
            [.decided approval.id status]) := by
        refine ⟨⟨status, List.mem_cons_self⟩, (hw.of_pending hpending).2,
          h.settles (hφ.1 _ hknown) hpending, ?_⟩
        rintro rfl
        cases h
        rfl
      exact ⟨hw.settle hpending h.fits.ne_pending hgrows,
        ⟨fun a ha => hgrows.stored (hφ.1 a ha), howns⟩,
        fun m ψ _ hψ => hψ.mono hgrows rfl fun _ _ _ _ hnot => hnot⟩
  | @resume w approval approval' decision user hstage hknown hid =>
      have howns := hφ.2
      rw [hstage] at howns
      obtain ⟨⟨status, hmine⟩, hnot, ⟨b, hb, hbecomes, hfits⟩, huser⟩ := howns
      have hlog : (w.record n (.resumed approval.id decision user)).log =
        [(n, .resumed approval.id decision user)] ++ w.log := rfl
      rw [hid] at hgrows ⊢
      refine ⟨hw.resume hnot hb hfits
        (by rw [hbecomes.approverUserId]; exact huser),
        ⟨fun a ha => hgrows.stored (hφ.1 a ha), trivial⟩,
        fun m ψ hne hψ => hψ.mono hgrows hlog fun other _ _ hs hnot' hmem => ?_⟩
      rcases List.mem_cons.mp hmem with heq | hmem
      · -- Another thread cannot have settled the same approval.
        have htheirs := hψ.2
        rw [hs] at htheirs
        obtain ⟨⟨status', htheirs⟩, -⟩ := htheirs
        rw [heq] at htheirs
        exact hne (hw.owner htheirs hmine)
      · exact hnot' hmem

/-- The proof outline: a thread that settled an approval is the only one to
resume its instance. -/
def settlement (deps : Deps) : Outline (phases deps) Regime.free where
  inv := World.Settlement
  holds n φ w := φ.Owns n w
  absent _ _ := True
  grow := World.Grows
  grow_refl := World.Grows.refl
  grow_trans := World.Grows.trans
  entry n l w _ _ _ := ⟨fun _ ha => absurd ha List.not_mem_nil, trivial⟩
  drift w w' hw hdrift := by
    have hlog : w'.log = [] ++ w.log := hdrift.log
    have hsilent : World.Silent [] := by simp [World.Silent]
    refine ⟨hw.of_silent hdrift.grows hsilent hlog, hdrift.grows,
      fun n => ⟨id, fun φ hφ =>
      hφ.mono hdrift.grows hlog fun _ _ _ _ hnot => ?_⟩⟩
    rw [World.resumptions_append hsilent hlog]
    exact hnot
  step n φ φ' w w' hw hφ hmove _ :=
    have h := hmove.settlement hw hφ
    ⟨h.1, hmove.grows, h.2.1, fun m hne => ⟨id, fun ψ hψ => h.2.2 m ψ hne hψ⟩⟩

theorem World.Initial.settlement {w : World}
    (h : w.Initial) : w.Settlement where
  settled n id status hmem := by simp [h.log] at hmem
  resumed n id decision user hmem := by simp [h.log] at hmem
  settledOnce := by simp [World.settlements, h.log]
  resumedOnce := by simp [World.resumptions, h.log]

/-- Whatever runs concurrently, an approval leaves `pending` at most once and
keeps the status it got then, and `resume_after_approval` is called for it at
most once, with the decision that was recorded: to approve only if its approver
approved, to reject only if it was rejected or expired. -/
theorem approvals_settled_once {deps : Deps} {w : World} (hw : w.Initial)
    {c d : ServerConfig} (hc : Reaches (system deps) .free ⟨w, []⟩ c)
    (hd : Reaches (system deps) .free c d) {id : Uuid} {a : PendingApproval}
    (ha : c.state.db.approvals.find? id = some a) :
    (a.status ≠ .pending → ∃ b, d.state.db.approvals.find? id = some b ∧
      b.status = a.status) ∧
    c.state.settlements.count id ≤ 1 ∧ c.state.resumptions.count id ≤ 1 ∧
    ∀ n decision user, (n, Event.resumed id decision user) ∈ c.state.log →
      match decision with
      | .approve => a.status = .approved ∧ user = some a.approverUserId
      | .reject => a.status = .rejected ∨ a.status = .expired := by
  have hat := ((settlement deps).at_reaches
    ((settlement deps).at_nil hw.settlement fun _ => trivial) hc).1
  refine ⟨fun hne => ?_, List.nodup_iff_count_le_one.mp hat.inv.settledOnce id,
    List.nodup_iff_count_le_one.mp hat.inv.resumedOnce id,
      fun n decision user hmem => ?_⟩
  · obtain ⟨b, hb, hbecomes⟩ :=
      ((settlement deps).at_reaches hat hd).2.approvals id a ha
    exact ⟨b, hb, hbecomes.settled hne⟩
  · obtain ⟨b, hb, hfits, huser⟩ := hat.inv.resumed n id decision user hmem
    rw [ha, Option.some.injEq] at hb
    subst hb
    cases decision with
    | approve => exact ⟨hfits, huser rfl⟩
    | reject => exact hfits

theorem approvals_settled_once_raced :
    let decide := fun decision => Sample.arrive
      (.decide (Sample.id 105) Sample.approver.id decision none)
    let c := (Sample.play .free (Sample.world Sample.approvalThenTicket)
      (Sample.arrive (.start Sample.item.id Sample.requester) :: Sample.steps
        0 100 14 ++ [decide .approve, decide .reject] ++ Sample.steps 1 200 1 ++
          Sample.steps 2 300 2 ++ Sample.steps 1 201 1)).get (by decide)
    let a := (c.state.db.approvals.find? (Sample.id 105)).get (by decide)
    a.status = .rejected ∧
    (a.status ≠ .pending →
      ∃ b, c.state.db.approvals.find? (Sample.id 105) = some b ∧
      b.status = a.status) ∧
    c.state.settlements.count (Sample.id 105) ≤ 1 ∧
    c.state.resumptions.count (Sample.id 105) ≤ 1 ∧
    ∀ n decision user,
      (n, Event.resumed (Sample.id 105) decision user) ∈ c.state.log →
      match decision with
      | .approve => a.status = .approved ∧ user = some a.approverUserId
      | .reject => a.status = .rejected ∨ a.status = .expired :=
  ⟨by decide, approvals_settled_once (Sample.initial Sample.approvalThenTicket)
    (System.play_reaches (Option.some_get _).symm) .refl
      (Option.some_get _).symm⟩

end Servcat
