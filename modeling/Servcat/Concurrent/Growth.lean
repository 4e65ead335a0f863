/-
What no step ever undoes, and what the log tells about the row a request
works from: the row that is stored now is the one the request read, or
was saved since.
-/
import Servcat.Concurrent.Requests

namespace Servcat

open Atomic Keyed

/-- The same approval later: settled at most once, and otherwise unchanged. -/
structure PendingApproval.Becomes (a a' : PendingApproval) : Prop where
  workflowInstanceId : a'.workflowInstanceId = a.workflowInstanceId
  stepId : a'.stepId = a.stepId
  approverUserId : a'.approverUserId = a.approverUserId
  settled : a.status ≠ .pending → a'.status = a.status

namespace PendingApproval.Becomes

theorem refl (a : PendingApproval) : a.Becomes a :=
  ⟨rfl, rfl, rfl, fun _ => rfl⟩

theorem trans {a b c : PendingApproval} (h : a.Becomes b) (h' : b.Becomes c) :
    a.Becomes c where
  workflowInstanceId := h'.workflowInstanceId.trans h.workflowInstanceId
  stepId := h'.stepId.trans h.stepId
  approverUserId := h'.approverUserId.trans h.approverUserId
  settled hne := by
    have hb := h.settled hne
    rw [h'.settled (by rw [hb]; exact hne), hb]

theorem decided (a : PendingApproval) (status : ApprovalStatus)
    (comment : Option String) (now : Timestamp) :
    a.Becomes (Db.decided status comment now a) :=
  ⟨by simp, by simp, by simp, fun hne => by rw [Db.decided, if_neg hne]⟩

end PendingApproval.Becomes

/-- Definitions, instances and approvals are never deleted, an instance keeps
its definition and an approval what it is about. -/
structure World.Grows (w w' : World) : Prop where
  graphs : ∀ id graph, w.db.graphOf id = some graph →
    w'.db.graphOf id = some graph
  instances : ∀ id row, w.db.instances.find? id = some row →
    ∃ row', w'.db.instances.find? id = some row' ∧
      row'.workflowDefinitionId = row.workflowDefinitionId
  approvals : ∀ id a, w.db.approvals.find? id = some a →
    ∃ a', w'.db.approvals.find? id = some a' ∧ a.Becomes a'

namespace World.Grows

variable {w w' w'' : World}

theorem of_eq (hgraphs : ∀ id graph, w.db.graphOf id = some graph →
      w'.db.graphOf id = some graph)
    (hinstances : w'.db.instances = w.db.instances)
    (happrovals : w'.db.approvals = w.db.approvals) : w.Grows w' where
  graphs := hgraphs
  instances _ row hrow := ⟨row, by rw [hinstances]; exact hrow, rfl⟩
  approvals _ a ha := ⟨a, by rw [happrovals]; exact ha, .refl a⟩

theorem refl (w : World) : w.Grows w :=
  of_eq (fun _ _ h => h) rfl rfl

theorem trans (h : w.Grows w') (h' : w'.Grows w'') : w.Grows w'' where
  graphs id graph hgraph := h'.graphs id graph (h.graphs id graph hgraph)
  instances id row hrow := by
    obtain ⟨row', hrow', hsame⟩ := h.instances id row hrow
    obtain ⟨row'', hrow'', hsame'⟩ := h'.instances id row' hrow'
    exact ⟨row'', hrow'', hsame'.trans hsame⟩
  approvals id a ha := by
    obtain ⟨b, hb, hab⟩ := h.approvals id a ha
    obtain ⟨c, hc, hbc⟩ := h'.approvals id b hb
    exact ⟨c, hc, hab.trans hbc⟩

end World.Grows

namespace World

/-- The approval, as it was read, is stored. -/
def Stored (w : World) (a : PendingApproval) : Prop :=
  ∃ b, w.db.approvals.find? a.id = some b ∧ a.Becomes b

/-- The approval is stored, and settled so that its instance may be resumed. -/
def Settled (w : World) (a : PendingApproval)
    (decision : ApprovalDecision) : Prop :=
  ∃ b, w.db.approvals.find? a.id = some b ∧ a.Becomes b ∧ decision.Fits b.status

variable {w w' : World}

theorem Grows.stored (h : w.Grows w') {a : PendingApproval} (ha : w.Stored a) :
    w'.Stored a := by
  obtain ⟨b, hb, hab⟩ := ha
  obtain ⟨c, hc, hbc⟩ := h.approvals _ b hb
  exact ⟨c, hc, hab.trans hbc⟩

theorem Grows.settled (h : w.Grows w') {a : PendingApproval}
    {decision : ApprovalDecision}
    (ha : w.Settled a decision) : w'.Settled a decision := by
  obtain ⟨b, hb, hab, hfits⟩ := ha
  obtain ⟨c, hc, hbc⟩ := h.approvals _ b hb
  refine ⟨c, hc, hab.trans hbc, ?_⟩
  rw [hbc.settled hfits.ne_pending]
  exact hfits

theorem stored_of_mem {a : PendingApproval}
    (ha : a ∈ w.db.approvals.rows) : w.Stored a :=
  ⟨a, Table.find?_of_mem ha, .refl a⟩

end World

theorem World.Drift.grows {w w' : World} (h : w.Drift w') : w.Grows w' :=
  .of_eq (fun _ _ hgraph => h.graphOf hgraph) h.instances h.approvals

theorem Move.grows {n : Nat} {φ φ' : Phase} {w w' : World}
    (h : Move n φ w φ' w') : w.Grows w' := by
  cases h with
  | look | remark | load | resume | tickets | dispatch =>
      exact .of_eq (fun _ _ hgraph => hgraph) rfl rfl
  | create hstage hstart hinsert =>
      exact { World.Grows.refl w with
        instances := fun id row hrow =>
          ⟨row, Table.find?_insert_of_some hinsert hrow, rfl⟩ }
  | openApproval hstage hahead hid hpending hinsert =>
      exact { World.Grows.refl w with
        approvals := fun id a ha =>
          ⟨a, Table.find?_insert_of_some hinsert ha, .refl a⟩ }
  | save hsaves =>
      refine { World.Grows.refl w with instances := fun id row hrow => ?_ }
      rw [World.commit_db, Db.find?_updateInstance, hrow]
      split
      · exact ⟨_, rfl, rfl⟩
      · exact ⟨row, rfl, rfl⟩
  | flip hsubmits hknown hpending hverdict =>
      refine { World.Grows.refl w with approvals := fun id a ha => ?_ }
      rw [World.commit_db, Db.find?_updateApproval, ha]
      split
      · exact ⟨_, rfl, .decided a _ _ _⟩
      · exact ⟨a, rfl, .refl a⟩

/-- What a request reads is stored. -/
theorem Sees.stored {w : World} {φ φ' : Phase} (h : Sees w φ φ')
    (hknown : ∀ a ∈ φ.known, w.Stored a) : ∀ a ∈ φ'.known, w.Stored a := by
  cases h with
  | nothing | definition | task => exact hknown
  | approvals rows hrows =>
      intro a ha
      rcases List.mem_append.mp ha with hread | hold
      · exact World.stored_of_mem (hrows a hread)
      · exact hknown a hold

/-- The guarded update settles the approval it matches. -/
theorem Verdict.settles {w : World} {a : PendingApproval}
    {status : ApprovalStatus} {decision : ApprovalDecision} {user : Option Uuid}
    {n : Nat} {comment : Option String} {events : List Event}
    (h : Verdict a status decision user) (ha : w.Stored a)
    (hpending : w.db.isPending a.id = true) :
    (w.commit n (w.db.updateApproval a.id status comment w.now)
      events).Settled a
      decision := by
  obtain ⟨b, hb, hbecomes⟩ := ha
  obtain ⟨b', hb', hpending⟩ := Db.isPending_iff.mp hpending
  rw [hb, Option.some.injEq] at hb'
  subst hb'
  refine ⟨Db.decided status comment w.now b, ?_,
    hbecomes.trans (.decided b _ _ _), ?_⟩
  · rw [World.commit_db, Db.find?_updateApproval, if_pos rfl, hb,
      Option.map_some]
  · rw [Db.decided, if_pos hpending]
    exact h.fits

end Servcat
