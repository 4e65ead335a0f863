/-
The lookups for the notification of a new approval, with any changes by others
between the statements: one that the database fails to answer fails the whole
call, although the approval has been inserted.
-/
import Servcat.Atomic.Amid
import Servcat.Approvals.Assignment
import Servcat.Concurrent.Growth

namespace Servcat

open Atomic Keyed

/-- What others may do while thread `n` waits: anything, but no approval is
deleted or handed to another approver or instance, and the log of the thread
is its own. -/
structure World.Elsewhere (n : Nat) (w w' : World) : Prop where
  approvals : ∀ id row, w.db.approvals.find? id = some row →
    ∃ row', w'.db.approvals.find? id = some row' ∧
      row'.approverUserId = row.approverUserId ∧
      row'.workflowInstanceId = row.workflowInstanceId
  log : ∀ event, (n, event) ∈ w'.log ↔ (n, event) ∈ w.log

namespace World.Elsewhere

variable {n : Nat} {w w' w'' : World}

theorem refl (n : Nat) (w : World) : w.Elsewhere n w :=
  ⟨fun _ row hrow => ⟨row, hrow, rfl, rfl⟩, fun _ => Iff.rfl⟩

theorem trans (h : w.Elsewhere n w')
    (h' : w'.Elsewhere n w'') : w.Elsewhere n w'' where
  approvals id row hrow := by
    obtain ⟨row', hrow', happrover, hinstance⟩ := h.approvals id row hrow
    obtain ⟨row'', hrow'', happrover', hinstance'⟩ := h'.approvals id row' hrow'
    exact ⟨row'', hrow'', happrover'.trans happrover,
      hinstance'.trans hinstance⟩
  log event := (h'.log event).trans (h.log event)

theorem of_grows (h : w.Grows w')
    (hlog : ∀ event, (n, event) ∈ w'.log ↔ (n, event) ∈ w.log) :
    w.Elsewhere n w' where
  approvals id row hrow := by
    obtain ⟨row', hrow', hbecomes⟩ := h.approvals id row hrow
    exact ⟨row', hrow', hbecomes.approverUserId, hbecomes.workflowInstanceId⟩
  log := hlog

/-- Edits by admins are among what others may do. -/
theorem of_drift (h : w.Drift w') : w.Elsewhere n w' :=
  of_grows h.grows fun event => by rw [h.log]

/-- So is every step of another request. -/
theorem of_move {m : Nat} {φ φ' : Phase} (h : Move m φ w φ' w') (hne : m ≠ n) :
    w.Elsewhere n w' := by
  refine of_grows h.grows fun event => ?_
  cases h <;> simp [World.record, World.commit, Ne.symm hne]

end World.Elsewhere

section Inversions

variable {α β : Type} {n : Nat} {inputs : List (Input × World)} {w w' : World}

end Inversions

namespace Approvals

variable {n : Nat} {w w' : World}

namespace Unnotified

/-- A request that waits for its first approval to be opened. -/
def world : World :=
  { Sample.world Sample.approvalThenTicket with
    db :=
      { (Sample.world Sample.approvalThenTicket).db with
        instances :=
          ⟨[newInstance (Sample.id 5) (Sample.id 4) Sample.item.id
            Sample.requester.id "approve"], by decide⟩ } }

def code : Async ApprovalsError PendingApproval :=
  createForInstance Sample.deps (Sample.id 5) "approve" Sample.requester
    (.static Sample.approver.id) none

def row : PendingApproval :=
  openApproval (Sample.id 9) (Sample.id 5) "approve" Sample.approver.id none

/-- The INSERT, the row read back, the four lookups and the notification. -/
def inputs (settings : Fault) : List Input :=
  [.none, .none, .none, .none, .none, settings, .none].map fun fault =>
    ⟨0, Sample.id 9, fault⟩

end Unnotified

end Approvals

end Servcat
