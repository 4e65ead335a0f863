/-
A small deployment: a requester without a manager, an approver, one service with
a given workflow, and a connector that accepts every ticket.
-/
import Servcat.Server

namespace Servcat

open Atomic Keyed

namespace Sample

def id (n : Nat) : Uuid :=
  ⟨BitVec.ofNat 128 n⟩

def user (n : Nat) (name : String) (role : Role) : User where
  id := id n
  email := name ++ "@example.org"
  displayName := name
  passwordHash := none
  externalIdpSubject := none
  departmentId := none
  managerUserId := none
  role := role
  isActive := true

def requester : User := user 1 "ada" .requester

def approver : User := user 2 "bob" .approver

def item : ServiceCatalogItem where
  id := id 3
  slug := none
  name := "laptop"
  description := none
  summary := none
  detailsJson := none
  approvalLabel := none
  targetValue := none
  targetUnit := none
  category := none
  icon := none
  sortOrder := 0
  workflowDefinitionId := id 4
  isActive := true

def definition (graph : WorkflowGraph) : WorkflowDefinition where
  id := id 4
  name := "laptop request"
  version := 1
  graph := graph
  fieldMapping := some [("summary", "laptop")]
  targetSystem := some .webhook
  isPublished := true

def deps : Deps where
  connectors := fun _ => some fun n _ => .ok ⟨toString n, none⟩
  oneOff := fun template _ => .ok template
  collation := fun a b => decide (a ≤ b)

def world (graph : WorkflowGraph) : World where
  db :=
    { users := ⟨[requester, approver], by decide⟩
      items := ⟨[item], by decide⟩
      definitions := ⟨[definition graph], by simp⟩
      instances := .empty
      approvals := .empty
      tickets := .empty
      orgSettings :=
        { appName := "servcat"
          logoUrl := none
          allowLocalSignup := false
          timezone := "UTC" } }
  now := 0
  dispatches := []
  log := []

theorem initial (graph : WorkflowGraph) : (world graph).Initial :=
  ⟨rfl, rfl, rfl, rfl, rfl⟩

/-- What a thread is given at its steps: no fault, and identifiers from `first`
on. -/
def inputs (thread first : Nat) : List Input :=
  (List.range 40).map fun k => ⟨thread, id (first + k), .none⟩

/-- One operation alone: its exit and the state after it. -/
def perform (op : Operation) (first : Nat) (w : World) :
    Option (Exit ApiError (Option WorkflowInstance) × World) :=
  runAlone Input.Admitted (op.code deps 9) (inputs 0 first) w

theorem completes_of_perform {op : Operation} {first : Nat} {w : World}
    {result : Exit ApiError (Option WorkflowInstance) × World}
    (hop : op.Admissible w) (h : perform op first w = some result) :
    op.Completes deps w result.1 result.2 :=
  ⟨hop, 9, runs_of_runAlone h⟩

/-- The state after some operations, the first of which finds identifiers from
`100 * n` on. -/
def run : List Operation → Nat → World → Option World
  | [], _, w => some w
  | op :: rest, n, w =>
      (perform op (100 * n) w).bind fun result => run rest (n + 1) result.2

theorem step_of_run {guard : World → Operation → Prop} {op : Operation}
    {n : Nat} {w w' : World} (hguard : guard w op) (hop : op.Admissible w)
    (hrun : run [op] n w = some w') : SerialStep deps guard w w' := by
  obtain ⟨result, hperform, hrest⟩ := Option.bind_eq_some_iff.mp hrun
  obtain rfl : result.2 = w' := Option.some.inj hrest
  exact .operation hguard (completes_of_perform hop hperform)

theorem serial_of_run {guard : World → Operation → Prop} {ops : List Operation}
    {n : Nat} {w w' : World} (hguard : ∀ op ∈ ops, ∀ w, guard w op)
    (hops : ∀ op ∈ ops, ∀ w, op.Admissible w) (hrun : run ops n w = some w') :
    Serial deps guard w w' := by
  induction ops generalizing n w with
  | nil =>
      simp only [run, Option.some.injEq] at hrun
      rw [hrun]
  | cons op rest ih =>
      obtain ⟨result, hperform, hrest⟩ := Option.bind_eq_some_iff.mp hrun
      have hstep : SerialStep deps guard w result.2 :=
        step_of_run (hguard op List.mem_cons_self w)
          (hops op List.mem_cons_self w) (by rw [run, hperform]; rfl)
      exact .head hstep
        (ih (fun op hop => hguard op (List.mem_cons_of_mem _ hop))
        (fun op hop => hops op (List.mem_cons_of_mem _ hop)) hrest)

abbrev Schedule := List (Action Input (Request × Nat))

def arrive (request : Request) : Action Input (Request × Nat) :=
  .arrive (request, 9)

/-- Thread `n` takes `k` steps. -/
def steps (n first k : Nat) : Schedule :=
  ((inputs n first).take k).map (.run n)

/-- Play a schedule from a state in which no request is under way. -/
def play (R : Regime World (Request × Nat)) [R.Checked] (w : World)
    (schedule : Schedule) : Option ServerConfig :=
  (system deps).play R ⟨w, []⟩ schedule

def question (id fieldKey next : String) : Step :=
  ⟨id, id, .question fieldKey .text true [] next⟩

def approval (id : String) (resolution : ApproverResolution)
    (onApprove onReject : String) : Step :=
  ⟨id, id, .waitForApproval resolution onApprove onReject none⟩

def ticket (id next : String) : Step :=
  ⟨id, id, .submitTicket next⟩

def finish (id : String) (outcome : EndOutcome) : Step :=
  ⟨id, id, .end outcome⟩

/-- A ticket is filed at once. -/
def ticketOnly : WorkflowGraph where
  entryStepId := "file"
  steps := [ticket "file" "done", finish "done" .completed]

/-- The approver decides, then a ticket is filed. -/
def approvalThenTicket : WorkflowGraph where
  entryStepId := "approve"
  steps :=
    [approval "approve" (.static approver.id) "file" "rejected",
      ticket "file" "done", finish "done" .completed,
        finish "rejected" .rejected]

/-- A question comes first. -/
def questionThenApproval : WorkflowGraph where
  entryStepId := "ask"
  steps :=
    [question "ask" "reason" "approve",
      approval "approve" (.static approver.id) "file" "rejected",
      ticket "file" "done", finish "done" .completed,
        finish "rejected" .rejected]

end Sample

end Servcat
