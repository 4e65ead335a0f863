/-
Requests for seeded services.  The seed names no target system, and nothing can
add one to a definition later.
-/
import Servcat.CatalogSeed.Graphs
import Servcat.CatalogSeed.Rerun
import Servcat.Serial.Cooperation
import Servcat.Serial.Rounds

namespace Servcat

open Atomic Keyed Engine

namespace CatalogSeed

variable {collation : String → String → Bool} {createdBy : Uuid}
  {items : List SeedItem} {item : SeedItem} {entries : List Entry} {db db' : Db}
  {w w' : World} {x : Exit ApiError SeedSummary}

theorem AddsAll.frame (h : AddsAll collation createdBy entries db db') :
    ∃ definitions items, db' = { db with definitions, items } := by
  induction h with
  | nil => exact ⟨_, _, rfl⟩
  | cons hadds _ ih =>
      obtain ⟨-, -, -, definitions, items, -, -, rfl⟩ := hadds
      exact ih

/-- All that a run of the seed changes, however it ends: rows for items of the
file were added, and definitions that no item has. -/
structure Seeds (items : List SeedItem) (entries : List Entry)
    (unused : List WorkflowDefinition) (w w' : World) : Prop where
  mem : ∀ entry ∈ entries, entry.item ∈ items
  frame : ∃ definitions items,
    w' = { w with db := { w.db with definitions, items } }
  items : w'.db.items.rows = w.db.items.rows ++ entries.map Entry.itemRow
  definitions : w'.db.definitions.rows =
    w.db.definitions.rows ++ entries.map Entry.definitionRow ++ unused

theorem AddsAll.seeds {db : Db}
    (h : AddsAll collation createdBy entries w.db db)
    (hmem : ∀ entry ∈ entries, entry.item ∈ items) :
    Seeds items entries [] w { w with db } := by
  obtain ⟨definitions, rows, rfl⟩ := h.frame
  exact ⟨hmem, ⟨definitions, rows, rfl⟩, h.grown.items,
    h.grown.definitions.trans (List.append_nil _).symm⟩

theorem mem_of_mem_absent (db : Db)
    (h : item ∈ (absent db items).map Prod.fst) :
    item ∈ items := by
  rw [absent_map_fst] at h
  exact (List.mem_filter.mp h).1

theorem run_seeds
    (h : Runs Input.Drawn (run collation items createdBy) w x w') :
    ∃ entries unused, Seeds items entries unused w w' := by
  obtain ⟨inputs, h⟩ := runs_iff_consumes.mp h
  rcases run_cases h with ⟨entries, hcompleted, -⟩ |
    ⟨_, _, _, _, -, -, -, ⟨-, -, rfl⟩ | hstopped⟩
  · have hmem : ∀ entry ∈ entries, entry.item ∈ items := by
      intro entry hentry
      apply mem_of_mem_absent w.db
      rw [← hcompleted.items_eq]
      exact List.mem_map_of_mem hentry
    obtain ⟨-, -, db, hadds, rfl⟩ := hcompleted
    exact ⟨entries, [], hadds.seeds hmem⟩
  · have hnothing : AddsAll collation createdBy [] w'.db w'.db := .nil
    exact ⟨[], [], hnothing.seeds (by simp)⟩
  · obtain @⟨mid, entries, item, index, before, after, htodo, hbefore,
        hbroken⟩ :=
      hstopped
    have hmem : ∀ item' ∈ entries.map Entry.item ++ [item], item' ∈ items := by
      intro item' hitem'
      apply mem_of_mem_absent w.db
      rw [htodo, List.map_append, ← hbefore.items_eq, List.map_cons]
      exact List.append_subset.mpr ⟨List.subset_append_left _ _, by simp⟩ hitem'
    obtain ⟨-, -, mid, hadds, rfl⟩ := hbefore
    have hentries : ∀ entry ∈ entries, entry.item ∈ items := fun entry hentry =>
      hmem _ (List.mem_append_left _ (List.mem_map_of_mem hentry))
    cases hbroken with
    | nothing => exact ⟨entries, [], hadds.seeds hentries⟩
    | @orphan _ _ _ definition definitions _ hinsert =>
        have hgrown := hadds.grown
        obtain ⟨_, rows, rfl⟩ := hadds.frame
        refine ⟨entries, [definition], hentries, ⟨definitions, rows, rfl⟩,
          hgrown.items, ?_⟩
        change definitions.rows = _
        rw [(Table.insert?_eq_some_iff.mp hinsert).2]
        exact congrArg (· ++ [definition]) hgrown.definitions
    | @both _ _ _ entry db hitem _ hentry =>
        refine ⟨entries ++ [entry], [],
          (hadds.append (.cons hentry .nil)).seeds ?_⟩
        refine List.forall_mem_append.mpr
          ⟨hentries, List.forall_mem_singleton.mpr ?_⟩
        exact hmem _ (List.mem_append_right _ (by simp [hitem]))

variable {unused : List WorkflowDefinition}

theorem Seeds.drift (h : Seeds items entries unused w w') : w.Drift w' := by
  have hsubset : w.db.definitions.rows ⊆ w'.db.definitions.rows := by
    rw [h.definitions, List.append_assoc]
    exact List.subset_append_left _ _
  obtain ⟨definitions, rows, rfl⟩ := h.frame
  refine ⟨le_refl _, ?_, rfl, rfl, rfl, rfl, rfl⟩
  intro id definition hdefinition
  obtain rfl := Table.key_of_find? hdefinition
  exact ⟨definition.isPublished,
    Table.find?_of_mem (hsubset (Table.mem_of_find? hdefinition))⟩

/-- A new catalog item has the definition that was built for its item
of the file. -/
theorem Seeds.offers (h : Seeds items entries unused w w')
    {row : ServiceCatalogItem} (hrow : row ∈ w'.db.items.rows)
    (hnew : w.db.items.find? row.id = none) :
    ∃ item ∈ items, row.slug = some item.slug ∧
      w'.db.Untargeted (buildGraph item.workflowPattern item.questions)
        row.workflowDefinitionId := by
  rw [h.items] at hrow
  rcases List.mem_append.mp hrow with hrow | hrow
  · rw [Table.find?_of_mem hrow] at hnew
    cases hnew
  · obtain ⟨entry, hentry, rfl⟩ := List.mem_map.mp hrow
    have hdefinition : entry.definitionRow ∈ w'.db.definitions.rows := by
      rw [h.definitions]
      exact List.mem_append_left
        _ (List.mem_append_right _ (List.mem_map_of_mem hentry))
    exact ⟨entry.item, h.mem entry hentry, rfl, entry.definitionRow,
      Table.find?_of_mem hdefinition, rfl, rfl⟩

/-- The answers and approvals that a request needs. -/
def calls (pattern : WorkflowPattern)
    (questions : List SeedQuestion) : List Outcome :=
  questions.map (fun q => .awaitingAnswer q.fieldKey) ++
    (approvals pattern).map fun resolution => .awaitingApproval resolution none

theorem course_eq_calls (pattern : WorkflowPattern)
    (questions : List SeedQuestion) :
    course pattern questions =
      calls pattern questions ++ (tickets pattern ++ [.finished .completed]) :=
  List.append_assoc _ _ _

theorem calls_await (pattern : WorkflowPattern)
    (questions : List SeedQuestion) :
    ∀ outcome ∈ calls pattern questions, outcome.Awaits := by
  unfold calls
  rw [List.forall_mem_append, List.forall_mem_map, List.forall_mem_map]
  exact ⟨fun _ _ => trivial, fun _ _ => trivial⟩

/-- What comes after the approvals. -/
theorem exists_after_calls (pattern : WorkflowPattern) :
    ∃ outcome later,
      tickets pattern ++ [.finished .completed] = outcome :: later ∧
      ¬outcome.Awaits ∧
      (untargetedStatus outcome = .completed ↔ pattern = .infoOnly) := by
  cases pattern with
  | infoOnly => exact ⟨_, _, rfl, id, iff_of_true rfl rfl⟩
  | _ => exact ⟨_, _, rfl, id, iff_of_false (by decide) (by decide)⟩

/-- A request for a seeded service, all of whose questions are answered and all
of whose approvals are given, is completed if and only if there is no ticket to
file: the definition names no target system, whatever connectors there are. -/
theorem seeded_request_completes_iff {deps : Deps} {u v : World}
    {row row' : ServiceCatalogItem} (hu : u.Initial)
    (hbefore : Serial deps anyOperation u v)
    (hseed : Runs Input.Drawn (run collation items createdBy) v x w)
    (hrow : row ∈ w.db.items.rows) (hnew : v.db.items.find? row.id = none)
    (hafter : Serial deps anyOperation w w')
    (hoffered : w'.db.items.find? row.id = some row')
    (hkept : row'.workflowDefinitionId = row.workflowDefinitionId) :
    ∃ item ∈ items, row.slug = some item.slug ∧ ∀ instanceId n w'',
      Cooperative deps (buildGraph item.workflowPattern item.questions) row.id
        instanceId w' n w'' →
      ∃ request, w''.db.instances.find? instanceId = some request ∧
        n ≤ item.questions.length + (approvals item.workflowPattern).length ∧
        (n < item.questions.length + (approvals item.workflowPattern).length →
          request.status = .inProgress ∨ request.status = .awaitingApproval) ∧
        (n = item.questions.length + (approvals item.workflowPattern).length →
          (request.status = .completed ↔
            item.workflowPattern = .infoOnly)) := by
  obtain ⟨entries, unused, hseeds⟩ := run_seeds hseed
  obtain ⟨item, hitem, hslug, huntargeted⟩ := hseeds.offers hrow hnew
  refine ⟨item, hitem, hslug, ?_⟩
  intro instanceId n w'' hcooperative
  have hw : w.core.Consistent :=
    hseeds.drift.consistent (hbefore.consistent hu.consistent)
  have hkeeps := hafter.untargeted hw huntargeted
  rw [← hkept] at hkeeps
  obtain ⟨-, past, rfl, hunderway⟩ :=
    hcooperative.underway (hafter.consistent hw)
      hoffered hkeeps (buildGraph_realises _ _)
  obtain ⟨outcome, later, htickets, hawaits, hcompleted⟩ :=
    exists_after_calls item.workflowPattern
  have hcourse : (plan item.workflowPattern item.questions).course =
      calls item.workflowPattern item.questions ++ outcome :: later := by
    rw [plan_course, course_eq_calls, htickets]
  obtain ⟨request, hrequest, hle, hlt, heq⟩ :=
    hunderway.status hcourse (calls_await _ _) hawaits
  have hlength : (calls item.workflowPattern item.questions).length =
      item.questions.length + (approvals item.workflowPattern).length := by
    simp [calls]
  rw [hlength] at hle hlt heq
  refine ⟨request, hrequest, hle, hlt, fun hall => ?_⟩
  rw [heq hall]
  exact hcompleted

/-- A service with one question. -/
def Sample.asking (pattern : WorkflowPattern) : SeedItem :=
  { service "vpn" "VPN access" true with
    workflowPattern := pattern
    questions := [⟨"device", "For which device?", .text, true, []⟩] }

/-- The service is seeded, requested and the question answered. -/
def Sample.seededWith (pattern : WorkflowPattern) :
    Exit ApiError SeedSummary × World :=
  (Sample.seed [Sample.asking pattern] 100 Sample.newDeployment).get
    (by cases pattern <;> rfl)

def Sample.requested (pattern : WorkflowPattern) :
    Exit ApiError (Option WorkflowInstance) × World :=
  (Sample.perform (.start (Sample.id 104) Sample.requester) 200
    (Sample.seededWith pattern).2).get (by cases pattern <;> rfl)

def Sample.answer : Operation :=
  .submit (Sample.id 202) Sample.requester "device" (.string "laptop")

def Sample.answered (pattern : WorkflowPattern) :
    Exit ApiError (Option WorkflowInstance) × World :=
  (Sample.perform Sample.answer 300 (Sample.requested pattern).2).get
    (by cases pattern <;> rfl)

theorem Sample.resolvable {pattern : WorkflowPattern}
    (hpattern : approvals pattern = []) (requesterUserId : Uuid) (c : Core) :
    Resolvable Sample.deps
      (buildGraph pattern (Sample.asking pattern).questions)
        requesterUserId c := by
  rintro stepId resolution timeoutSeconds ⟨s, hs, hkind⟩
  have hmem := List.mem_of_find?_eq_some hs
  cases pattern with
  | simpleTicket | infoOnly =>
      simp [buildGraph, buildSteps, appendQuestions, pushSubmitAndEnds,
        Sample.asking, endStep] at hmem
      rcases hmem with rfl | rfl | rfl <;> cases hkind
  | _ => cases hpattern

theorem Sample.cooperative {pattern : WorkflowPattern}
    (hpattern : approvals pattern = []) :
    Cooperative Sample.deps
      (buildGraph pattern (Sample.asking pattern).questions) (Sample.id 104)
      (Sample.id 202) (Sample.seededWith pattern).2 1
      (Sample.answered pattern).2 := by
  have hstart : (Operation.start (Sample.id 104) Sample.requester).Completes
      Sample.deps (Sample.seededWith pattern).2 (Sample.requested pattern).1
      (Sample.requested pattern).2 :=
    Sample.completes_of_perform trivial (Option.some_get _).symm
  have hanswer : Sample.answer.Completes Sample.deps
      (Sample.requested pattern).2
      (Sample.answered pattern).1 (Sample.answered pattern).2 :=
    Sample.completes_of_perform trivial (Option.some_get _).symm
  have hrow : (Sample.requested pattern).2.db.instances.find? (Sample.id 202) =
      some (newInstance (Sample.id 202) (Sample.id 101) (Sample.id 104)
        Sample.requester.id "q1") := by
    cases pattern <;> rfl
  have hstarted := Cooperative.started (Sample.resolvable hpattern _ _) hstart
    (by cases pattern <;> rfl) (by rw [hrow]; rfl)
  refine hstarted.answered hrow ?_ rfl (Sample.resolvable hpattern _ _) hanswer
  cases pattern <;> exact ⟨_, rfl, rfl⟩

theorem Sample.seededWith_runs (pattern : WorkflowPattern) :
    Runs Input.Drawn (run caseless [Sample.asking pattern] Sample.approver.id)
      Sample.newDeployment (Sample.seededWith pattern).1
        (Sample.seededWith pattern).2 := by
  have hsome : Sample.seed [Sample.asking pattern] 100 Sample.newDeployment =
      some (Sample.seededWith pattern) := (Option.some_get _).symm
  have hruns : Runs Input.Undisturbed _ _ _ _ := runs_of_runAlone hsome
  exact hruns.mono fun _ _ hi => hi.2

theorem Sample.deps_accepting : Sample.deps.Accepting := by
  rintro targetSystem connector ⟨⟩ n payload
  exact ⟨_, rfl⟩

/-- There is a ticket to file, and every connector would accept it. -/
theorem seeded_request_fails :
    Sample.deps.Accepting ∧
    (∀ target, (Sample.deps.connectors target).isSome = true) ∧
    Sample.newDeployment.Initial ∧
    Runs Input.Drawn
      (run caseless [Sample.asking .simpleTicket] Sample.approver.id)
      Sample.newDeployment (Sample.seededWith .simpleTicket).1
      (Sample.seededWith .simpleTicket).2 ∧
    Cooperative Sample.deps
      (buildGraph .simpleTicket (Sample.asking .simpleTicket).questions)
        (Sample.id 104)
      (Sample.id 202) (Sample.seededWith .simpleTicket).2 1
      (Sample.answered .simpleTicket).2 ∧
    (Sample.answered .simpleTicket).2.db.instances.rows.map
      WorkflowInstance.status = [.failed] :=
  ⟨Sample.deps_accepting, fun _ => rfl, ⟨rfl, rfl, rfl, rfl, rfl⟩,
    Sample.seededWith_runs _, Sample.cooperative rfl, by decide⟩

theorem seeded_request_completes_iff_info :
    ∃ request,
      (Sample.answered .infoOnly).2.db.instances.find? (Sample.id 202) =
        some request ∧
      request.status = .completed := by
  let row : ServiceCatalogItem :=
    Entry.itemRow ⟨0, Sample.asking .infoOnly, Sample.id 104,
      Sample.id 101, true⟩
  have hrow : row ∈ (Sample.seededWith .infoOnly).2.db.items.rows :=
    List.mem_singleton_self _
  obtain ⟨item, hitem, -, hrequests⟩ :=
    @seeded_request_completes_iff _ _ _ _ _ _ Sample.deps _ _ row row
      ⟨rfl, rfl, rfl, rfl, rfl⟩ .refl (Sample.seededWith_runs .infoOnly) hrow
        rfl .refl rfl
      rfl
  obtain rfl := List.mem_singleton.mp hitem
  obtain ⟨request, hfound, -, -, hcompleted⟩ :=
    hrequests _ _ _ (Sample.cooperative rfl)
  exact ⟨request, hfound, (hcompleted rfl).mpr rfl⟩

end CatalogSeed

end Servcat
