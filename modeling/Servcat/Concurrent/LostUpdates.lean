/-
Saving the row of an instance overwrites whatever other requests have saved
since the row was read.  A finished instance may be reopened and an
acknowledged answer lost; neither happens in runs without the one kind of late
save that does it.
-/
import Servcat.Sample
import Servcat.Concurrent.Readings

namespace Servcat

open Atomic Keyed

/-- The keys of the answers an instance has. -/
def answerKeys (answersJson : JsonValue) : List String :=
  (Orchestrator.answersMap answersJson).map Prod.fst

@[simp] theorem answerKeys_answersMap (answersJson : JsonValue) :
    answerKeys (.object (Orchestrator.answersMap answersJson)) =
      answerKeys answersJson :=
  rfl

/-- What a save writes that matters here: whose row, which answers and which
status. -/
def Event.saved? : Event → Option (Uuid × JsonValue × InstanceStatus)
  | .saved instanceId _ answersJson status =>
      some (instanceId, answersJson, status)
  | _ => none

namespace World

/-- Every stored row is still stored, as `P` allows it to change. -/
def Evolves (P : WorkflowInstance → WorkflowInstance → Prop)
    (w w' : World) : Prop :=
  ∀ id row, w.db.instances.find? id = some row →
    ∃ row', w'.db.instances.find? id = some row' ∧ P row row'

variable {P : WorkflowInstance → WorkflowInstance → Prop} {w w' w'' : World}

theorem Evolves.of_eq (hrefl : ∀ row, P row row)
    (heq : w'.db.instances = w.db.instances) : w.Evolves P w' :=
  fun id row hrow => ⟨row, by rw [heq]; exact hrow, hrefl row⟩

theorem Evolves.trans (htrans : ∀ {a b c}, P a b → P b c → P a c)
    (h : w.Evolves P w') (h' : w'.Evolves P w'') : w.Evolves P w'' := by
  intro id row hrow
  obtain ⟨row', hrow', hP⟩ := h id row hrow
  obtain ⟨row'', hrow'', hP'⟩ := h' id row' hrow'
  exact ⟨row'', hrow'', htrans hP hP'⟩

end World

/-- Only saves change stored rows. -/
theorem Move.evolves {P : WorkflowInstance → WorkflowInstance → Prop} {n : Nat}
    {φ φ' : Phase} {w w' : World} (h : Move n φ w φ' w')
    (hrefl : ∀ row, P row row)
    (hsave : ∀ row stepId answers status row',
      φ.stage.Saves row stepId answers status →
      w.added w' = [(n, .saved row.id stepId (.object answers) status)] →
      w.db.instances.find? row.id = some row' →
      P row' (Db.progressed stepId (.object answers) status w.now row')) :
    w.Evolves P w' := by
  cases h with
  | look | remark | load | tickets | dispatch | openApproval | flip | resume =>
      exact .of_eq hrefl rfl
  | create hstage hstart hinsert =>
      exact fun id row hrow =>
        ⟨row, Table.find?_insert_of_some hinsert hrow, hrefl row⟩
  | @save w row stepId answers status h =>
      intro id row' hrow'
      rw [World.commit_db, Db.find?_updateInstance, hrow']
      split
      · rename_i hid
        subst hid
        exact ⟨_, rfl, hsave row stepId answers status row' h
          (World.added_append rfl) hrow'⟩
      · exact ⟨row', rfl, hrefl row'⟩

/-- The instance was saved as finished. -/
def Event.finishes (instanceId : Uuid) (event : Event) : Bool :=
  event.saved?.any fun save => save.1 = instanceId && save.2.2.isTerminal

/-- The thread saves no instance that was finished when it read the row, nor one
that was finished since. -/
def SavesUnfinished (n : Nat) (w w' : World) : Prop :=
  ∀ entry ∈ w.added w', ∀ save ∈ entry.2.saved?,
    (∀ reading ∈ w.base? n, reading.row.status.isTerminal = false) ∧
    ∀ other ∈ w.since n, other.2.finishes save.1 = false

instance (n : Nat) (w w' : World) : Decidable (SavesUnfinished n w w') :=
  inferInstanceAs (Decidable (∀ entry ∈ w.added w', _))

/-- All requests, as long as they do not save finished instances. -/
def unfinishedSaves : Regime World (Request × Nat) :=
  ⟨fun _ => True, SavesUnfinished⟩

instance : unfinishedSaves.Checked where
  arrives _ := isTrue trivial
  allowed n w w' := inferInstanceAs (Decidable (SavesUnfinished n w w'))

/-- A finished row keeps its status. -/
def KeepsFinal (row row' : WorkflowInstance) : Prop :=
  row.status.isTerminal = true → row'.status = row.status

theorem KeepsFinal.trans {a b c : WorkflowInstance} (h : KeepsFinal a b)
    (h' : KeepsFinal b c) : KeepsFinal a c := by
  intro ha
  rw [h' (by rw [h ha]; exact ha), h ha]

/-- A save that is allowed finds the instance unfinished. -/
theorem unfinished_of_saves {n : Nat} {w w' : World} {φ : Phase}
    {row row' : WorkflowInstance} {stepId : String} {answers : Answers}
    {status : InstanceStatus} (hw : w.Tracks n) (hφ : φ.Based n w)
    (hsaves : φ.stage.Saves row stepId answers status)
    (hadded : w.added w' = [(n, .saved row.id stepId (.object answers) status)])
    (hallowed : SavesUnfinished n w w')
    (hrow' : w.db.instances.find? row.id = some row') :
    row'.status.isTerminal = false := by
  obtain ⟨reading, hreading, rfl⟩ := hsaves.reading?
  have hbase := hφ reading hreading
  obtain ⟨hread, hsince⟩ := hallowed
    (n, .saved reading.row.id stepId (.object answers) status)
    (by rw [hadded]; exact List.mem_singleton_self _) _ rfl
  obtain ⟨row'', hrow'', hold⟩ := hw reading hbase
  rw [hrow', Option.some.injEq] at hrow''
  subst hrow''
  rcases hold with rfl | ⟨m, hmem⟩
  · exact hread reading hbase
  · have hspared := hsince _ hmem
    simpa [Event.finishes, Event.saved?, Table.key_of_find? hrow'] using hspared

/-- The proof outline: the row a request saves is not finished. -/
def finality (deps : Deps) : Outline (phases deps) unfinishedSaves where
  inv w := ∀ n, w.Tracks n
  holds n φ w := φ.Based n w
  absent _ _ := True
  grow := World.Evolves KeepsFinal
  grow_refl w := .of_eq (fun _ _ => rfl) rfl
  grow_trans := World.Evolves.trans KeepsFinal.trans
  entry n l w _ _ _ := fun row hrow => by cases hrow
  drift w w' hw hdrift := ⟨fun n => hdrift.tracks (hw n),
    .of_eq (fun _ _ => rfl) hdrift.instances,
    fun n => ⟨id, fun φ hφ => hdrift.based hφ⟩⟩
  step n φ φ' w w' hw hφ hmove hallowed := by
    refine ⟨hmove.tracks hw, hmove.evolves (fun _ _ => rfl) ?_,
      hmove.based.1 hφ, fun m hne => ⟨id, fun ψ hψ => hmove.based.2 m ψ hne hψ⟩⟩
    intro row stepId answers status row' hsaves hadded hrow' hterminal
    rw [unfinished_of_saves (hw n) hφ hsaves hadded hallowed hrow'] at hterminal
    cases hterminal

/-- Whatever requests run concurrently, as long as none of them saves an
instance that was finished when it read the row or has been finished since, a
finished instance keeps its status. -/
theorem finished_instances_final {deps : Deps} {w : World} (hw : w.Initial)
    {c d : ServerConfig} (hc : Reaches (system deps) unfinishedSaves ⟨w, []⟩ c)
    (hd : Reaches (system deps) unfinishedSaves c d) {id : Uuid}
    {row : WorkflowInstance} (hrow : c.state.db.instances.find? id = some row)
    (hfinal : row.status.isTerminal = true) :
    ∃ row', d.state.db.instances.find? id = some row' ∧
      row'.status = row.status := by
  have hat := ((finality deps).at_reaches ((finality deps).at_nil
    (World.tracks_of_log hw.log) fun _ => trivial) hc).1
  obtain ⟨row', hrow', hkeeps⟩ :=
    ((finality deps).at_reaches hat hd).2 id row hrow
  exact ⟨row', hrow', hkeeps hfinal⟩

namespace Sample

/-- A start that has inserted its approval and not yet saved the row, while the
approval is decided and the instance completed. -/
def overtaken : Option ServerConfig :=
  play .free (world approvalThenTicket)
    (arrive (.start item.id requester) :: steps 0 100 6 ++
      arrive (.decide (id 105) approver.id .approve none) :: steps 1 200 15)

/-- The start goes on from there. -/
def reopened : Option ServerConfig :=
  overtaken.bind fun c => (system deps).play .free c (steps 0 106 8)

end Sample

theorem finished_instances_final_completed :
    let c :=
      (Sample.play unfinishedSaves (Sample.world Sample.approvalThenTicket)
        (Sample.arrive (.start Sample.item.id Sample.requester) ::
          Sample.steps 0 100 14 ++
          Sample.arrive
            (.decide (Sample.id 105) Sample.approver.id .approve none) ::
          Sample.steps 1 200 15)).get (by decide)
    let d := ((system Sample.deps).play unfinishedSaves c
      (Sample.arrive .poll :: Sample.steps 2 300 1)).get (by decide)
    let row := (c.state.db.instances.find? (Sample.id 102)).get (by decide)
    row.status = .completed ∧
    ∃ row', d.state.db.instances.find? (Sample.id 102) = some row' ∧
      row'.status = row.status :=
  ⟨by decide, finished_instances_final
    (Sample.initial Sample.approvalThenTicket)
    (System.play_reaches (Option.some_get _).symm)
    (System.play_reaches (Option.some_get _).symm) (Option.some_get _).symm
    (by decide)⟩

/-- The approval is decided, and the instance completed, before the start that
inserted the approval saves the row: its save puts the completed instance back
to awaiting that approval. -/
theorem finished_instance_reopened :
    let c := Sample.overtaken.get (by decide)
    let d := Sample.reopened.get (by decide)
    (Sample.world Sample.approvalThenTicket).Initial ∧
    Reaches (system Sample.deps) .free
      ⟨Sample.world Sample.approvalThenTicket, []⟩ c ∧
    Reaches (system Sample.deps) .free c d ∧
    (d.state.db.instances.find? (Sample.id 102)).map WorkflowInstance.status =
      some .awaitingApproval ∧
    ¬ ∀ row ∈ c.state.db.instances.rows, row.status.isTerminal = true →
      ∃ row' ∈ d.state.db.instances.rows,
        row'.id = row.id ∧ row'.status = row.status :=
  ⟨Sample.initial _, System.play_reaches (Option.some_get _).symm,
    System.play_reaches (Option.some_get _).symm, by decide, by decide⟩

/-- The keys of the answers in the row that was read, and of the
one submitted. -/
def Reading.answerKeys (reading : Reading) : List String :=
  Servcat.answerKeys reading.row.answersJson ++ reading.fieldKey.toList

/-- The thread saves an instance only if every answer that was saved for it
since the thread read the row was in that row already, or is the one the
thread submits. -/
def SavesAllAnswers (n : Nat) (w w' : World) : Prop :=
  ∀ entry ∈ w.added w', ∀ save ∈ entry.2.saved?, ∀ other ∈ w.since n,
    ∀ save' ∈ other.2.saved?, save'.1 = save.1 → ∀ reading ∈ w.base? n,
      ∀ key ∈ answerKeys save'.2.1, key ∈ reading.answerKeys

instance (n : Nat) (w w' : World) : Decidable (SavesAllAnswers n w w') :=
  inferInstanceAs (Decidable (∀ entry ∈ w.added w', _))

/-- All requests, as long as they do not save over answers they do not have. -/
def completeSaves : Regime World (Request × Nat) :=
  ⟨fun _ => True, SavesAllAnswers⟩

instance : completeSaves.Checked where
  arrives _ := isTrue trivial
  allowed n w w' := inferInstanceAs (Decidable (SavesAllAnswers n w w'))

/-- No answer is removed. -/
def KeepsAnswers (row row' : WorkflowInstance) : Prop :=
  answerKeys row.answersJson ⊆ answerKeys row'.answersJson

/-- The request has the answers it read and the one it submits; those it saved
are stored. -/
def Stage.Keeps (w : World) : Stage → Prop
  | .driving t | .opened t _ => t.answerKeys ⊆ answerKeys (.object t.answers)
  | .saved instanceId answers =>
      ∃ row, w.db.instances.find? instanceId = some row ∧
      answerKeys (.object answers) ⊆ answerKeys row.answersJson
  | _ => True

theorem Stage.Keeps.mono {w w' : World} {stage : Stage} (h : stage.Keeps w)
    (hevolves : w.Evolves KeepsAnswers w') : stage.Keeps w' := by
  cases stage with
  | saved instanceId answers =>
      obtain ⟨row, hrow, hkeys⟩ := h
      obtain ⟨row', hrow', hkeeps⟩ := hevolves _ row hrow
      exact ⟨row', hrow', List.Subset.trans hkeys hkeeps⟩
  | _ => exact h

theorem Stage.Saves.answers {w : World} {stage : Stage} {row : WorkflowInstance}
    {stepId : String} {answers : Answers} {status : InstanceStatus}
    {reading : Reading} (h : stage.Saves row stepId answers status)
    (hstage : stage.Keeps w) (hreading : stage.reading? = some reading) :
    reading.answerKeys ⊆ answerKeys (.object answers) := by
  cases h <;> cases hreading <;> exact hstage

/-- Asking the engine removes no answer, and adds the one that is submitted. -/
theorem Origin.ask_answers {origin : Origin} {graph : WorkflowGraph}
    {row : WorkflowInstance} {answers : Answers} {result : String × Outcome}
    (h : origin.ask graph row = (answers, .ok result)) :
    Reading.answerKeys { row, fieldKey := origin.fieldKey } ⊆
      answerKeys (.object answers) := by
  intro key hkey
  refine JsonMap.containsKey_iff.mp ?_
  cases origin with
  | submit fieldKey value =>
      change answers.containsKey key = true
      rw [(Engine.submitAnswer_ok h).1, JsonMap.containsKey_insert]
      rcases List.mem_append.mp hkey with hold | hnew
      · rw [JsonMap.containsKey_iff.mpr hold, Bool.or_true]
      · simp [List.mem_singleton.mp hnew]
  | resume approval decision =>
      rw [← (Prod.mk.inj h).1]
      refine JsonMap.containsKey_iff.mpr ?_
      rcases List.mem_append.mp hkey with hold | hnone
      · exact hold
      · cases hnone

/-- A save that is allowed removes no answer. -/
theorem keepsAnswers_of_saves {n : Nat} {w w' : World} {φ : Phase}
    {row row' : WorkflowInstance} {stepId : String} {answers : Answers}
    {status : InstanceStatus} (hw : w.Tracks n) (hφ : φ.Based n w)
    (hstage : φ.stage.Keeps w)
    (hsaves : φ.stage.Saves row stepId answers status)
    (hadded : w.added w' = [(n, .saved row.id stepId (.object answers) status)])
    (hallowed : SavesAllAnswers n w w')
    (hrow' : w.db.instances.find? row.id = some row') :
    answerKeys row'.answersJson ⊆ answerKeys (.object answers) := by
  obtain ⟨reading, hreading, rfl⟩ := hsaves.reading?
  have hbase := hφ reading hreading
  have hcopy := hsaves.answers hstage hreading
  obtain ⟨row'', hrow'', hold⟩ := hw reading hbase
  rw [hrow', Option.some.injEq] at hrow''
  subst hrow''
  have hid : row'.id = reading.row.id := Table.key_of_find? hrow'
  rcases hold with rfl | ⟨m, hmem⟩
  · exact fun key hkey => hcopy (List.mem_append_left _ hkey)
  · exact fun key hkey => hcopy (hallowed
      (n, .saved reading.row.id stepId (.object answers) status)
      (by rw [hadded]; exact List.mem_singleton_self _) _ rfl _ hmem _ rfl
        hid reading
      hbase key hkey)

theorem Move.keeps {n : Nat} {φ φ' : Phase} {w w' : World}
    (h : Move n φ w φ' w') (hw : w.Tracks n) (hφ : φ.Based n w)
    (hstage : φ.stage.Keeps w)
    (hevolves : w.Evolves KeepsAnswers w') : φ'.stage.Keeps w' := by
  have hsame := hstage.mono hevolves
  cases h with
  | look h =>
      cases h with
      | nothing | approvals => exact hsame
      | definition => trivial
      | task t _ hfieldKey _ hask =>
          have hkeys := Origin.ask_answers hask
          rw [← hfieldKey] at hkeys
          exact hkeys
  | remark | tickets | dispatch => exact hsame
  | create | flip | resume => trivial
  | load hrow h =>
      cases h with
      | turnedAway | submit | resume => trivial
      | start =>
          intro key hkey
          simpa [Reading.answerKeys] using hkey
  | openApproval hstage' =>
      rw [hstage'] at hstage
      exact hstage
  | @save w row stepId answers status h =>
      obtain ⟨reading, hreading, rfl⟩ := h.reading?
      obtain ⟨row', hrow', -⟩ := hw reading (hφ reading hreading)
      refine ⟨Db.progressed stepId (.object answers) status w.now row', ?_,
        List.Subset.refl _⟩
      rw [World.commit_db, Db.find?_updateInstance, if_pos rfl, hrow',
        Option.map_some]

/-- The proof outline: answers that were saved stay stored. -/
def acknowledgement (deps : Deps) : Outline (phases deps) completeSaves where
  inv w := ∀ n, w.Tracks n
  holds n φ w := φ.Based n w ∧ φ.stage.Keeps w
  absent _ _ := True
  grow := World.Evolves KeepsAnswers
  grow_refl w := .of_eq (fun _ => List.Subset.refl _) rfl
  grow_trans := World.Evolves.trans List.Subset.trans
  entry n l w _ _ _ := ⟨fun row hrow => by (cases hrow), trivial⟩
  drift w w' hw hdrift :=
    have hevolves : w.Evolves KeepsAnswers w' :=
      .of_eq (fun _ => List.Subset.refl _) hdrift.instances
    ⟨fun n => hdrift.tracks (hw n), hevolves,
      fun n => ⟨id, fun φ hφ => ⟨hdrift.based hφ.1, hφ.2.mono hevolves⟩⟩⟩
  step n φ φ' w w' hw hφ hmove hallowed := by
    have hevolves : w.Evolves KeepsAnswers w' :=
      hmove.evolves (fun _ => List.Subset.refl _)
        fun row stepId answers status row' hsaves hadded hrow' =>
          keepsAnswers_of_saves (hw n) hφ.1 hφ.2 hsaves hadded hallowed hrow'
    exact ⟨hmove.tracks hw, hevolves,
      ⟨hmove.based.1 hφ.1, hmove.keeps (hw n) hφ.1 hφ.2 hevolves⟩,
      fun m hne => ⟨id, fun ψ hψ =>
        ⟨hmove.based.2 m ψ hne hψ.1, hψ.2.mono hevolves⟩⟩⟩

/-- Whatever requests run concurrently, as long as none of them saves an
instance when an answer that it neither read nor submits was saved since it read
the row, the answer of a submission that succeeded stays stored. -/
theorem acknowledged_answers_kept {deps : Deps} {w : World} (hw : w.log = [])
    {c d : ServerConfig} (hc : Reaches (system deps) completeSaves ⟨w, []⟩ c)
    (hd : Reaches (system deps) completeSaves c d) (n : Nat) {rounds : Nat}
    {instanceId : Uuid} {requester : User} {fieldKey : String}
    {value : JsonValue}
    {result : Option WorkflowInstance}
    (hdone : c.threads[n]? = some
      ((.submit instanceId requester fieldKey value, rounds),
        .exit (.ok result))) :
    ∃ row, d.state.db.instances.find? instanceId = some row ∧
      (Orchestrator.answersMap row.answersJson).containsKey fieldKey =
        true := by
  have hat := ((acknowledgement deps).at_reaches ((acknowledgement deps).at_nil
    (World.tracks_of_log hw) fun _ => trivial) hc).1
  obtain ⟨φ, ⟨-, hkeeps⟩, answers, hstage, hkey⟩ := hat.thread n _ _ hdone
  rw [hstage] at hkeeps
  obtain ⟨row, hrow, hkeys⟩ := hkeeps
  obtain ⟨row', hrow', hkept⟩ :=
    ((acknowledgement deps).at_reaches hat hd).2 _ row hrow
  exact ⟨row', hrow', JsonMap.containsKey_iff.mpr
    (hkept (hkeys (JsonMap.containsKey_iff.mp hkey)))⟩

/-- Only submissions arrive. -/
def submissions : Regime World (Request × Nat) :=
  ⟨fun request => request.1.isSubmit = true, fun _ _ _ => True⟩

instance : submissions.Checked where
  arrives request := inferInstanceAs (Decidable (request.1.isSubmit = true))
  allowed _ _ _ := isTrue trivial

/-- The state before any request that is recorded in the log. -/
def World.unlogged (w : World) : World :=
  { w with log := [] }

namespace Sample

def threeQuestions : WorkflowGraph where
  entryStepId := "first"
  steps :=
    [question "first" "model" "second", question "second" "color" "third",
      question "third" "reason" "done", finish "done" .completed]

/-- The instance is at its first question. -/
def asking : World :=
  ((run [.start item.id requester] 1 (world threeQuestions)).get
    (by decide)).unlogged

def submit (fieldKey : String) : Request :=
  .submit (id 102) requester fieldKey (.string fieldKey)

/-- The first question is answered twice.  One of the two requests has read the
row, the other has succeeded, and so has the answer to the second question. -/
def bothAnswered : Option ServerConfig :=
  play submissions asking
    ([arrive (submit "model"), arrive (submit "model")] ++ steps 0 200 1 ++
      steps 1 300 4 ++ arrive (submit "color") :: steps 2 400 4)

/-- The late request saves the row it read. -/
def overwritten : Option ServerConfig :=
  bothAnswered.bind fun c => (system deps).play submissions c (steps 0 201 3)

end Sample

theorem acknowledged_answers_kept_answered :
    let c := (Sample.play completeSaves Sample.asking
      (Sample.arrive (Sample.submit "model") :: Sample.steps 0 200 4)).get
        (by decide)
    let d := ((system Sample.deps).play completeSaves c
      (Sample.arrive (Sample.submit "color") :: Sample.steps 1 300 4)).get
        (by decide)
    ∃ row, d.state.db.instances.find? (Sample.id 102) = some row ∧
      (Orchestrator.answersMap row.answersJson).containsKey "model" = true :=
  acknowledged_answers_kept rfl (System.play_reaches (Option.some_get _).symm)
    (System.play_reaches (Option.some_get _).symm) 0 rfl

/-- The late request read the row before the first question was answered: its
save puts the instance back to the second question, without the answer to it. -/
theorem acknowledged_answer_lost :
    let c := Sample.bothAnswered.get (by decide)
    let d := Sample.overwritten.get (by decide)
    (∃ w, (Sample.world Sample.threeQuestions).Initial ∧
      Serial Sample.deps anyOperation (Sample.world Sample.threeQuestions) w ∧
      Sample.asking = w.unlogged) ∧
    Reaches (system Sample.deps) submissions ⟨Sample.asking, []⟩ c ∧
    Reaches (system Sample.deps) submissions c d ∧
    (∃ rounds result, c.threads[2]? =
      some ((Sample.submit "color", rounds), .exit (.ok result))) ∧
    ¬ ∃ row ∈ d.state.db.instances.rows, row.id = Sample.id 102 ∧
      (Orchestrator.answersMap row.answersJson).containsKey "color" = true :=
  ⟨⟨_, Sample.initial _, Sample.serial_of_run (by simp [anyOperation])
      (by simp [Operation.Admissible]) (Option.some_get _).symm, rfl⟩,
    System.play_reaches (Option.some_get _).symm,
    System.play_reaches (Option.some_get _).symm, ⟨9, _, rfl⟩, by decide⟩

end Servcat
