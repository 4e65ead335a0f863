/-
What the log tells about the row a request works from: the row that is stored
now is the one the request read, or some request has saved it since.
-/
import Servcat.Concurrent.Growth

namespace Servcat

open Atomic Keyed

/-- What thread `n` read, if this entry of the log says that it read a row. -/
def reads? (n : Nat) : Nat × Event → Option Reading
  | (m, .began reading) => if m = n then some reading else none
  | _ => none

namespace World

/-- What thread `n` read last. -/
def base? (w : World) (n : Nat) : Option Reading :=
  w.log.findSome? (reads? n)

/-- What was logged since then. -/
def since (w : World) (n : Nat) : List (Nat × Event) :=
  w.log.takeWhile fun entry => (reads? n entry).isNone

/-- What was logged between two states. -/
def added (w w' : World) : List (Nat × Event) :=
  w'.log.take (w'.log.length - w.log.length)

variable {w w' : World}

theorem added_append {newer : List (Nat × Event)}
    (hlog : w'.log = newer ++ w.log) : w.added w' = newer := by
  rw [added, hlog, List.length_append, Nat.add_sub_cancel, List.take_left']
  rfl

theorem added_commit (w : World) (n : Nat) (db : Db) (event : Event) :
    w.added (w.commit n db [event]) = [(n, event)] :=
  added_append rfl

theorem base?_append {n : Nat} {newer : List (Nat × Event)}
    (hnewer : ∀ entry ∈ newer, reads? n entry = none)
    (hlog : w'.log = newer ++ w.log) : w'.base? n = w.base? n := by
  rw [base?, hlog, List.findSome?_append, List.findSome?_eq_none_iff.mpr hnewer]
  rfl

theorem since_append {n : Nat} {newer : List (Nat × Event)}
    (hnewer : ∀ entry ∈ newer, reads? n entry = none)
    (hlog : w'.log = newer ++ w.log) : w'.since n = newer ++ w.since n := by
  rw [since, hlog, List.takeWhile_append_of_pos]
  · rfl
  · intro entry hentry
    rw [hnewer entry hentry]
    rfl

@[simp] theorem base?_began (w : World) (n : Nat) (reading : Reading) :
    (w.record n (.began reading)).base? n = some reading := by
  simp [base?, record, reads?]

@[simp] theorem since_began (w : World) (n : Nat) (reading : Reading) :
    (w.record n (.began reading)).since n = [] := by
  simp [since, record, reads?]

/-- The row thread `n` has read is stored as it was then, or as it was saved
since. -/
def Tracks (w : World) (n : Nat) : Prop :=
  ∀ reading, w.base? n = some reading → ∃ row,
    w.db.instances.find? reading.row.id = some row ∧ (row = reading.row ∨
      ∃ m,
        (m, Event.saved row.id row.currentStepId row.answersJson row.status) ∈
        w.since n)

theorem tracks_of_log (h : w.log = []) (n : Nat) : w.Tracks n := by
  intro reading hreading
  simp [base?, h] at hreading

theorem Tracks.extend {n : Nat} (hw : w.Tracks n) {newer : List (Nat × Event)}
    (hnewer : ∀ entry ∈ newer, reads? n entry = none)
    (hlog : w'.log = newer ++ w.log)
    (hrows : ∀ id row, w.db.instances.find? id = some row →
      ∃ row', w'.db.instances.find? id = some row' ∧ (row' = row ∨
        ∃ m, (m, Event.saved row'.id row'.currentStepId row'.answersJson
          row'.status) ∈ newer)) : w'.Tracks n := by
  intro reading hreading
  rw [base?_append hnewer hlog] at hreading
  rw [since_append hnewer hlog]
  obtain ⟨row', hrow', hold⟩ := hw reading hreading
  obtain ⟨row'', hrow'', rfl | ⟨m, hmem⟩⟩ := hrows _ row' hrow'
  · refine ⟨row'', hrow'', hold.imp id ?_⟩
    rintro ⟨m, hmem⟩
    exact ⟨m, List.mem_append_right _ hmem⟩
  · exact ⟨row'', hrow'', Or.inr ⟨m, List.mem_append_left _ hmem⟩⟩

end World

/-- What a request in this stage has read. -/
def Stage.reading? : Stage → Option Reading
  | .loaded origin row => some { row, fieldKey := origin.fieldKey }
  | .driving t | .opened t _ => some t.toReading
  | _ => none

theorem Stage.Saves.reading? {stage : Stage} {row : WorkflowInstance}
    {stepId : String} {answers : Answers} {status : InstanceStatus}
    (h : stage.Saves row stepId answers status) :
    ∃ reading, stage.reading? = some reading ∧ reading.row = row := by
  cases h <;> exact ⟨_, rfl, rfl⟩

/-- The log has what the request works from. -/
def Phase.Based (n : Nat) (w : World) (φ : Phase) : Prop :=
  ∀ reading, φ.stage.reading? = some reading → w.base? n = some reading

/-- What a step writes to the log, unless it reads the row of an instance. -/
theorem Move.logged {n : Nat} {φ φ' : Phase} {w w' : World}
    (h : Move n φ w φ' w') :
    (∃ reading, w.db.instances.find? reading.row.id = some reading.row ∧
      w' = w.record n (.began reading) ∧
      ∀ reading', φ'.stage.reading? = some reading' → reading' = reading) ∨
    ∃ newer, w'.log = newer ++ w.log ∧ (∀ entry ∈ newer, entry.1 = n) ∧
      (∀ m, ∀ entry ∈ newer, reads? m entry = none) ∧
      ∀ reading, φ'.stage.reading? = some reading →
        φ.stage.reading? = some reading := by
  cases h with
  | look h =>
      refine Or.inr ⟨[], rfl, by simp, by simp, fun reading hreading => ?_⟩
      cases h with
      | nothing | approvals => exact hreading
      | definition => cases hreading
      | task t hstage hfieldKey =>
          rw [hstage]
          change some (Reading.mk _ _) = some reading at hreading
          rw [hfieldKey] at hreading
          exact hreading
  | @remark _ event h =>
      refine Or.inr ⟨[(n, event)], rfl, by simp, ?_, fun _ h => h⟩
      cases event with
      | notified | expiryResumeFailed => simp [reads?]
      | _ => cases h
  | @load w reading stage hrow h =>
      refine Or.inl ⟨reading, hrow, rfl, fun reading' hreading' => ?_⟩
      cases h with
      | turnedAway => cases hreading'
      | submit | resume | start => exact (Option.some.inj hreading').symm
  | tickets | dispatch => exact Or.inr ⟨[], rfl, by simp, by simp, fun _ h => h⟩
  | create => exact Or.inr ⟨[], rfl, by simp, by simp, fun _ h => by cases h⟩
  | openApproval hstage =>
      refine Or.inr ⟨_, rfl, by simp, by simp [reads?],
        fun reading hreading => ?_⟩
      rw [hstage]
      exact hreading
  | save | flip =>
      exact Or.inr ⟨_, rfl, by simp, by simp [reads?], fun _ h => by cases h⟩
  | resume =>
      exact Or.inr ⟨[(n, _)], rfl, by simp, by simp [reads?],
        fun _ h => by cases h⟩

/-- A stored row stays as it is, or is saved. -/
theorem Move.rows {n : Nat} {φ φ' : Phase} {w w' : World} (h : Move n φ w φ' w')
    {newer : List (Nat × Event)} (hlog : w'.log = newer ++ w.log) (id : Uuid)
    (row : WorkflowInstance) (hrow : w.db.instances.find? id = some row) :
    ∃ row', w'.db.instances.find? id = some row' ∧ (row' = row ∨
      ∃ m, (m, Event.saved row'.id row'.currentStepId row'.answersJson
        row'.status) ∈ newer) := by
  cases h with
  | look | remark | load | tickets | dispatch | openApproval | flip | resume =>
      exact ⟨row, hrow, Or.inl rfl⟩
  | create hstage hstart hinsert =>
      exact ⟨row, Table.find?_insert_of_some hinsert hrow, Or.inl rfl⟩
  | @save w row' stepId answers status h =>
      have hnewer :
          [(n, Event.saved row'.id stepId (.object answers) status)] = newer :=
        List.append_cancel_right hlog
      rw [World.commit_db, Db.find?_updateInstance, hrow]
      split
      · rename_i hid
        have hkey : row.id = row'.id := (Table.key_of_find? hrow).trans hid
        refine ⟨_, rfl, Or.inr ⟨n, ?_⟩⟩
        rw [← hnewer, ← hkey]
        exact List.mem_singleton_self _
      · exact ⟨row, rfl, Or.inl rfl⟩

theorem Move.tracks {n : Nat} {φ φ' : Phase} {w w' : World}
    (h : Move n φ w φ' w') (hw : ∀ m, w.Tracks m) (m : Nat) : w'.Tracks m := by
  rcases h.logged with ⟨reading, hrow, rfl, -⟩ | ⟨newer, hlog, -, hnewer, -⟩
  · by_cases hmn : n = m
    · subst hmn
      intro base hbase
      rw [World.base?_began, Option.some.injEq] at hbase
      subst hbase
      exact ⟨_, hrow, Or.inl rfl⟩
    · have hlog : (w.record n (.began reading)).log =
          [(n, .began reading)] ++ w.log := rfl
      exact (hw m).extend (by simp [reads?, hmn]) hlog (h.rows hlog)
  · exact (hw m).extend (hnewer m) hlog (h.rows hlog)

/-- The log keeps having what the requests work from. -/
theorem Move.based {n : Nat} {φ φ' : Phase} {w w' : World}
    (h : Move n φ w φ' w') :
    (φ.Based n w → φ'.Based n w') ∧
      ∀ m (ψ : Phase), m ≠ n → ψ.Based m w → ψ.Based m w' := by
  rcases h.logged with
    ⟨reading, -, rfl, hstage⟩ | ⟨newer, hlog, -, hnewer, hstage⟩
  · refine ⟨fun _ reading' hreading' => by
      rw [World.base?_began, hstage reading' hreading'],
      fun m ψ hmn hψ reading' hreading' => ?_⟩
    have hlog : (w.record n (.began reading)).log =
        [(n, .began reading)] ++ w.log := rfl
    rw [World.base?_append (by simp [reads?, Ne.symm hmn]) hlog]
    exact hψ reading' hreading'
  · refine ⟨fun hφ reading hreading => ?_, fun m ψ _ hψ reading hreading => ?_⟩
    · rw [World.base?_append (hnewer n) hlog]
      exact hφ reading (hstage reading hreading)
    · rw [World.base?_append (hnewer m) hlog]
      exact hψ reading hreading

theorem World.Drift.tracks {w w' : World} (h : w.Drift w') {n : Nat}
    (hw : w.Tracks n) : w'.Tracks n := by
  simp only [World.Tracks, World.base?, World.since, h.log, h.instances]
  exact hw

theorem World.Drift.based {w w' : World} (h : w.Drift w') {n : Nat} {φ : Phase}
    (hφ : φ.Based n w) : φ.Based n w' := by
  simp only [Phase.Based, World.base?, h.log]
  exact hφ

end Servcat
