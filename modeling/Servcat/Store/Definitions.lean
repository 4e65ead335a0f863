/-
The rows of workflow definitions, whose graphs and field mappings are
stored as JSON.
-/
import Servcat.Model.Serialize
import Servcat.Store.Authoring

namespace Servcat

open JsonValue

def FieldMapping.toJson (mapping : FieldMapping) : JsonValue :=
  record (mapping.map fun entry => (entry.1, string entry.2))

/-- A hash map is only ever written as an object. -/
def FieldMapping.ofJson? : JsonValue → Option FieldMapping
  | object entries => entries.mapM fun entry => entry.2.string?.map (entry.1, ·)
  | _ => none

/-- `Row` of the repository. -/
structure DefinitionRow where
  id : Uuid
  name : String
  version : Int32
  definitionJson : JsonValue
  fieldMappingJson : Option JsonValue
  targetSystem : Option TargetSystem
  isPublished : Bool

namespace DefinitionRow

/-- The row that `create` inserts. -/
def ofNew (id : Uuid) (new : NewWorkflowDefinition) : DefinitionRow where
  id := id
  name := new.name
  version := 1
  definitionJson := new.graph.toJson
  fieldMappingJson := new.fieldMapping.map FieldMapping.toJson
  targetSystem := new.targetSystem
  isPublished := false

/-- There is no result for a row with corrupt JSON. -/
def intoModel (parseUuid : String → Option Uuid) (row : DefinitionRow) :
    Option WorkflowDefinition := do
  let graph ← WorkflowGraph.ofJson? parseUuid row.definitionJson
  let fieldMapping ← match row.fieldMappingJson with
    | none => some none
    | some json => (FieldMapping.ofJson? json).map some
  some {
    id := row.id
    name := row.name
    version := row.version
    graph := graph
    fieldMapping := fieldMapping
    targetSystem := row.targetSystem
    isPublished := row.isPublished }

end DefinitionRow

theorem JsonMap.insert_perm {entries : JsonMap} {key : String}
    {value : JsonValue} (hnew : key ∉ entries.map Prod.fst) :
    (JsonMap.insert entries key value).Perm ((key, value) :: entries) := by
  induction entries with
  | nil => exact List.Perm.refl _
  | cons entry rest ih =>
      obtain ⟨hne, hnew⟩ := not_or.mp (fun h => hnew (List.mem_cons.mpr h))
      rw [JsonMap.insert, if_neg hne]
      split
      · exact List.Perm.refl _
      · exact ((ih hnew).cons entry).trans (List.Perm.swap _ _ _)

theorem JsonMap.foldl_insert_perm {fields entries : JsonMap}
    (hdistinct : ((fields ++ entries).map Prod.fst).Nodup) :
    (fields.foldl (fun entries field => JsonMap.insert entries field.1 field.2)
      entries).Perm (fields ++ entries) := by
  induction fields generalizing entries with
  | nil => exact List.Perm.refl _
  | cons field rest ih =>
      obtain ⟨hnew, hrest⟩ := List.nodup_cons.mp hdistinct
      have hperm : (rest ++ JsonMap.insert entries field.1 field.2).Perm
          (field :: (rest ++ entries)) := by
        refine ((insert_perm fun h => hnew ?_).append_left rest).trans
          List.perm_middle
        show field.1 ∈ (rest ++ entries).map Prod.fst
        rw [List.map_append]
        exact List.mem_append_right _ h
      exact (ih ((hperm.map Prod.fst).nodup_iff.mpr hdistinct)).trans hperm

/-- The entries come back in another order. -/
theorem FieldMapping.ofJson?_toJson {mapping : FieldMapping}
    (hkeys : (mapping.map Prod.fst).Nodup) :
    ∃ mapping' : FieldMapping, ofJson? mapping.toJson = some mapping' ∧
      mapping'.Perm mapping := by
  let write : String × String → String × JsonValue :=
    fun entry => (entry.1, string entry.2)
  let read : String × JsonValue → String × String :=
    fun entry => (entry.1, entry.2.string?.getD "")
  have hperm := @JsonMap.foldl_insert_perm (mapping.map write) [] <| by
    rwa [List.append_nil, List.map_map]
  rw [List.append_nil] at hperm
  generalize hentries : (mapping.map write).foldl (fun entries field =>
    JsonMap.insert entries field.1 field.2) [] = entries at hperm
  have hback : (entries.map read).map write = entries := by
    rw [List.map_map]
    refine (List.map_congr_left fun e he => ?_).trans (List.map_id entries)
    obtain ⟨entry, -, rfl⟩ := List.mem_map.mp (hperm.subset he)
    rfl
  refine ⟨entries.map read, ?_, ?_⟩
  · show ofJson? (object ((mapping.map write).foldl _ [])) = _
    rw [hentries, ofJson?]
    nth_rewrite 1 [← hback]
    exact mapM_map_eq_some fun entry _ => rfl
  · have hread : (mapping.map write).map read = mapping := by
      rw [List.map_map]
      exact List.map_id mapping
    have h := hperm.map read
    rwa [hread] at h

namespace Uuid

def hexValue (c : Char) : ℕ :=
  if c.isDigit then c.toNat - '0'.toNat else c.toNat - 'a'.toNat + 10

/-- `Uuid::parse_str`, of a text as `toString` writes it. -/
def parseHyphenated (text : String) : Uuid :=
  ⟨.ofNat 128 ((text.toList.filter (· ≠ '-')).foldl
    (fun n c => 16 * n + hexValue c) 0)⟩

theorem hexDigits_add (id : Uuid) (start m n : ℕ) :
    hexDigits id start (m + n) = hexDigits id start m ++ hexDigits id
      (start + m) n := by
  simp [hexDigits, List.range_add, Nat.add_assoc]

theorem filter_hexDigits (id : Uuid) (start len : ℕ) :
    (hexDigits id start len).filter (· ≠ '-') = hexDigits id start len := by
  have hdigits : ∀ d < 16, Nat.digitChar d ≠ '-' := by decide
  refine List.filter_eq_self.mpr fun c hc => ?_
  obtain ⟨i, -, rfl⟩ := List.mem_map.mp hc
  exact decide_eq_true (hdigits _ (Nat.mod_lt _ (by decide)))

/-- The first digits are the higher part of the number. -/
theorem foldl_hexDigits (id : Uuid) {len : ℕ} (hlen : len ≤ 32) :
    (hexDigits id 0 len).foldl (fun n c => 16 * n + hexValue c) 0 =
      id.bits.toNat / 16 ^ (32 - len) := by
  have hdigits : ∀ d < 16, hexValue (Nat.digitChar d) = d := by decide
  induction len with
  | zero => exact (Nat.div_eq_of_lt id.bits.isLt).symm
  | succ len ih =>
      have hpow : 16 ^ (32 - len) = 16 ^ (31 - len) * 16 := by
        rw [← Nat.pow_succ]
        congr 1
        omega
      rw [hexDigits_add, List.foldl_append, ih (by omega), hpow,
        ← Nat.div_div_eq_div_mul]
      simp only [hexDigits, List.range_one, List.map_cons, List.map_nil,
        List.foldl_cons, List.foldl_nil, Nat.zero_add, Nat.add_zero]
      rw [hdigits _ (Nat.mod_lt _ (by decide)), Nat.div_add_mod]
      congr 2
      omega

theorem parseHyphenated_toString (id : Uuid) :
    parseHyphenated id.toString = id := by
  have hdigits : id.toString.toList.filter (· ≠ '-') = hexDigits id 0 32 := by
    have h0 : hexDigits id 0 32 = hexDigits id 0 8 ++ hexDigits id 8 24 :=
      hexDigits_add id 0 8 24
    have h8 : hexDigits id 8 24 = hexDigits id 8 4 ++ hexDigits id 12 20 :=
      hexDigits_add id 8 4 20
    have h12 : hexDigits id 12 20 = hexDigits id 12 4 ++ hexDigits id 16 16 :=
      hexDigits_add id 12 4 16
    have h16 : hexDigits id 16 16 = hexDigits id 16 4 ++ hexDigits id 20 12 :=
      hexDigits_add id 16 4 12
    rw [toList_toString, h0, h8, h12, h16]
    simp only [List.filter_append, List.filter_cons, filter_hexDigits]
    simp
  rw [parseHyphenated, hdigits, foldl_hexDigits id le_rfl]
  simp

end Uuid

/-- A definition that was created reads back as it was written, whether or not
it has been published since. -/
theorem definitions_read_back {parseUuid : String → Option Uuid}
    (hparse : ∀ id : Uuid, parseUuid id.toString = some id)
    {new : NewWorkflowDefinition}
    (hkeys : ∀ mapping, new.fieldMapping = some mapping →
      (mapping.map Prod.fst).Nodup)
    (id : Uuid) (isPublished : Bool) :
    ∃ fieldMapping,
      ({ DefinitionRow.ofNew id new with isPublished }).intoModel parseUuid =
        some { Db.newDefinition id new with isPublished, fieldMapping } ∧
      Option.Rel List.Perm fieldMapping new.fieldMapping := by
  have hgraph := WorkflowGraph.ofJson?_toJson hparse new.graph
  cases hmapping : new.fieldMapping with
  | none =>
      refine ⟨none, ?_, .none⟩
      simp [DefinitionRow.intoModel, DefinitionRow.ofNew, Db.newDefinition,
        hgraph, hmapping]
  | some mapping =>
      obtain ⟨mapping', hread, hperm⟩ :=
        FieldMapping.ofJson?_toJson (hkeys mapping hmapping)
      refine ⟨some mapping', ?_, .some hperm⟩
      simp [DefinitionRow.intoModel, DefinitionRow.ofNew, Db.newDefinition,
        hgraph, hmapping, hread]

theorem definitions_read_back_laptop :
    let new : NewWorkflowDefinition :=
      ⟨"laptop", ⟨"ask", [⟨"ask", "Which?", .question "model" .select true
        [⟨"small", "Small"⟩] "approve"⟩,
        ⟨"approve", "Approve", .waitForApproval (.static ⟨7⟩) "end" "end"
          (some (-60))⟩,
        ⟨"end", "End", .end .completed⟩]⟩,
          some [("summary", "laptop"), ("id", "7")], some .jira⟩
    ∃ fieldMapping,
      ({ DefinitionRow.ofNew ⟨1⟩ new with isPublished := true }).intoModel
          (fun text => some (Uuid.parseHyphenated text)) =
        some { Db.newDefinition ⟨1⟩ new with
          isPublished := true, fieldMapping } ∧
      Option.Rel List.Perm fieldMapping new.fieldMapping :=
  definitions_read_back (fun id => congrArg some
    (Uuid.parseHyphenated_toString id)) (by rintro _ ⟨⟩; decide) ⟨1⟩ true

end Servcat
