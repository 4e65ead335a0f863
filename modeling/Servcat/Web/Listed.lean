/-
Lists in one text: what is split at the commas and trimmed is what was joined,
if the pieces allow it.
-/
import Servcat.Web.Values
import Mathlib.Data.List.DropRight

namespace Servcat

variable {space : Char → Bool}

theorem trim_eq_rdropWhile (s : String) :
    trim space s = String.ofList
      ((s.toList.dropWhile space).rdropWhile space) :=
  rfl

theorem trim_trim (s : String) : trim space (trim space s) = trim space s := by
  rw [trim_eq_rdropWhile, trim_eq_rdropWhile, String.toList_ofList]
  generalize hdropped : s.toList.dropWhile space = dropped
  have hkeep : (dropped.rdropWhile space).dropWhile space =
      dropped.rdropWhile space := by
    rw [List.dropWhile_eq_self_iff]
    intro hlength
    obtain ⟨rest, hrest⟩ := List.rdropWhile_prefix space dropped
    have hne : dropped ≠ [] := by
      rintro rfl
      simp at hlength
    have hhead : (dropped.rdropWhile space)[0] = dropped.head hne := by
      rw [List.head_eq_getElem, List.getElem_of_eq hrest.symm,
        List.getElem_append_left hlength]
    rw [hhead]
    have hnot := List.head_dropWhile_not (p := space) (l := s.toList)
      (by rw [hdropped]; exact hne)
    simp only [hdropped] at hnot
    simp [hnot]
  rw [hkeep, List.rdropWhile_idempotent]

theorem mem_of_mem_trim {s : String} {c : Char}
    (h : c ∈ (trim space s).toList) : c ∈ s.toList := by
  rw [trim_eq_rdropWhile, String.toList_ofList] at h
  exact List.dropWhile_subset _ ((List.rdropWhile_prefix space _).subset h)

theorem trim_cons {c : Char} (hc : space c = true) (l : List Char) :
    trim space (String.ofList (c :: l)) = trim space (String.ofList l) := by
  simp [trim, hc]

theorem trim_eq_self {s : String} (h : ∀ c ∈ s.toList, space c = false) :
    trim space s = s := by
  have hnot : ∀ c ∈ s.toList, ¬space c = true := fun c hc => by simp [h c hc]
  rw [trim_eq_rdropWhile, List.dropWhile_eq_self_iff.mpr fun hlength =>
      hnot _ (List.getElem_mem hlength),
    List.rdropWhile_eq_self_iff.mpr fun hne => hnot _ (List.getLast_mem hne),
    String.ofList_toList]

/-- A text that stays whole in a list. -/
def IsPiece (space : Char → Bool) (s : String) : Prop :=
  s ≠ "" ∧ ',' ∉ s.toList ∧ trim space s = s

instance (s : String) : Decidable (IsPiece space s) :=
  inferInstanceAs (Decidable (_ ∧ _ ∧ _))

theorem not_mem_of_mem_splitOn {separator : Char} {text piece : List Char}
    (h : piece ∈ text.splitOn separator) : separator ∉ piece := by
  induction text generalizing piece with
  | nil =>
      obtain rfl : piece = [] := by simpa using h
      exact List.not_mem_nil
  | cons c text ih =>
      rw [List.splitOn_cons_eq_if_modifyHead] at h
      split at h
      · rcases List.mem_cons.mp h with rfl | h
        · exact List.not_mem_nil
        · exact ih h
      · rename_i hc
        obtain ⟨first, rest, hsplit⟩ :=
          List.exists_cons_of_ne_nil (List.splitOn_ne_nil separator text)
        rw [hsplit, List.modifyHead_cons] at h
        rw [hsplit] at ih
        rcases List.mem_cons.mp h with rfl | h
        · rintro hmem
          rcases List.mem_cons.mp hmem with rfl | hmem
          · simp at hc
          · exact ih List.mem_cons_self hmem
        · exact ih (List.mem_cons_of_mem _ h)

theorem isPiece_of_mem_listed {text s : String} (h : s ∈ listed space text) :
    IsPiece space s := by
  simp only [listed, List.mem_filter, List.mem_map, decide_eq_true_eq] at h
  obtain ⟨⟨_, ⟨piece, hpiece, rfl⟩, rfl⟩, hne⟩ := h
  refine ⟨hne, ?_, trim_trim _⟩
  intro hcomma
  have hmem := mem_of_mem_trim hcomma
  rw [String.toList_ofList] at hmem
  exact not_mem_of_mem_splitOn hpiece hmem

/-- The separator of `join` is a comma and then a space that belongs to the next
piece. -/
theorem intercalate_comma_space (first : List Char) (rest : List (List Char)) :
    [',', ' '].intercalate (first :: rest) =
      [','].intercalate (first :: rest.map (' ' :: ·)) := by
  induction rest generalizing first with
  | nil => simp
  | cons second rest ih =>
      rw [List.intercalate_cons_cons, List.map_cons, List.intercalate_cons_cons,
        ih second]
      cases rest <;> simp [List.intercalate_cons_cons]

theorem listed_intercalate (hspace : space ' ' = true) {texts : List String}
    (h : ∀ s ∈ texts, s = "" ∨ IsPiece space s) :
    listed space (String.intercalate ", " texts) = texts.filter (· ≠ "") := by
  cases texts with
  | nil => simp [listed, trim]
  | cons first rest =>
      have hcomma : ∀ s ∈ first :: rest, ',' ∉ s.toList := by
        intro s hs
        rcases h s hs with rfl | hpiece
        · simp
        · exact hpiece.2.1
      have htrim : ∀ s ∈ first :: rest, trim space s = s := by
        intro s hs
        rcases h s hs with rfl | hpiece
        · rfl
        · exact hpiece.2.2
      have hsplit :
          (String.intercalate ", " (first :: rest)).toList.splitOn ',' =
          first.toList :: rest.map (' ' :: ·.toList) := by
        rw [String.toList_intercalate, List.map_cons]
        show ([',', ' '].intercalate _).splitOn ',' = _
        rw [intercalate_comma_space, List.map_map]
        apply List.splitOn_intercalate _ _ (by simp)
        intro l hl
        rcases List.mem_cons.mp hl with rfl | hl
        · exact hcomma first List.mem_cons_self
        · obtain ⟨s, hs, rfl⟩ := List.mem_map.mp hl
          simpa using hcomma s (List.mem_cons_of_mem _ hs)
      have hrest : rest.map (fun s => trim space
          (String.ofList (' ' :: s.toList))) = rest := by
        rw [List.map_congr_left (g := id), List.map_id]
        intro s hs
        rw [trim_cons hspace, String.ofList_toList, id]
        exact htrim s (List.mem_cons_of_mem _ hs)
      unfold listed
      rw [hsplit]
      simp only [List.map_cons, List.map_map, Function.comp_def,
        String.ofList_toList, htrim first List.mem_cons_self, hrest]

end Servcat
