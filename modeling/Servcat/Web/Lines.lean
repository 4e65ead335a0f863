/-
A list that is written one item a line: what is read back from the lines is the
list, whatever the line ends are.
-/
import Servcat.Web.CatalogForm

namespace Servcat

namespace Web

/-- An item that has a line of its own. -/
def IsItem (line : String) : Prop :=
  trim isWhitespace line = line ∧ line ≠ "" ∧ '\n' ∉ line.toList

instance : DecidablePred IsItem := fun _ =>
  inferInstanceAs (Decidable (_ ∧ _ ∧ _))

/-- A line as it is between two line feeds, without the carriage return
at its end. -/
def dropReturn (line : List Char) : List Char :=
  if line.getLast? = some '\r' then line.dropLast else line

/-- `str::lines`. The text after the last line feed is a line if there is any,
and it keeps a carriage return. -/
def lines (text : String) : List String :=
  let pieces := text.toList.splitOn '\n'
  let rest := pieces.getLast (List.splitOn_ne_nil _ _)
  (pieces.dropLast.map dropReturn ++ if rest = [] then [] else [rest]).map
    String.ofList

theorem trim_append {space : Char → Bool} {pad : List Char}
    (hpad : ∀ c ∈ pad, space c = true) (text : List Char) :
    trim space (String.ofList (text ++ pad)) = trim space
      (String.ofList text) := by
  have hdrop : ((text ++ pad).dropWhile space).rdropWhile space =
      (text.dropWhile space).rdropWhile space := by
    have hempty : pad.rdropWhile space = [] :=
      List.rdropWhile_eq_nil_iff.mpr hpad
    rw [List.dropWhile_append]
    split
    · rename_i hnil
      rw [List.isEmpty_iff.mp hnil, List.dropWhile_eq_nil_iff.mpr hpad]
    · rw [List.rdropWhile, List.reverse_append,
        List.dropWhile_append_of_pos (by simpa using hpad)]
      rfl
  rw [trim_eq_rdropWhile, trim_eq_rdropWhile, String.toList_ofList,
    String.toList_ofList, hdrop]

theorem trim_dropReturn (line : List Char) :
    trim isWhitespace (String.ofList (dropReturn line)) =
      trim isWhitespace (String.ofList line) := by
  unfold dropReturn
  split
  · rename_i hlast
    obtain ⟨kept, rfl⟩ := List.getLast?_eq_some_iff.mp hlast
    rw [List.dropLast_concat,
      trim_append (List.forall_mem_singleton.mpr (by decide))]
  · rfl

/-- A carriage return at the end of a line is trimmed off anyway, and an empty
rest is filtered out. -/
theorem linesToVec_eq (text : String) :
    linesToVec text = ((lines text).map (trim isWhitespace)).filter
      (· ≠ "") := by
  let item := fun line => trim isWhitespace (String.ofList line)
  have hitem : item ∘ dropReturn = item := funext trim_dropReturn
  let pieces := text.toList.splitOn '\n'
  have hne : pieces ≠ [] := List.splitOn_ne_nil _ _
  have hrest : ∀ rest : List Char,
      ((if rest = [] then [] else [rest]).map item).filter (· ≠ "") =
        [item rest].filter (· ≠ "") := by
    intro rest
    split
    · rename_i hnil
      rw [hnil]
      rfl
    · rfl
  calc (pieces.map item).filter (· ≠ "")
    _ = ((pieces.dropLast ++ [pieces.getLast hne]).map item).filter
      (· ≠ "") := by
        rw [List.dropLast_concat_getLast]
    _ = (pieces.dropLast.map (item ∘ dropReturn)).filter (· ≠ "") ++
          [item (pieces.getLast hne)].filter (· ≠ "") := by
        rw [List.map_append, List.filter_append, hitem]
        rfl
    _ = _ := by
        rw [← hrest, ← List.map_map, ← List.filter_append, ← List.map_append]
        unfold lines
        rw [List.map_map]
        rfl

/-- The items come back from their lines, also where blanks end the lines. -/
theorem linesToVec_join (pad : List Char)
    (hpad : ∀ c ∈ pad, isWhitespace c = true) (hfeed : '\n' ∉ pad)
    {items : List String} (h : ∀ item ∈ items, IsItem item) :
    linesToVec ((String.ofList (pad ++ ['\n'])).intercalate items) = items := by
  induction items with
  | nil => rfl
  | cons first items ih =>
      obtain ⟨htrim, hne, hfirst⟩ := h first List.mem_cons_self
      cases items with
      | nil =>
          rw [String.intercalate_singleton, linesToVec,
            List.splitOn_eq_singleton hfirst]
          simp [htrim, hne]
      | cons second items =>
          have hline : '\n' ∉ first.toList ++ pad := by
            rw [List.mem_append, not_or]
            exact ⟨hfirst, hfeed⟩
          have hsplit : (String.intercalate (String.ofList (pad ++ ['\n']))
              (first :: second :: items)).toList.splitOn '\n' =
                (first.toList ++ pad) ::
                  (String.intercalate (String.ofList (pad ++ ['\n']))
                  (second :: items)).toList.splitOn '\n' := by
            rw [String.intercalate_cons_cons, String.toList_append,
              String.toList_append,
              ← List.splitOn_append_cons_self_of_not_mem hline]
            simp
          have hrest :=
            ih fun item hitem => h item (List.mem_cons_of_mem _ hitem)
          unfold linesToVec at hrest ⊢
          rw [hsplit, List.map_cons, trim_append hpad,
            String.ofList_toList, htrim,
            List.filter_cons_of_pos (by simpa using hne), hrest]

theorem isItem_of_mem_linesToVec {text line : String}
    (h : line ∈ linesToVec text) : IsItem line := by
  simp only [linesToVec, List.mem_filter, List.mem_map, decide_eq_true_eq] at h
  obtain ⟨⟨piece, hpiece, rfl⟩, hne⟩ := h
  refine ⟨trim_trim _, hne, fun hfeed => ?_⟩
  have hmem := mem_of_mem_trim hfeed
  rw [String.toList_ofList] at hmem
  exact not_mem_of_mem_splitOn hpiece hmem

/-- The line ends of a text and those that a browser submits. -/
theorem linesToVec_exact (items : List String) (text : String) :
    ((∀ item ∈ items, IsItem item) →
      linesToVec ("\n".intercalate items) = items ∧
        linesToVec ("\r\n".intercalate items) = items) ∧
      (∀ line ∈ linesToVec text, IsItem line) ∧
      linesToVec ("\n".intercalate (linesToVec text)) = linesToVec text ∧
      linesToVec ("\r\n".intercalate (linesToVec text)) = linesToVec text := by
  have hjoin : ∀ items : List String, (∀ item ∈ items, IsItem item) →
      linesToVec ("\n".intercalate items) = items ∧
        linesToVec ("\r\n".intercalate items) = items := by
    intro items h
    exact ⟨linesToVec_join [] (by simp) (by simp) h,
      linesToVec_join ['\r'] (List.forall_mem_singleton.mpr (by decide))
        (by decide) h⟩
  have himage : ∀ line ∈ linesToVec text, IsItem line :=
    fun line => isItem_of_mem_linesToVec
  exact ⟨hjoin items, himage, hjoin _ himage⟩

theorem linesToVec_exact_two :
    linesToVec "a b\nc" = ["a b", "c"] ∧ linesToVec "a b\r\nc" = ["a b", "c"] :=
  (linesToVec_exact ["a b", "c"] "").1 (by decide)

end Web

end Servcat
