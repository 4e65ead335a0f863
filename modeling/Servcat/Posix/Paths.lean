/-
Paths of a file system, without links: their components, joining, and the place
that a path denotes.
-/
import Mathlib.Data.List.Basic

namespace Posix

inductive Component where
  | root
  | current
  | parent
  | normal (name : List Char)
deriving DecidableEq, Repr

def component (segment : List Char) : Component :=
  if segment = ['.'] then .current
  else if segment = ['.', '.'] then .parent
  else .normal segment

def segments (path : List Char) : List (List Char) :=
  (path.splitOn '/').filter (· ≠ [])

def isAbsolute (path : List Char) : Bool :=
  path.head? = some '/'

def components (path : List Char) : List Component :=
  (if isAbsolute path then [.root] else []) ++ (segments path).map component

/-- A path read after a directory; an absolute path is not read there. -/
def join (dir path : List Char) : List Char :=
  if isAbsolute path then path
  else if dir = [] ∨ dir.getLast? = some '/' then dir ++ path
  else dir ++ '/' :: path

/-- One more component. The parent of the root is the root, and what is above
the start of a relative path stays in it. -/
def push (place : List Component) : Component → List Component
  | .root => [.root]
  | .current => place
  | .parent =>
      match place.getLast? with
      | some (.normal _) => place.dropLast
      | some .root => place
      | _ => place ++ [.parent]
  | .normal name => place ++ [.normal name]

/-- The lexical normal form of a path. -/
def normalize (path : List Char) : List Component :=
  (components path).foldl push []

/-- A text that is one segment of a path. -/
def IsName (name : List Char) : Prop :=
  name ≠ [] ∧ '/' ∉ name ∧ name ≠ ['.'] ∧ name ≠ ['.', '.']

/-- Whatever else a path denotes is a directory. -/
def endsInName (path : List Char) : Bool :=
  (path.splitOn '/').getLast?.any fun last =>
    last ≠ [] ∧ last ≠ ['.'] ∧ last ≠ ['.', '.']

theorem segments_append (path rest : List Char) :
    segments (path ++ '/' :: rest) = segments path ++ segments rest := by
  rw [segments, List.splitOn_append_cons_self, List.filter_append]
  rfl

theorem segments_of_notMem {segment : List Char} (h : '/' ∉ segment) :
    segments segment = if segment = [] then [] else [segment] := by
  rw [segments, List.splitOn_eq_singleton h]
  split
  · rename_i hnil
    rw [hnil]
    rfl
  · rename_i hne
    exact List.filter_eq_self.mpr (by simpa using hne)

theorem components_append {dir : List Char} (h : dir ≠ []) (path : List Char) :
    components (dir ++ '/' :: path) =
      components dir ++ (segments path).map component := by
  obtain ⟨c, rest, rfl⟩ := List.exists_cons_of_ne_nil h
  rw [components, components, segments_append, List.map_append,
    ← List.append_assoc]
  rfl

/-- What is joined onto a directory comes after it. -/
theorem components_join {path : List Char} (h : isAbsolute path = false)
    (dir : List Char) :
    components (join dir path) =
      components dir ++ (segments path).map component := by
  have hpath : components path = (segments path).map component := by
    rw [components, h]
    rfl
  rw [join, h, if_neg (by decide)]
  split
  · rename_i hdir
    rcases hdir with rfl | hlast
    · exact hpath
    · obtain ⟨start, rfl⟩ := List.getLast?_eq_some_iff.mp hlast
      have hnil : segments [] = [] := rfl
      cases start with
      | nil =>
          simp [components, isAbsolute, segments,
            List.splitOn_cons_eq_if_modifyHead]
      | cons c start =>
          rw [List.append_assoc, List.singleton_append,
            components_append (List.cons_ne_nil c start),
            components_append (List.cons_ne_nil c start), hnil, List.map_nil,
            List.append_nil]
  · rename_i hdir
    rw [not_or] at hdir
    exact components_append hdir.1 path

theorem normalize_join {path : List Char} (h : isAbsolute path = false)
    (dir : List Char) :
    normalize (join dir path) =
      ((segments path).map component).foldl push (normalize dir) := by
  rw [normalize, components_join h, List.foldl_append]
  rfl

theorem component_of_isName {name : List Char} (h : IsName name) :
    component name = .normal name := by
  rw [component, if_neg h.2.2.1, if_neg h.2.2.2]

theorem segments_of_isName {name : List Char}
    (h : IsName name) : segments name = [name] := by
  rw [segments_of_notMem h.2.1, if_neg h.1]

theorem isAbsolute_append {name : List Char} (hne : name ≠ [])
    (hslash : '/' ∉ name) (rest : List Char) :
    isAbsolute (name ++ rest) = false := by
  obtain ⟨c, name, rfl⟩ := List.exists_cons_of_ne_nil hne
  have hc : c ≠ '/' := Ne.symm (List.ne_of_not_mem_cons hslash)
  simpa [isAbsolute] using hc

/-- Joining twice is joining a longer path. -/
theorem join_join {name : List Char} (hne : name ≠ []) (hslash : '/' ∉ name)
    {path : List Char} (hpath : isAbsolute path = false) (dir : List Char) :
    join (join dir name) path = join dir (name ++ '/' :: path) := by
  have hname := isAbsolute_append hne hslash
  have hlast : name.getLast? ≠ some '/' :=
    fun hlast => hslash (List.mem_of_getLast? hlast)
  have hbelow {rest : List Char} (hrest : isAbsolute rest = false) :
      join dir rest =
        if dir = [] ∨ dir.getLast? = some '/' then dir ++ rest
        else dir ++ '/' :: rest := by
    rw [join, hrest, if_neg (by decide)]
  have hstart (start : List Char) :
      join (start ++ name) path = start ++ name ++ '/' :: path := by
    rw [join, hpath, if_neg (by decide), if_neg (by simp [hne, hlast])]
  rw [hbelow (by simpa using hname []), hbelow (hname _)]
  split
  · rw [hstart, List.append_assoc]
  · simpa using hstart (dir ++ ['/'])

/-- Two names below a directory. -/
theorem normalize_join_names {folder file : List Char} (hfolder : IsName folder)
    (hfile : IsName file) (dir : List Char) :
    normalize (join dir (folder ++ '/' :: file)) =
      normalize dir ++ [.normal folder, .normal file] := by
  rw [normalize_join (isAbsolute_append hfolder.1 hfolder.2.1 _),
    segments_append, segments_of_isName hfolder, segments_of_isName hfile]
  simp [component_of_isName hfolder, component_of_isName hfile, push]

end Posix
