/-
Lists collected under keys, in the order they came in, and taken out again key
by key; and what a stable sort leaves alone.
-/
import Mathlib.Data.List.Induction
import Mathlib.Data.List.Sort

namespace Keyed

variable {κ α β : Type}

/-- A map from keys to lists, in the order in which its keys were first used. -/
abbrev Groups (κ α : Type) := List (κ × List α)

namespace Groups

variable [DecidableEq κ]

def keys (m : Groups κ α) : List κ :=
  m.map Prod.fst

omit [DecidableEq κ] in
@[simp] theorem keys_cons (entry : κ × List α) (m : Groups κ α) :
    keys (entry :: m) = entry.1 :: keys m :=
  rfl

/-- The list under a key, empty if there is none. -/
def get : Groups κ α → κ → List α
  | [], _ => []
  | (key', xs) :: rest, key => if key' = key then xs else get rest key

/-- Append to the list under a key. -/
def push (key : κ) (x : α) : Groups κ α → Groups κ α
  | [] => [(key, [x])]
  | (key', xs) :: rest =>
      if key' = key then (key', xs ++ [x]) :: rest
      else (key', xs) :: push key x rest

def remove (m : Groups κ α) (key : κ) : Groups κ α :=
  m.filter fun entry => entry.1 ≠ key

/-- Replace every list. -/
def mapLists (f : List α → List α) (m : Groups κ α) : Groups κ α :=
  m.map fun entry => (entry.1, f entry.2)

/-- Collect the values of a list under their keys. -/
def collect (key : β → κ) (value : β → α) (l : List β) : Groups κ α :=
  l.foldl (fun m x => m.push (key x) (value x)) []

/-- Take the lists out, one key after the other. -/
def drain : Groups κ α → List κ → List (κ × List α)
  | _, [] => []
  | m, key :: rest => (key, m.get key) :: drain (m.remove key) rest

theorem get_push (m : Groups κ α) (key : κ) (x : α) (other : κ) :
    (m.push key x).get other =
      if other = key then m.get key ++ [x] else m.get other := by
  induction m with
  | nil =>
      by_cases h : other = key
      · simp [push, get, h]
      · simp [push, get, h, Ne.symm h]
  | cons entry rest ih =>
      obtain ⟨key', xs⟩ := entry
      by_cases hkey : key' = key
      · subst hkey
        by_cases h : other = key'
        · simp [push, get, h]
        · simp [push, get, h, Ne.symm h]
      · by_cases h : other = key
        · subst h
          simpa [push, get, hkey] using ih
        · simp [push, get, hkey, ih, h]

theorem keys_push (m : Groups κ α) (key : κ) (x : α) :
    (m.push key x).keys = if key ∈ m.keys then m.keys else m.keys ++ [key] := by
  induction m with
  | nil => rfl
  | cons entry rest ih =>
      obtain ⟨key', xs⟩ := entry
      by_cases hkey : key' = key
      · simp [push, hkey]
      · simp only [push, hkey, ↓reduceIte, keys_cons, ih, List.mem_cons,
          Ne.symm hkey, false_or]
        split <;> rfl

theorem collect_append (key : β → κ) (value : β → α) (l : List β) (x : β) :
    (collect key value (l ++ [x]) : Groups κ α) =
      (collect key value l).push (key x) (value x) := by
  simp [collect]

theorem get_collect (key : β → κ) (value : β → α) (l : List β) (k : κ) :
    (collect key value l).get k = (l.filter fun x => key x = k).map value := by
  induction l using List.reverseRecOn with
  | nil => rfl
  | append_singleton l x ih =>
      rw [collect_append, get_push]
      by_cases h : k = key x
      · subst h
        simp [ih]
      · simp [ih, h, Ne.symm h]

theorem mem_keys_collect {key : β → κ} {value : β → α} {l : List β} {k : κ} :
    k ∈ (collect key value l).keys ↔ ∃ x ∈ l, key x = k := by
  induction l using List.reverseRecOn with
  | nil => simp [collect, keys]
  | append_singleton l x ih =>
      rw [collect_append, keys_push]
      split
      · rename_i hmem
        refine ih.trans ⟨?_, ?_⟩
        · rintro ⟨y, hy, hkey⟩
          exact ⟨y, List.mem_append_left _ hy, hkey⟩
        · rintro ⟨y, hy, rfl⟩
          rcases List.mem_append.mp hy with hy | hy
          · exact ⟨y, hy, rfl⟩
          · obtain rfl := List.mem_singleton.mp hy
            exact ih.mp hmem
      · rw [List.mem_append, ih]
        simp [or_and_right, exists_or, eq_comm]

theorem nodup_keys_collect (key : β → κ) (value : β → α) (l : List β) :
    (collect key value l).keys.Nodup := by
  induction l using List.reverseRecOn with
  | nil => exact List.nodup_nil
  | append_singleton l x ih =>
      rw [collect_append, keys_push]
      split
      · exact ih
      · rename_i hnot
        exact List.nodup_append_comm.mp (List.nodup_cons.mpr ⟨hnot, ih⟩)

omit [DecidableEq κ] in
@[simp] theorem keys_mapLists (f : List α → List α) (m : Groups κ α) :
    (m.mapLists f).keys = m.keys := by
  simp [mapLists, keys]

theorem get_mapLists {f : List α → List α} (hf : f [] = []) (m : Groups κ α)
    (k : κ) : (m.mapLists f).get k = f (m.get k) := by
  induction m with
  | nil => exact hf.symm
  | cons entry rest ih =>
      obtain ⟨key', xs⟩ := entry
      change (if key' = k then f xs else (mapLists f rest).get k) =
        f (if key' = k then xs else get rest k)
      by_cases h : key' = k
      · simp [h]
      · simp [h, ih]

theorem get_remove {m : Groups κ α} {key other : κ} (h : other ≠ key) :
    (m.remove key).get other = m.get other := by
  induction m with
  | nil => rfl
  | cons entry rest ih =>
      obtain ⟨key', xs⟩ := entry
      simp only [remove, ne_eq, decide_not] at ih ⊢
      by_cases hkey : key' = key
      · subst hkey
        simp [get, Ne.symm h, ih]
      · simp [get, hkey, ih]

theorem drain_eq {names : List κ} (hnodup : names.Nodup) (m : Groups κ α) :
    m.drain names = names.map fun name => (name, m.get name) := by
  induction names generalizing m with
  | nil => rfl
  | cons name rest ih =>
      rw [drain, ih hnodup.of_cons, List.map_cons]
      congr 1
      refine List.map_congr_left fun other hother => ?_
      rw [get_remove]
      rintro rfl
      exact (List.nodup_cons.mp hnodup).1 hother

end Groups

/-- Going through the keys one by one meets every element once. -/
theorem flatMap_filter_perm [DecidableEq κ] {key : α → κ} {names : List κ}
    (hnodup : names.Nodup) {l : List α} (hcover : ∀ x ∈ l, key x ∈ names) :
    (names.flatMap fun name => l.filter fun x => key x = name).Perm l := by
  induction names generalizing l with
  | nil =>
      obtain rfl := List.eq_nil_iff_forall_not_mem.mpr fun x hx =>
        absurd (hcover x hx) List.not_mem_nil
      exact .nil
  | cons name rest ih =>
      have hrest : (rest.flatMap fun other => l.filter fun x => key x = other) =
          rest.flatMap fun other =>
            (l.filter fun x => !decide (key x = name)).filter fun x =>
              key x = other := by
        refine List.flatMap_congr fun other hother => ?_
        have hne : other ≠ name :=
          fun heq => (List.nodup_cons.mp hnodup).1 (heq ▸ hother)
        rw [List.filter_filter]
        refine List.filter_congr fun x _ => ?_
        by_cases h : key x = other
        · simp [h, hne]
        · simp [h]
      rw [List.flatMap_cons, hrest]
      refine (List.Perm.append_left _ (ih hnodup.of_cons fun x hx => ?_)).trans
        (List.filter_append_perm _ l)
      obtain ⟨hmem, hne⟩ := List.mem_filter.mp hx
      refine (List.mem_cons.mp (hcover x hmem)).resolve_left fun heq => ?_
      simp [heq] at hne

/-- Elements that are all in order with each other stay as they are. -/
theorem filter_insertionSort {r : α → α → Prop} [DecidableRel r] (p : α → Bool)
    (hp : ∀ a b, p a = true → p b = true → r a b) (l : List α) :
    (l.insertionSort r).filter p = l.filter p := by
  have hpairwise : (l.filter p).Pairwise r := by
    refine List.pairwise_of_forall_mem_list fun a ha b hb => ?_
    exact hp a b (List.mem_filter.mp ha).2 (List.mem_filter.mp hb).2
  have hsublist : (l.filter p).Sublist (l.insertionSort r) :=
    List.sublist_insertionSort hpairwise List.filter_sublist
  have hfilter := hsublist.filter p
  rw [List.filter_filter] at hfilter
  simp only [Bool.and_self] at hfilter
  refine (hfilter.eq_of_length ?_).symm
  exact ((List.perm_insertionSort r l).filter p).length_eq.symm

end Keyed
