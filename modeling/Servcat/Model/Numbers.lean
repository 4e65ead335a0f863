/-
The numbers in JSON values and in conditions, and what becomes of the values
when the numbers change.
-/
import Servcat.Model.Workflow
import Mathlib.Data.Rat.Defs

namespace Servcat

def JsonNumber.value : JsonNumber → ℚ
  | posInt n => n.toNat
  | negInt n => n.toInt
  | float x => x

namespace JsonValue

mutual

def numbers : JsonValue → List JsonNumber
  | number n => [n]
  | array items => itemNumbers items
  | object entries => entryNumbers entries
  | _ => []

def itemNumbers : List JsonValue → List JsonNumber
  | [] => []
  | item :: rest => item.numbers ++ itemNumbers rest

def entryNumbers : List (String × JsonValue) → List JsonNumber
  | [] => []
  | (_, value) :: rest => value.numbers ++ entryNumbers rest

end

mutual

/-- The value with other numbers in it, and with nulls in place of some. -/
def mapNumbers (f : JsonNumber → Option JsonNumber) : JsonValue → JsonValue
  | null => null
  | bool b => bool b
  | number n => (f n).elim null number
  | string s => string s
  | array items => array (mapItems f items)
  | object entries => object (mapEntries f entries)

def mapItems (f : JsonNumber → Option JsonNumber) :
    List JsonValue → List JsonValue
  | [] => []
  | item :: rest => item.mapNumbers f :: mapItems f rest

def mapEntries (f : JsonNumber → Option JsonNumber) :
    List (String × JsonValue) → List (String × JsonValue)
  | [] => []
  | (key, value) :: rest => (key, value.mapNumbers f) :: mapEntries f rest

end

variable {f : JsonNumber → Option JsonNumber}

theorem mapNumbers_number_eq_self {n : JsonNumber} :
    (number n).mapNumbers f = number n ↔ f n = some n := by
  cases h : f n <;> simp [mapNumbers, h]

mutual

theorem mapNumbers_eq_self : ∀ v : JsonValue,
    v.mapNumbers f = v ↔ ∀ n ∈ v.numbers, f n = some n
  | null => by simp [mapNumbers, numbers]
  | bool _ => by simp [mapNumbers, numbers]
  | number n => by simp [mapNumbers_number_eq_self, numbers]
  | string _ => by simp [mapNumbers, numbers]
  | array items => by simp [mapNumbers, numbers, mapItems_eq_self items]
  | object entries => by simp [mapNumbers, numbers, mapEntries_eq_self entries]

theorem mapItems_eq_self : ∀ items : List JsonValue,
    mapItems f items = items ↔ ∀ n ∈ itemNumbers items, f n = some n
  | [] => by simp [mapItems, itemNumbers]
  | item :: rest => by
      simp only [mapItems, itemNumbers, List.cons.injEq, List.forall_mem_append,
        mapNumbers_eq_self item, mapItems_eq_self rest]

theorem mapEntries_eq_self : ∀ entries : List (String × JsonValue),
    mapEntries f entries = entries ↔ ∀ n ∈ entryNumbers entries, f n = some n
  | [] => by simp [mapEntries, entryNumbers]
  | (key, value) :: rest => by
      simp only [mapEntries, entryNumbers, List.cons.injEq,
        Prod.mk.injEq, true_and, List.forall_mem_append,
        mapNumbers_eq_self value, mapEntries_eq_self rest]

end

theorem mapItems_eq_map (items : List JsonValue) :
    mapItems f items = items.map (mapNumbers f) := by
  induction items with
  | nil => rfl
  | cons item rest ih => rw [mapItems, ih, List.map_cons]

theorem mapEntries_eq_map (entries : List (String × JsonValue)) :
    mapEntries f entries = entries.map (Prod.map id (mapNumbers f)) := by
  induction entries with
  | nil => rfl
  | cons entry rest ih => rw [mapEntries, ih, List.map_cons, Prod.map, id]

theorem get?_mapEntries (entries : JsonMap) (key : String) :
    JsonMap.get? (mapEntries f entries) key =
      (entries.get? key).map (mapNumbers f) := by
  induction entries with
  | nil => rfl
  | cons entry rest ih =>
      obtain ⟨key', value⟩ := entry
      by_cases h : key = key'
      · simp [mapEntries, JsonMap.get?, h]
      · simp [mapEntries, JsonMap.get?, h, ih]

end JsonValue

namespace Condition

mutual

/-- The numbers of the values that a condition compares with. -/
def numbers : Condition → List JsonNumber
  | equals _ value => value.numbers
  | notEquals _ value => value.numbers
  | .exists _ => []
  | .in _ values => JsonValue.itemNumbers values
  | and conditions => listNumbers conditions
  | or conditions => listNumbers conditions
  | not condition => condition.numbers

def listNumbers : List Condition → List JsonNumber
  | [] => []
  | condition :: rest => condition.numbers ++ listNumbers rest

end

mutual

def mapNumbers (f : JsonNumber → Option JsonNumber) : Condition → Condition
  | equals fieldKey value => equals fieldKey (value.mapNumbers f)
  | notEquals fieldKey value => notEquals fieldKey (value.mapNumbers f)
  | .exists fieldKey => .exists fieldKey
  | .in fieldKey values => .in fieldKey (JsonValue.mapItems f values)
  | and conditions => and (mapList f conditions)
  | or conditions => or (mapList f conditions)
  | not condition => not (condition.mapNumbers f)

def mapList (f : JsonNumber → Option JsonNumber) :
    List Condition → List Condition
  | [] => []
  | condition :: rest => condition.mapNumbers f :: mapList f rest

end

variable {f : JsonNumber → Option JsonNumber}

mutual

theorem mapNumbers_eq_self : ∀ c : Condition,
    c.mapNumbers f = c ↔ ∀ n ∈ c.numbers, f n = some n
  | equals _ value => by
      simp [mapNumbers, numbers, JsonValue.mapNumbers_eq_self value]
  | notEquals _ value => by
      simp [mapNumbers, numbers, JsonValue.mapNumbers_eq_self value]
  | .exists _ => by simp [mapNumbers, numbers]
  | .in _ values => by
      simp [mapNumbers, numbers, JsonValue.mapItems_eq_self values]
  | and conditions => by simp [mapNumbers, numbers, mapList_eq_self conditions]
  | or conditions => by simp [mapNumbers, numbers, mapList_eq_self conditions]
  | not condition => by simp [mapNumbers, numbers, mapNumbers_eq_self condition]

theorem mapList_eq_self : ∀ conditions : List Condition,
    mapList f conditions = conditions ↔
      ∀ n ∈ listNumbers conditions, f n = some n
  | [] => by simp [mapList, listNumbers]
  | condition :: rest => by
      simp only [mapList, listNumbers, List.cons.injEq, List.forall_mem_append,
        mapNumbers_eq_self condition, mapList_eq_self rest]

end

end Condition

end Servcat
