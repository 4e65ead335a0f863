/-
JSON values as `serde_json` holds them: a number keeps the representation it was
read in, and an object is a map sorted by key.
-/
import Mathlib.Data.Rat.Init

namespace Servcat

/-- `serde_json::Number`.  Numbers of different representation are unequal; a
finite double is given by its value. -/
inductive JsonNumber where
  | posInt (n : UInt64)
  | negInt (n : Int64)
  | float (x : Rat)
deriving DecidableEq, Repr

inductive JsonValue where
  | null
  | bool (b : Bool)
  | number (n : JsonNumber)
  | string (s : String)
  | array (items : List JsonValue)
  | object (entries : List (String × JsonValue))
deriving Repr

namespace JsonValue

mutual

def beq : JsonValue → JsonValue → Bool
  | null, null => true
  | bool a, bool b => a == b
  | number a, number b => a == b
  | string a, string b => a == b
  | array a, array b => beqItems a b
  | object a, object b => beqEntries a b
  | _, _ => false

def beqItems : List JsonValue → List JsonValue → Bool
  | [], [] => true
  | a :: as, b :: bs => beq a b && beqItems as bs
  | _, _ => false

def beqEntries : List (String × JsonValue) → List (String × JsonValue) → Bool
  | [], [] => true
  | (k, a) :: as, (l, b) :: bs => k == l && beq a b && beqEntries as bs
  | _, _ => false

end

mutual

theorem beq_iff_eq : ∀ a b : JsonValue, beq a b = true ↔ a = b
  | null, b => by cases b <;> simp [beq]
  | bool a, b => by cases b <;> simp [beq]
  | number a, b => by cases b <;> simp [beq]
  | string a, b => by cases b <;> simp [beq]
  | array a, b => by cases b <;> simp [beq, beqItems_iff_eq a]
  | object a, b => by cases b <;> simp [beq, beqEntries_iff_eq a]

theorem beqItems_iff_eq : ∀ a b : List JsonValue, beqItems a b = true ↔ a = b
  | [], b => by cases b <;> simp [beqItems]
  | a :: as, b => by
      cases b <;> simp [beqItems, beq_iff_eq a, beqItems_iff_eq as]

theorem beqEntries_iff_eq :
    ∀ a b : List (String × JsonValue), beqEntries a b = true ↔ a = b
  | [], b => by cases b <;> simp [beqEntries]
  | (k, a) :: as, b => by
      rcases b with _ | ⟨⟨l, b⟩, bs⟩
      · simp [beqEntries]
      · simp [beqEntries, beq_iff_eq a, beqEntries_iff_eq as, and_assoc]

end

instance : DecidableEq JsonValue := fun a b =>
  decidable_of_iff (beq a b = true) (beq_iff_eq a b)

end JsonValue

/-- `serde_json::Map<String, Value>`. -/
abbrev JsonMap := List (String × JsonValue)

namespace JsonMap

def get? : JsonMap → String → Option JsonValue
  | [], _ => none
  | (key', value) :: rest, key =>
      if key = key' then some value else get? rest key

def containsKey (map : JsonMap) (key : String) : Bool :=
  (map.get? key).isSome

def insert (map : JsonMap) (key : String) (value : JsonValue) : JsonMap :=
  match map with
  | [] => [(key, value)]
  | (key', value') :: rest =>
      if key = key' then (key, value) :: rest
      else if key < key' then (key, value) :: (key', value') :: rest
      else (key', value') :: JsonMap.insert rest key value

theorem get?_insert (map : JsonMap) (key : String) (value : JsonValue)
    (other : String) :
    (map.insert key value).get? other =
      if other = key then some value else map.get? other := by
  induction map with
  | nil => rfl
  | cons entry rest ih =>
      obtain ⟨key', value'⟩ := entry
      by_cases hkey : key = key'
      · subst hkey
        by_cases h : other = key <;> simp [insert, get?, h]
      · by_cases hlt : key < key'
        · simp [insert, get?, hkey, hlt]
        · by_cases h : other = key'
          · have hne : other ≠ key := fun heq => hkey (heq.symm.trans h)
            simp [insert, get?, hkey, hlt, h, Ne.symm hkey]
          · simp [insert, get?, hkey, hlt, h, ih]

theorem containsKey_insert (map : JsonMap) (key : String) (value : JsonValue)
    (other : String) :
    (map.insert key value).containsKey other =
      (decide (other = key) || map.containsKey other) := by
  by_cases h : other = key <;> simp [containsKey, get?_insert, h]

theorem containsKey_iff {map : JsonMap} {key : String} :
    map.containsKey key = true ↔ key ∈ map.map Prod.fst := by
  induction map with
  | nil => simp [containsKey, get?]
  | cons entry rest ih =>
      obtain ⟨key', value⟩ := entry
      unfold containsKey at ih
      by_cases h : key = key'
      · simp [containsKey, get?, h]
      · simp only [containsKey, get?, h, ↓reduceIte, List.map_cons,
          List.mem_cons, false_or]
        exact ih

end JsonMap

/-- `Value::as_object`. -/
def JsonValue.asObject : JsonValue → Option JsonMap
  | .object entries => some entries
  | _ => none

end Servcat
