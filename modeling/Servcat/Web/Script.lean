/-
Values of the script that runs in the browser, as far as it makes them of JSON
and hands them back as JSON.
-/
import Servcat.Web.NumberText
import Servcat.Model.Numbers

namespace Servcat

open Numeric

inductive JsNumber where
  | finite (x : ℚ)
  | infinity (negative : Bool)
  | nan
deriving DecidableEq, Repr

/-- What tells an object from another one: the way to it in the text it was
parsed from, innermost key first. -/
abbrev Ref := List String

inductive JsValue where
  | undefined
  | null
  | boolean (b : Bool)
  | number (x : JsNumber)
  | string (s : String)
  | array (ref : Ref) (items : List JsValue)
  | object (ref : Ref) (entries : List (String × JsValue))
deriving Repr

namespace JsNumber

/-- The double nearest to a number. -/
def ofRat (q : ℚ) : JsNumber :=
  match double q with
  | some x => .finite x
  | none => .infinity (q < 0)

/-- `Number(raw)`. -/
def ofText (raw : String) : JsNumber :=
  match scriptNumber raw with
  | some x => .finite x
  | none =>
      let text := trim isBrowserSpace raw
      if text = "Infinity" ∨ text = "+Infinity" then .infinity false
      else if text = "-Infinity" then .infinity true
      else
        match (decimalValue? text).or
            ((radixValue? text.toList).map fun n => (n : ℚ)) with
        | some q => .infinity (q < 0)
        | none => .nan

def text : JsNumber → String
  | finite x => numberText x
  | infinity false => "Infinity"
  | infinity true => "-Infinity"
  | nan => "NaN"

end JsNumber

namespace JsValue

/-- An array or object that is written out in the script; it is
compared with none. -/
def literal (entries : List (String × JsValue)) : JsValue :=
  .object [] entries

def truthy : JsValue → Bool
  | undefined => false
  | null => false
  | boolean b => b
  | number (.finite x) => x ≠ 0
  | number (.infinity _) => true
  | number .nan => false
  | string s => s ≠ ""
  | array _ _ => true
  | object _ _ => true

/-- `value || other` -/
def or (value other : JsValue) : JsValue :=
  if value.truthy then value else other

/-- `===` -/
def strictEq : JsValue → JsValue → Bool
  | undefined, undefined => true
  | null, null => true
  | boolean a, boolean b => a = b
  | number x, number y => x = y ∧ x ≠ .nan
  | string s, string t => s = t
  | array ref _, array ref' _ => ref = ref'
  | object ref _, object ref' _ => ref = ref'
  | _, _ => false

/-- The property of a name that neither arrays nor primitives have; an exception
where there is no object to ask. -/
def get? : JsValue → String → Option JsValue
  | undefined, _ => none
  | null, _ => none
  | object _ entries, key => some ((entries.lookup key).getD .undefined)
  | _, _ => some .undefined

mutual

/-- `String(value)`.  An object from JSON has no method of its own, so one that
has a key `toString` cannot be converted. -/
def text? : JsValue → Option String
  | undefined => some "undefined"
  | null => some "null"
  | boolean b => some (if b then "true" else "false")
  | number x => some x.text
  | string s => some s
  | array _ items => (itemTexts? items).map (String.intercalate ",")
  | object _ entries =>
      if (entries.lookup "toString").isSome then none
      else some "[object Object]"

/-- The texts that `join` puts together. -/
def itemTexts? : List JsValue → Option (List String)
  | [] => some []
  | undefined :: rest => (itemTexts? rest).map ("" :: ·)
  | null :: rest => (itemTexts? rest).map ("" :: ·)
  | item :: rest =>
      (text? item).bind fun text => (itemTexts? rest).map (text :: ·)

end

mutual

/-- `JSON.parse` -/
def parse (ref : Ref) : JsonValue → JsValue
  | .null => .null
  | .bool b => .boolean b
  | .number n => .number (.ofRat n.value)
  | .string s => .string s
  | .array items => .array ref (parseItems ref 0 items)
  | .object entries => .object ref (parseEntries ref entries)

def parseItems (ref : Ref) (index : ℕ) : List JsonValue → List JsValue
  | [] => []
  | item :: rest =>
      parse (toString index :: ref) item :: parseItems ref (index + 1) rest

def parseEntries (ref : Ref) :
    List (String × JsonValue) → List (String × JsValue)
  | [] => []
  | (key, value) :: rest =>
      (key, parse (key :: ref) value) :: parseEntries ref rest

end

mutual

/-- `JSON.stringify`, and how the server reads the text; nothing where it
refuses a number.  The server sorts the keys of an object, and here they stay in
the order in which they were. -/
def read? (readFloat : ReadFloat) : JsValue → Option JsonValue
  | undefined => some .null
  | null => some .null
  | boolean b => some (.bool b)
  | number (.finite x) => (readNumber readFloat (numberText x)).map .number
  | number _ => some .null
  | string s => some (.string s)
  | array _ items => (readItems? readFloat items).map .array
  | object _ entries => (readEntries? readFloat entries).map .object

def readItems? (readFloat : ReadFloat) : List JsValue → Option (List JsonValue)
  | [] => some []
  | item :: rest =>
      (read? readFloat item).bind fun value =>
        (readItems? readFloat rest).map (value :: ·)

/-- A key without a value is left out. -/
def readEntries? (readFloat : ReadFloat) :
    List (String × JsValue) → Option (List (String × JsonValue))
  | [] => some []
  | (_, undefined) :: rest => readEntries? readFloat rest
  | (key, value) :: rest =>
      (read? readFloat value).bind fun value =>
        (readEntries? readFloat rest).map ((key, value) :: ·)

end

end JsValue

/-- What the server reads for a number that went through the script; nothing
where the script has no finite number for it or the server refuses the text. -/
def reread? (readFloat : ReadFloat) (q : ℚ) : Option JsonNumber :=
  (double q).bind fun x => readNumber readFloat (numberText x)

def JsonNumber.reread? (readFloat : ReadFloat)
    (n : JsonNumber) : Option JsonNumber :=
  Servcat.reread? readFloat n.value

/-- The number comes back from the script as it was. -/
def JsonNumber.Stable (readFloat : ReadFloat) (n : JsonNumber) : Prop :=
  n.reread? readFloat = some n

instance (readFloat : ReadFloat) (n : JsonNumber) :
    Decidable (n.Stable readFloat) :=
  inferInstanceAs (Decidable (_ = _))

/-- The server does not refuse what the script writes for the number. -/
def JsonNumber.Readable (readFloat : ReadFloat) (n : JsonNumber) : Prop :=
  ∀ x, double n.value = some x →
    (readNumber readFloat (numberText x)).isSome = true

theorem mapM_bind_mapM {α β γ : Type} (f : α → Option β) (g : β → Option γ)
    (l : List α) :
    (l.mapM f).bind (List.mapM g) = l.mapM fun a => (f a).bind g := by
  induction l with
  | nil => rfl
  | cons a rest ih =>
      simp only [List.mapM_cons, Option.pure_def, Option.bind_eq_bind, ← ih]
      cases f a with
      | none => rfl
      | some b =>
          cases rest.mapM f with
          | none => cases h : g b <;> simp [h]
          | some bs => simp [List.mapM_cons]

theorem forall₂_iff_map_eq {α β γ : Type} {f : α → γ} {g : β → γ} {l : List α}
    {m : List β} :
    List.Forall₂ (fun a b => f a = g b) l m ↔ l.map f = m.map g := by
  induction l generalizing m with
  | nil => cases m <;> simp
  | cons a rest ih => cases m <;> simp [ih]

theorem mapM_eq_some {α β : Type} {f : α → Option β} {l : List α} {m : List β} :
    l.mapM f = some m ↔ List.Forall₂ (fun a b => f a = some b) l m := by
  induction l generalizing m with
  | nil => cases m <;> simp
  | cons a rest ih =>
      cases m <;> simp [List.mapM_cons, Option.bind_eq_some_iff, ih]

namespace JsValue

variable {readFloat : ReadFloat}

theorem readItems?_eq_mapM (items : List JsValue) :
    readItems? readFloat items = items.mapM (read? readFloat) := by
  induction items with
  | nil => rfl
  | cons item rest ih =>
      rw [readItems?, ih, List.mapM_cons]
      cases read? readFloat item with
      | none => rfl
      | some value => cases List.mapM (read? readFloat) rest <;> rfl

open JsonValue (mapNumbers mapItems mapEntries numbers itemNumbers entryNumbers)

theorem lookup_parseEntries (ref : Ref) (entries : JsonMap) (key : String) :
    (parseEntries ref entries).lookup key = (entries.get? key).map
      (parse (key :: ref)) := by
  induction entries with
  | nil => rfl
  | cons entry rest ih =>
      obtain ⟨key', value⟩ := entry
      by_cases h : key = key'
      · simp [parseEntries, JsonMap.get?, h]
      · have hbeq : (key == key') = false := beq_eq_false_iff_ne.mpr h
        simp [parseEntries, JsonMap.get?, List.lookup_cons, h, hbeq, ih]

theorem read?_number_eq_some {n : JsonNumber} {v : JsonValue} :
    read? readFloat (.number (.ofRat n.value)) = some v ↔
      n.Readable readFloat ∧
      (JsonValue.number n).mapNumbers (·.reread? readFloat) = v := by
  unfold JsNumber.ofRat JsonNumber.Readable JsonNumber.reread? reread?
    mapNumbers
  cases double n.value with
  | none =>
      simp only [read?, Option.bind_none, Option.elim_none, reduceCtorEq,
        false_implies, implies_true, true_and, Option.some.injEq]
  | some x =>
      simp only [read?, Option.bind_some, Option.some.injEq, forall_eq']
      cases readNumber readFloat (numberText x) <;> simp

mutual

/-- JSON that goes through the script comes back with its numbers read again. -/
theorem read?_parse : ∀ (v : JsonValue) {ref : Ref} {w : JsonValue},
    read? readFloat (parse ref v) = some w ↔
      (∀ n ∈ v.numbers, n.Readable readFloat) ∧
      v.mapNumbers (·.reread? readFloat) = w
  | .null, _, _ => by simp [parse, read?, numbers, mapNumbers]
  | .bool _, _, _ => by simp [parse, read?, numbers, mapNumbers]
  | .string _, _, _ => by simp [parse, read?, numbers, mapNumbers]
  | .number n, _, _ => by
      simp only [parse, read?_number_eq_some, numbers, List.mem_singleton,
        forall_eq]
  | .array items, ref, w => by
      simp only [parse, read?, Option.map_eq_some_iff,
        readItems?_parseItems items, numbers, mapNumbers, and_assoc,
        exists_and_left, exists_eq_left']
  | .object entries, ref, w => by
      simp only [parse, read?, Option.map_eq_some_iff,
        readEntries?_parseEntries entries, numbers, mapNumbers, and_assoc,
        exists_and_left, exists_eq_left']

theorem readItems?_parseItems :
    ∀ (items : List JsonValue) {ref : Ref} {index : ℕ}
    {items' : List JsonValue},
    readItems? readFloat (parseItems ref index items) = some items' ↔
      (∀ n ∈ itemNumbers items, n.Readable readFloat) ∧
        mapItems (·.reread? readFloat) items = items'
  | [], _, _, _ => by simp [parseItems, readItems?, itemNumbers, mapItems]
  | item :: rest, _, _, _ => by
      simp only [parseItems, readItems?, Option.bind_eq_some_iff,
        Option.map_eq_some_iff, read?_parse item, readItems?_parseItems rest,
        itemNumbers, mapItems, List.forall_mem_append, and_assoc,
        exists_and_left, exists_eq_left']

theorem readEntries?_parseEntries :
    ∀ (entries : List (String × JsonValue)) {ref : Ref}
    {entries' : List (String × JsonValue)},
    readEntries? readFloat (parseEntries ref entries) = some entries' ↔
      (∀ n ∈ entryNumbers entries, n.Readable readFloat) ∧
        mapEntries (·.reread? readFloat) entries = entries'
  | [], _, _ => by simp [parseEntries, readEntries?, entryNumbers, mapEntries]
  | (key, value) :: rest, ref, _ => by
      have hread : readEntries? readFloat
          (parseEntries ref ((key, value) :: rest)) =
          (read? readFloat (parse (key :: ref) value)).bind fun value' =>
            (readEntries? readFloat (parseEntries ref rest)).map
              ((key, value') :: ·) := by
        cases value <;> simp only [parseEntries, parse, readEntries?]
      simp only [hread, Option.bind_eq_some_iff, Option.map_eq_some_iff,
        read?_parse value, readEntries?_parseEntries rest, entryNumbers,
          mapEntries,
        List.forall_mem_append, and_assoc, exists_and_left, exists_eq_left']

end

end JsValue

end Servcat
