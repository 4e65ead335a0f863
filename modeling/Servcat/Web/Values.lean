/-
Values on their way into a workflow: an answer from the web form, and a branch
condition from the visual builder, through the JSON text it is saved as.
-/
import Servcat.Engine
import Servcat.Numeric.Decimal

namespace Servcat

open Numeric

/-- The format of the doubles of both languages. -/
def binary64 : Format :=
  ⟨53, -1074⟩

/-- The double nearest to `q`, unless that is infinite. -/
def double (q : ℚ) : Option ℚ :=
  if |binary64.round q| < 2 ^ 1024 then some (binary64.round q) else none

/-- The white space of Unicode. -/
def isWhitespace (c : Char) : Bool :=
  let n := c.toNat
  (9 ≤ n && n ≤ 13) || n == 32 || n == 133 || n == 160 || n == 5760 ||
    (8192 ≤ n && n ≤ 8202) || n == 8232 || n == 8233 || n == 8239 ||
      n == 8287 ||
    n == 12288

/-- What the browser trims: the next-line character stays, the byte-order mark
goes. -/
def isBrowserSpace (c : Char) : Bool :=
  (isWhitespace c && c.toNat != 133) || c.toNat == 65279

def trim (space : Char → Bool) (text : String) : String :=
  String.ofList ((text.toList.dropWhile space).reverse.dropWhile space).reverse

/-- The trimmed pieces between commas that are not empty. -/
def listed (space : Char → Bool) (text : String) : List String :=
  (((text.toList.splitOn ',').map String.ofList).map
    (trim space)).filter (· ≠ "")

section Form

/-- `str::parse::<f64>` where `Number::from_f64` takes the result: no infinity
and no NaN. -/
def parseF64 (raw : String) : Option ℚ :=
  (decimalValue? raw).bind double

/-- The JSON value of an answer that the web form submitted as text. -/
def coerceAnswer : Option InputType → String → JsonValue
  | some .boolean, raw => .bool (raw = "true" ∨ raw = "on")
  | some .number, raw =>
      ((parseF64 raw).map fun x => JsonValue.number (.float x)).getD .null
  | some .multiSelect, raw => .array ((listed isWhitespace raw).map .string)
  | _, raw => .string raw

end Form

section Builder

inductive ConditionOp where
  | equals
  | notEquals
  | exists
  | in
deriving DecidableEq, Repr

inductive ValueType where
  | string
  | number
  | boolean
deriving DecidableEq, Repr

/-- The fields of a branch step that the builder asks for a condition. -/
structure BranchDraft where
  conditionOp : ConditionOp
  conditionFieldKey : String
  conditionValueType : ValueType
  conditionValue : String
  conditionValues : String
deriving Repr

/-- A value of the script; no number stands for NaN and the infinities. -/
inductive ScriptValue where
  | number (x : Option ℚ)
  | boolean (b : Bool)
  | string (s : String)
deriving Repr

/-- The object the builder makes of a condition. -/
inductive ConditionJson where
  | equals (fieldKey : String) (value : ScriptValue)
  | notEquals (fieldKey : String) (value : ScriptValue)
  | exists (fieldKey : String)
  | in (fieldKey : String) (values : List ScriptValue)
deriving Repr

/-- The digits of a hexadecimal, octal or binary literal. -/
def radixValue? : List Char → Option ℕ
  | '0' :: mark :: digits =>
      let radix :=
        if mark = 'x' ∨ mark = 'X' then 16
        else if mark = 'o' ∨ mark = 'O' then 8
        else if mark = 'b' ∨ mark = 'B' then 2
        else 0
      let values := digits.map fun c =>
        if c.isDigit then c.toNat - '0'.toNat
        else if 'a' ≤ c ∧ c ≤ 'f' then c.toNat - 'a'.toNat + 10
        else if 'A' ≤ c ∧ c ≤ 'F' then c.toNat - 'A'.toNat + 10
        else radix
      if values ≠ [] ∧ values.all (· < radix) then
        some (values.foldl (fun n d => radix * n + d) 0)
      else none
  | _ => none

/-- `Number(raw)`.  Nothing of a decimal text is white space to trim. -/
def scriptNumber (raw : String) : Option ℚ :=
  match decimalValue? raw with
  | some q => double q
  | none =>
      let text := trim isBrowserSpace raw
      if text = "" then some 0
      else
        ((decimalValue? text).or
          ((radixValue? text.toList).map fun n => (n : ℚ))).bind double

def coerceValue (raw : String) : ValueType → ScriptValue
  | .number => .number (scriptNumber raw)
  | .boolean => .boolean (raw = "true")
  | .string => .string raw

/-- The texts a condition compares the answer with. -/
def BranchDraft.compared (step : BranchDraft) : List String :=
  match step.conditionOp with
  | .equals | .notEquals => [step.conditionValue]
  | .exists => []
  | .in => listed isBrowserSpace step.conditionValues

def buildConditionJson (step : BranchDraft) : ConditionJson :=
  match step.conditionOp with
  | .exists => .exists step.conditionFieldKey
  | .in =>
      .in step.conditionFieldKey
        ((listed isBrowserSpace step.conditionValues).map fun v =>
          coerceValue v step.conditionValueType)
  | .equals =>
      .equals step.conditionFieldKey
        (coerceValue step.conditionValue step.conditionValueType)
  | .notEquals =>
      .notEquals step.conditionFieldKey
        (coerceValue step.conditionValue step.conditionValueType)

end Builder

section Text

/-- The digits of a decimal as `Number::toString` lays them out. -/
def layOut (d : Decimal) : List Char :=
  let digits := Nat.toDigits 10 d.digits
  let k : ℤ := digits.length
  let n := d.exponent + k
  if k ≤ n ∧ n ≤ 21 then digits ++ List.replicate (n - k).toNat '0'
  else if 0 < n ∧ n ≤ 21 then
    digits.take n.toNat ++ '.' :: digits.drop n.toNat
  else if -6 < n ∧ n ≤ 0 then
    '0' :: '.' :: List.replicate (-n).toNat '0' ++ digits
  else
    let power :=
      (if 0 ≤ n - 1 then '+' else '-') :: Nat.toDigits 10 (n - 1).natAbs
    if k = 1 then digits ++ 'e' :: power
    else digits.take 1 ++ '.' :: digits.drop 1 ++ 'e' :: power

/-- `JSON.stringify` of a double.  Where the shortest digits are not unique they
are the nearest, as engines have them. -/
def numberText (x : ℚ) : String :=
  if x = 0 then "0"
  else if x < 0 then String.ofList ('-' :: layOut (binary64.shortest (-x)))
  else String.ofList (layOut (binary64.shortest x))

/-- How `serde_json` reads a number with a fraction or an exponent, or one too
large for its integers; nothing where it is out of range. -/
abbrev ReadFloat := String → Option ℚ

/-- A minus sign and digits. -/
def integerLiteral? : List Char → Option (Bool × ℕ)
  | '-' :: digits => (digitsValue? digits).map fun n => (true, n)
  | digits => (digitsValue? digits).map fun n => (false, n)

/-- A JSON number as `serde_json` reads it: an integer literal that fits keeps
being an integer. -/
def readNumber (readFloat : ReadFloat) (text : String) : Option JsonNumber :=
  match integerLiteral? text.toList with
  | some (false, n) =>
      if n < 2 ^ 64 then some (.posInt (UInt64.ofNat n))
      else (readFloat text).map .float
  | some (true, n) =>
      if 0 < n ∧ n ≤ 2 ^ 63 then some (.negInt (Int64.ofInt (-n)))
      else (readFloat text).map .float
  | none => (readFloat text).map .float

/-- A value of the script as the server reads it from its JSON text. -/
def ScriptValue.read (readFloat : ReadFloat) : ScriptValue → Option JsonValue
  | .number none => some .null
  | .number (some x) => (readNumber readFloat (numberText x)).map .number
  | .boolean b => some (.bool b)
  | .string s => some (.string s)

/-- The condition the server reads; none where it refuses the text. -/
def ConditionJson.read (readFloat : ReadFloat) :
    ConditionJson → Option Condition
  | .equals fieldKey value => (value.read readFloat).map (.equals fieldKey)
  | .notEquals fieldKey value =>
      (value.read readFloat).map (.notEquals fieldKey)
  | .exists fieldKey => some (.exists fieldKey)
  | .in fieldKey values =>
      (values.mapM (ScriptValue.read readFloat)).map (.in fieldKey)

end Text

end Servcat
