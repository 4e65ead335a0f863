/-
Texts as bytes and as the values of a query string: percent escapes, and the
pairs of a form-urlencoded text.
-/
import Mathlib.Data.Bool.AllAny
import Mathlib.Data.List.TakeWhile

namespace Uri

abbrev Bytes := List UInt8

/-- The UTF-8 encoding. -/
def utf8 (text : String) : Bytes :=
  text.toUTF8.toList

/-- How the second byte of a character is bounded by the first, and how many
bytes follow the first. -/
def follows (lead : UInt8) : UInt8 × UInt8 × Nat :=
  if lead = 0xE0 then (0xA0, 0xBF, 2)
  else if lead = 0xED then (0x80, 0x9F, 2)
  else if 0xE1 ≤ lead ∧ lead ≤ 0xEF then (0x80, 0xBF, 2)
  else if lead = 0xF0 then (0x90, 0xBF, 3)
  else if lead = 0xF4 then (0x80, 0x8F, 3)
  else if 0xF1 ≤ lead ∧ lead ≤ 0xF3 then (0x80, 0xBF, 3)
  else (0x80, 0xBF, 0)

/-- How many bytes after `lead` start a character with it that is
not completed. -/
def broken (lead : UInt8) (rest : Bytes) : Nat :=
  let (low, high, count) := follows lead
  match rest.take count with
  | [] => 0
  | second :: more =>
      if low ≤ second ∧ second ≤ high then
        1 + ((more.take (count - 2)).takeWhile
          fun b => 0x80 ≤ b ∧ b ≤ 0xBF).length
      else 0

/-- `String::from_utf8_lossy`: a start of a character that is not completed
becomes the replacement character.  Every round takes a byte off the text. -/
def decodeLossy : Nat → Bytes → List Char
  | 0, _ => []
  | _, [] => []
  | rounds + 1, lead :: rest =>
      match (lead :: rest).toByteArray.utf8DecodeChar? 0 with
      | some c => c :: decodeLossy rounds ((lead :: rest).drop c.utf8Size)
      | none =>
          Char.ofNat 0xFFFD :: decodeLossy rounds (rest.drop (broken lead rest))

def fromUtf8Lossy (bytes : Bytes) : String :=
  .ofList (decodeLossy bytes.length bytes)

def hexValue (digit : UInt8) : Option UInt8 :=
  if 48 ≤ digit ∧ digit ≤ 57 then some (digit - 48)
  else if 65 ≤ digit ∧ digit ≤ 70 then some (digit - 55)
  else if 97 ≤ digit ∧ digit ≤ 102 then some (digit - 87)
  else none

/-- A percent sign that two digits do not follow stands for itself. -/
def percentDecode : Bytes → Bytes
  | b :: high :: low :: rest =>
      if b = '%'.toUInt8 then
        match hexValue high, hexValue low with
        | some h, some l => (16 * h + l) :: percentDecode rest
        | _, _ => b :: percentDecode (high :: low :: rest)
      else b :: percentDecode (high :: low :: rest)
  | rest => rest

def plusToSpace (bytes : Bytes) : Bytes :=
  bytes.map fun b => if b = '+'.toUInt8 then ' '.toUInt8 else b

def decode (bytes : Bytes) : String :=
  fromUtf8Lossy (percentDecode (plusToSpace bytes))

/-- The name ends at the first equals sign. -/
def pair (piece : Bytes) : String × String :=
  (decode (piece.takeWhile (· ≠ '='.toUInt8)),
    decode ((piece.dropWhile (· ≠ '='.toUInt8)).drop 1))

/-- The pairs of a form-urlencoded text. -/
def pairs (text : String) : List (String × String) :=
  (((utf8 text).splitOn '&'.toUInt8).filter (· ≠ [])).map pair

/-- The query string of an address. -/
def query (address : String) : String :=
  .ofList (((address.toList.takeWhile (· ≠ '#')).dropWhile (· ≠ '?')).drop 1)

/-- The digits of an escape are in upper case. -/
def hexDigit (n : UInt8) : UInt8 :=
  if n < 10 then 48 + n else 55 + n

def escape (b : UInt8) : Bytes :=
  ['%'.toUInt8, hexDigit (b / 16), hexDigit (b % 16)]

/-- What is checked character by character holds of a text. -/
theorem literal {text : List Char} {p : Char → Prop} [DecidablePred p]
    (h : (text.all fun c => p c) = true) : ∀ c ∈ text, p c :=
  List.all_iff_forall_prop.mp h

theorem toList_eq_data (bytes : ByteArray) :
    bytes.toList = bytes.data.toList := by
  have hloop : ∀ i read, ByteArray.toList.loop bytes i read =
      read.reverse ++ bytes.data.toList.drop i := by
    intro i read
    fun_induction ByteArray.toList.loop bytes i read with
    | case1 i read h ih =>
        have hi : i < bytes.data.toList.length := by simpa using h
        have hget : bytes.get! i = bytes.data.toList[i] := by
          simpa [ByteArray.get!] using getElem!_pos bytes.data i h
        rw [ih, List.drop_eq_getElem_cons hi, hget]
        simp
    | case2 i read h =>
        have hi : bytes.data.toList.length ≤ i := by
          simpa using Nat.le_of_not_lt h
        rw [List.drop_eq_nil_of_le hi, List.append_nil]
  rw [ByteArray.toList, hloop]
  simp

theorem utf8_eq (text : String) :
    utf8 text = text.toList.flatMap String.utf8EncodeChar := by
  have htext : text.toUTF8 =
      (text.toList.flatMap String.utf8EncodeChar).toByteArray :=
    String.utf8Encode_toList.symm
  rw [utf8, toList_eq_data, htext, List.toList_data_toByteArray]

theorem utf8_append (text text' : String) :
    utf8 (text ++ text') = utf8 text ++ utf8 text' := by
  simp only [utf8_eq, String.toList_append, List.flatMap_append]

theorem utf8EncodeChar_ascii {c : Char} (h : c.toNat < 128) :
    String.utf8EncodeChar c = [c.toUInt8] :=
  if_pos (Nat.le_of_lt_succ h)

/-- A text of ASCII characters has one byte for each of them. -/
theorem utf8_ofList_ascii {text : List Char} (h : ∀ c ∈ text, c.toNat < 128) :
    utf8 (.ofList text) = text.map Char.toUInt8 := by
  rw [utf8_eq, String.toList_ofList]
  induction text with
  | nil => rfl
  | cons c text ih =>
      have hrest := ih fun d hd => h d (List.mem_cons_of_mem _ hd)
      rw [List.flatMap_cons,
        utf8EncodeChar_ascii (h c List.mem_cons_self), hrest]
      rfl

theorem decodeLossy_flatMap {text : List Char} {rounds : ℕ}
    (h : text.length ≤ rounds) :
    decodeLossy rounds (text.flatMap String.utf8EncodeChar) = text := by
  induction text generalizing rounds with
  | nil => cases rounds <;> rfl
  | cons c text ih =>
      obtain ⟨rounds, rfl⟩ : ∃ n, rounds = n + 1 :=
        Nat.exists_eq_add_one.mpr <| by
          have := h
          simp at this
          omega
      have hlength : (String.utf8EncodeChar c).length = c.utf8Size :=
        String.length_utf8EncodeChar c
      obtain ⟨lead, more, hc⟩ : ∃ lead more,
          String.utf8EncodeChar c = lead :: more := by
        apply List.exists_cons_of_ne_nil
        intro hnil
        have := c.utf8Size_pos
        simp [hnil] at hlength
        omega
      have hdecoded : (String.utf8EncodeChar c ++
          text.flatMap String.utf8EncodeChar).toByteArray.utf8DecodeChar? 0 =
            some c := by
        rw [List.toByteArray_append]
        exact ByteArray.utf8DecodeChar?_utf8EncodeChar_append
      have hrest := ih (Nat.le_of_succ_le_succ h)
      rw [List.flatMap_cons, hc, List.cons_append, decodeLossy,
        ← List.cons_append, ← hc, hdecoded]
      change c :: decodeLossy rounds (List.drop c.utf8Size _) = c :: text
      rw [← hlength, List.drop_left, hrest]

theorem fromUtf8Lossy_utf8 (text : String) :
    fromUtf8Lossy (utf8 text) = text := by
  have hlength : text.toList.length ≤
      (text.toList.flatMap String.utf8EncodeChar).length := by
    induction text.toList with
    | nil => exact Nat.le_refl 0
    | cons c rest ih =>
        have hpos := c.utf8Size_pos
        rw [List.flatMap_cons, List.length_append, String.length_utf8EncodeChar,
          List.length_cons]
        omega
  rw [fromUtf8Lossy, utf8_eq, decodeLossy_flatMap hlength, String.ofList_toList]

theorem percentDecode_cons_of_ne {b : UInt8} (h : b ≠ '%'.toUInt8)
    (rest : Bytes) : percentDecode (b :: rest) = b :: percentDecode rest := by
  rcases rest with _ | ⟨high, _ | ⟨low, rest⟩⟩
  · rfl
  · rfl
  · rw [percentDecode, if_neg h]

theorem hexValue_hexDigit (b : UInt8) :
    hexValue (hexDigit (b / 16)) = some (b / 16) ∧
      hexValue (hexDigit (b % 16)) = some (b % 16) ∧
      16 * (b / 16) + b % 16 = b := by
  have hall : ∀ n < 256,
      hexValue (hexDigit (UInt8.ofNat n / 16)) = some (UInt8.ofNat n / 16) ∧
        hexValue (hexDigit (UInt8.ofNat n % 16)) = some (UInt8.ofNat n % 16) ∧
        16 * (UInt8.ofNat n / 16) + UInt8.ofNat n % 16 = UInt8.ofNat n := by
    decide +kernel
  simpa using hall b.toNat b.toNat_lt

theorem percentDecode_escape (b : UInt8) (rest : Bytes) :
    percentDecode (escape b ++ rest) = b :: percentDecode rest := by
  obtain ⟨hhigh, hlow, hsum⟩ := hexValue_hexDigit b
  change percentDecode ('%'.toUInt8 :: hexDigit (b / 16) :: hexDigit
    (b % 16) :: rest) = _
  rw [percentDecode, if_pos rfl, hhigh, hlow]
  exact congrArg (· :: percentDecode rest) hsum

/-- How a byte may be written so that it is read back. -/
inductive Encodes (b : UInt8) : Bytes → Prop where
  | raw (hpercent : b ≠ '%'.toUInt8) (hplus : b ≠ '+'.toUInt8)
      (hamp : b ≠ '&'.toUInt8) : Encodes b [b]
  | escaped : Encodes b (escape b)

theorem sign_notMem_escape (b : UInt8) :
    '+'.toUInt8 ∉ escape b ∧ '&'.toUInt8 ∉ escape b := by
  have hall : ∀ n < 256, '+'.toUInt8 ∉ escape (.ofNat n) ∧
      '&'.toUInt8 ∉ escape (.ofNat n) := by
    decide +kernel
  simpa using hall b.toNat b.toNat_lt

theorem plusToSpace_eq_self {bytes : Bytes} (h : '+'.toUInt8 ∉ bytes) :
    plusToSpace bytes = bytes := by
  have hkeep : ∀ b ∈ bytes,
      (if b = '+'.toUInt8 then ' '.toUInt8 else b) = id b :=
    fun b hb => if_neg (ne_of_mem_of_not_mem hb h)
  rw [plusToSpace, List.map_congr_left hkeep, List.map_id]

theorem percentDecode_eq_self {bytes : Bytes} (h : '%'.toUInt8 ∉ bytes) :
    percentDecode bytes = bytes := by
  induction bytes with
  | nil => rfl
  | cons b bytes ih =>
      rw [List.mem_cons, not_or] at h
      rw [percentDecode_cons_of_ne (Ne.symm h.1), ih h.2]

/-- A text without signs that stand for something else. -/
theorem decode_ascii {text : List Char}
    (h : ∀ c ∈ text, c.toNat < 128 ∧ c.toUInt8 ≠ '+'.toUInt8 ∧
      c.toUInt8 ≠ '%'.toUInt8) :
    decode (text.map Char.toUInt8) = .ofList text := by
  have hplus : '+'.toUInt8 ∉ text.map Char.toUInt8 := by
    rw [List.mem_map]
    rintro ⟨c, hc, heq⟩
    exact (h c hc).2.1 heq
  have hpercent : '%'.toUInt8 ∉ text.map Char.toUInt8 := by
    rw [List.mem_map]
    rintro ⟨c, hc, heq⟩
    exact (h c hc).2.2 heq
  rw [decode, plusToSpace_eq_self hplus, percentDecode_eq_self hpercent,
    ← utf8_ofList_ascii fun c hc => (h c hc).1, fromUtf8Lossy_utf8]

/-- Reading a byte back. -/
theorem Encodes.percentDecode {b : UInt8} {written : Bytes}
    (h : Encodes b written) (rest : Bytes) :
    percentDecode (plusToSpace (written ++ rest)) = b :: percentDecode
      (plusToSpace rest) := by
  rw [plusToSpace, List.map_append]
  cases h with
  | raw hpercent hplus hamp =>
      rw [List.map_cons, if_neg hplus]
      exact percentDecode_cons_of_ne hpercent _
  | escaped =>
      have hwritten := plusToSpace_eq_self (sign_notMem_escape b).1
      rw [plusToSpace] at hwritten
      rw [hwritten]
      exact percentDecode_escape b _

theorem percentDecode_flatMap {encode : UInt8 → Bytes}
    (h : ∀ b, Encodes b (encode b)) (bytes : Bytes) :
    percentDecode (plusToSpace (bytes.flatMap encode)) = bytes := by
  induction bytes with
  | nil => rfl
  | cons b bytes ih => rw [List.flatMap_cons, (h b).percentDecode, ih]

theorem decode_flatMap {encode : UInt8 → Bytes} (h : ∀ b, Encodes b (encode b))
    (text : String) : decode ((utf8 text).flatMap encode) = text := by
  rw [decode, percentDecode_flatMap h, fromUtf8Lossy_utf8]

theorem Encodes.amp_notMem {b : UInt8} {written : Bytes}
    (h : Encodes b written) : '&'.toUInt8 ∉ written := by
  cases h with
  | raw _ _ hamp => exact fun hmem => hamp (List.mem_singleton.mp hmem).symm
  | escaped => exact (sign_notMem_escape b).2

theorem amp_notMem_flatMap {encode : UInt8 → Bytes}
    (h : ∀ b, Encodes b (encode b)) (bytes : Bytes) :
    '&'.toUInt8 ∉ bytes.flatMap encode := by
  rw [List.mem_flatMap]
  rintro ⟨b, -, hmem⟩
  exact (h b).amp_notMem hmem

theorem pair_append {name value : Bytes} (h : '='.toUInt8 ∉ name) :
    pair (name ++ '='.toUInt8 :: value) = (decode name, decode value) := by
  have hname : ∀ b ∈ name, decide (b ≠ '='.toUInt8) = true :=
    fun b hb => decide_eq_true (ne_of_mem_of_not_mem hb h)
  unfold pair
  rw [List.takeWhile_append_of_pos hname, List.dropWhile_append_of_pos hname]
  simp

/-- A text without an ampersand has one pair. -/
theorem pairs_eq_singleton {text : String} {name value : Bytes}
    (htext : utf8 text = name ++ '='.toUInt8 :: value)
    (hname : '='.toUInt8 ∉ name) (hamp : '&'.toUInt8 ∉ utf8 text) :
    pairs text = [(decode name, decode value)] := by
  rw [pairs, List.splitOn_eq_singleton hamp, htext]
  simp [pair_append hname]

/-- The pair before the first ampersand comes first. -/
theorem pairs_eq_cons {text rest : String} {name value : Bytes}
    (htext : utf8 text = name ++ '='.toUInt8 :: value ++
      '&'.toUInt8 :: utf8 rest)
    (hname : '='.toUInt8 ∉ name)
    (hamp : '&'.toUInt8 ∉ name ++ '='.toUInt8 :: value) :
    pairs text = (decode name, decode value) :: pairs rest := by
  rw [pairs, htext, List.splitOn_append_cons_self_of_not_mem hamp]
  simp [pairs, pair_append hname]

/-- What follows the first question mark, without the fragment. -/
theorem query_append {path rest : List Char}
    (hpath : ∀ c ∈ path, c ≠ '?' ∧ c ≠ '#') :
    query (.ofList (path ++ '?' :: rest)) = .ofList
      (rest.takeWhile (· ≠ '#')) := by
  have hfragment : ∀ c ∈ path ++ ['?'], decide (c ≠ '#') = true := by
    intro c hc
    rw [decide_eq_true_eq]
    rcases List.mem_append.mp hc with hc | hc
    · exact (hpath c hc).2
    · rw [List.mem_singleton.mp hc]
      decide
  have hbefore : ∀ c ∈ path, decide (c ≠ '?') = true :=
    fun c hc => decide_eq_true (hpath c hc).1
  have hsplit : path ++ '?' :: rest = (path ++ ['?']) ++ rest := by simp
  rw [query, String.toList_ofList, hsplit,
    List.takeWhile_append_of_pos hfragment, List.append_assoc,
    List.dropWhile_append_of_pos hbefore]
  simp

end Uri
