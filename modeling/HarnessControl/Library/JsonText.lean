import HarnessControl.Library.Dict
import HarnessControl.Library.Utf16

/-!
# JSON text

Values of strings that may hold any UTF-16 units, over numbers that are known by their numerals only.
The text of a value is read back as the value, each number as the one of its numeral.
-/

namespace HarnessControl.Library.JsonText

abbrev Units := List UInt16

inductive Value (ν : Type) where
  | null
  | bool (value : Bool)
  | number (value : ν)
  | string (value : Units)
  | array (items : List (Value ν))
  | object (members : List (Units × Value ν))

/-- How numbers are printed, and the number of a numeral. -/
structure Numerals (ν : Type) where
  text : ν → List Char
  value : List Char → ν

variable {ν : Type}

/-! ## Numerals -/

inductive NumeralState where
  | start
  | minus
  | zero
  | whole
  | point
  | fraction
  | exponent
  | sign
  | power

def NumeralState.next (state : NumeralState) (c : Char) : Option NumeralState :=
  match state with
  | .start =>
    if c = '-' then some .minus else if c = '0' then some .zero
    else if c.isDigit then some .whole else none
  | .minus => if c = '0' then some .zero else if c.isDigit then some .whole else none
  | .zero => if c = '.' then some .point else if c = 'e' ∨ c = 'E' then some .exponent else none
  | .whole =>
    if c.isDigit then some .whole else if c = '.' then some .point
    else if c = 'e' ∨ c = 'E' then some .exponent else none
  | .point => if c.isDigit then some .fraction else none
  | .fraction =>
    if c.isDigit then some .fraction else if c = 'e' ∨ c = 'E' then some .exponent else none
  | .exponent =>
    if c = '+' ∨ c = '-' then some .sign else if c.isDigit then some .power else none
  | .sign => if c.isDigit then some .power else none
  | .power => if c.isDigit then some .power else none

def NumeralState.complete : NumeralState → Bool
  | .zero | .whole | .fraction | .power => true
  | _ => false

def isNumeralFrom (state : NumeralState) : List Char → Bool
  | [] => state.complete
  | c :: rest =>
    match state.next c with
    | some state => isNumeralFrom state rest
    | none => false

/-- `-?(0|[1-9][0-9]*)(\.[0-9]+)?([eE][+-]?[0-9]+)?` -/
def isNumeral (text : List Char) : Bool := isNumeralFrom .start text

def numeralChar (c : Char) : Bool :=
  c.isDigit || c == '+' || c == '-' || c == '.' || c == 'e' || c == 'E'

/-! ## Writing -/

def hexDigit (digit : Nat) : Char :=
  if digit < 10 then Char.ofNat (48 + digit) else Char.ofNat (87 + digit)

def unicodeEscape (unit : UInt16) : List Char :=
  let n := unit.toNat
  ['\\', 'u', hexDigit (n / 4096), hexDigit (n / 256 % 16), hexDigit (n / 16 % 16),
    hexDigit (n % 16)]

/-- The letter of a short escape. -/
def shortEscape (unit : UInt16) : Option Char :=
  if unit = 0x22 then some '"'
  else if unit = 0x5C then some '\\'
  else if unit = 0x08 then some 'b'
  else if unit = 0x0C then some 'f'
  else if unit = 0x0A then some 'n'
  else if unit = 0x0D then some 'r'
  else if unit = 0x09 then some 't'
  else none

/-- A unit that is not of a pair. -/
def escapeUnit (unit : UInt16) : List Char :=
  match shortEscape unit with
  | some letter => ['\\', letter]
  | none =>
    if unit.toNat < 0x20 || Utf16.isHigh unit || Utf16.isLow unit then unicodeEscape unit
    else [Char.ofNat unit.toNat]

/-- A code point: a surrogate without a partner is escaped. -/
def escapePoint : Units → List Char
  | [unit] => escapeUnit unit
  | point => Utf16.characters point

def escape (string : Units) : List Char := (Utf16.codePoints string).flatMap escapePoint

def quote (string : Units) : List Char := '"' :: escape string ++ ['"']

mutual

/-- `JSON.stringify` -/
@[grind] def stringify (numerals : Numerals ν) : Value ν → List Char
  | .null => "null".toList
  | .bool value => if value then "true".toList else "false".toList
  | .number value => numerals.text value
  | .string value => quote value
  | .array items => '[' :: stringifyItems numerals items ++ [']']
  | .object members => '\x7b' :: stringifyMembers numerals members ++ ['\x7d']

def stringifyItems (numerals : Numerals ν) : List (Value ν) → List Char
  | [] => []
  | item :: rest => stringify numerals item ++ stringifyMoreItems numerals rest

def stringifyMoreItems (numerals : Numerals ν) : List (Value ν) → List Char
  | [] => []
  | item :: rest => ',' :: stringify numerals item ++ stringifyMoreItems numerals rest

def stringifyMembers (numerals : Numerals ν) : List (Units × Value ν) → List Char
  | [] => []
  | (key, value) :: rest =>
    quote key ++ ':' :: stringify numerals value ++ stringifyMoreMembers numerals rest

def stringifyMoreMembers (numerals : Numerals ν) : List (Units × Value ν) → List Char
  | [] => []
  | (key, value) :: rest =>
    ',' :: quote key ++ ':' :: stringify numerals value ++ stringifyMoreMembers numerals rest

end

/-! ## Reading -/

def hexValue (c : Char) : Option Nat :=
  if c.isDigit then some (c.toNat - 48)
  else if 97 ≤ c.toNat ∧ c.toNat ≤ 102 then some (c.toNat - 87)
  else if 65 ≤ c.toNat ∧ c.toNat ≤ 70 then some (c.toNat - 55)
  else none

/-- The unit of a short escape. -/
def shortUnit (letter : Char) : Option UInt16 :=
  if letter = '"' then some 0x22
  else if letter = '\\' then some 0x5C
  else if letter = '/' then some 0x2F
  else if letter = 'b' then some 0x08
  else if letter = 'f' then some 0x0C
  else if letter = 'n' then some 0x0A
  else if letter = 'r' then some 0x0D
  else if letter = 't' then some 0x09
  else none

inductive StringMode where
  | plain
  | escaped
  | hex (left value : Nat)

def prepend (units : Units) (result : Option (Units × List Char)) : Option (Units × List Char) :=
  result.map fun read => (units ++ read.1, read.2)

/-- The rest of a string after its opening quotation mark, and what follows the closing one. -/
def readString : StringMode → List Char → Option (Units × List Char)
  | _, [] => none
  | .plain, c :: rest =>
    if c = '"' then some ([], rest)
    else if c = '\\' then readString .escaped rest
    else if c.toNat < 0x20 then none
    else prepend (Utf16.ofChar c) (readString .plain rest)
  | .escaped, c :: rest =>
    if c = 'u' then readString (.hex 3 0) rest
    else
      match shortUnit c with
      | some unit => prepend [unit] (readString .plain rest)
      | none => none
  | .hex left value, c :: rest =>
    match hexValue c with
    | none => none
    | some digit =>
      match left with
      | 0 => prepend [UInt16.ofNat (value * 16 + digit)] (readString .plain rest)
      | left + 1 => readString (.hex left (value * 16 + digit)) rest

def isBlank (c : Char) : Bool := c == ' ' || c == '\t' || c == '\n' || c == '\r'

def skip (text : List Char) : List Char := text.dropWhile isBlank

/-- A later member of the same key takes the place of the earlier value. -/
def collect (members : List (Units × Value ν)) : List (Units × Value ν) :=
  members.foldl (fun collected member => Dict.assign member.1 member.2 collected) []

def readNumber (numerals : Numerals ν) (text : List Char) : Option (Value ν × List Char) :=
  let numeral := text.takeWhile numeralChar
  if isNumeral numeral then some (.number (numerals.value numeral), text.dropWhile numeralChar)
  else none

def readWord (word : String) (value : Value ν) (text : List Char) : Option (Value ν × List Char) :=
  if word.toList <+: text then some (value, text.drop word.toList.length) else none

/-- The key of a member with its colon. -/
def readKey : List Char → Option (Units × List Char)
  | '"' :: rest =>
    match readString .plain rest with
    | none => none
    | some (key, rest) =>
      match skip rest with
      | ':' :: rest => some (key, rest)
      | _ => none
  | _ => none

mutual

def readValue (numerals : Numerals ν) : Nat → List Char → Option (Value ν × List Char)
  | 0, _ => none
  | fuel + 1, text =>
    match skip text with
    | [] => none
    | c :: rest =>
      if c = '"' then (readString .plain rest).map fun read => (.string read.1, read.2)
      else if c = '[' then
        match skip rest with
        | ']' :: rest => some (.array [], rest)
        | _ => (readItems numerals fuel rest).map fun read => (.array read.1, read.2)
      else if c = '\x7b' then
        match skip rest with
        | '\x7d' :: rest => some (.object [], rest)
        | _ => (readMembers numerals fuel rest).map fun read => (.object (collect read.1), read.2)
      else if c = 'n' then readWord "null" .null (c :: rest)
      else if c = 't' then readWord "true" (.bool true) (c :: rest)
      else if c = 'f' then readWord "false" (.bool false) (c :: rest)
      else readNumber numerals (c :: rest)

def readItems (numerals : Numerals ν) : Nat → List Char → Option (List (Value ν) × List Char)
  | 0, _ => none
  | fuel + 1, text =>
    match readValue numerals fuel text with
    | none => none
    | some (item, rest) =>
      match skip rest with
      | ',' :: rest =>
        (readItems numerals fuel rest).map fun read => (item :: read.1, read.2)
      | ']' :: rest => some ([item], rest)
      | _ => none

def readMembers (numerals : Numerals ν) :
    Nat → List Char → Option (List (Units × Value ν) × List Char)
  | 0, _ => none
  | fuel + 1, text =>
    match readKey (skip text) with
    | none => none
    | some (key, rest) =>
      match readValue numerals fuel rest with
      | none => none
      | some (value, rest) =>
        match skip rest with
        | ',' :: rest =>
          (readMembers numerals fuel rest).map fun read => ((key, value) :: read.1, read.2)
        | '\x7d' :: rest => some ([(key, value)], rest)
        | _ => none

end

/-- `JSON.parse` -/
def parse (numerals : Numerals ν) (text : List Char) : Option (Value ν) :=
  match readValue numerals (2 * text.length + 2) text with
  | some (value, rest) => if skip rest = [] then some value else none
  | none => none

mutual

/-- Each number is the one of its numeral. -/
def Value.reread (numerals : Numerals ν) : Value ν → Value ν
  | .null => .null
  | .bool value => .bool value
  | .number value => .number (numerals.value (numerals.text value))
  | .string value => .string value
  | .array items => .array (rereadItems numerals items)
  | .object members => .object (rereadMembers numerals members)

def rereadItems (numerals : Numerals ν) : List (Value ν) → List (Value ν)
  | [] => []
  | item :: rest => item.reread numerals :: rereadItems numerals rest

def rereadMembers (numerals : Numerals ν) : List (Units × Value ν) → List (Units × Value ν)
  | [] => []
  | (key, value) :: rest => (key, value.reread numerals) :: rereadMembers numerals rest

end

mutual

/-- The keys of an object are distinct, and numbers are printed as numerals. -/
def Value.Printable (numerals : Numerals ν) : Value ν → Prop
  | .null => True
  | .bool _ => True
  | .number value => isNumeral (numerals.text value) = true
  | .string _ => True
  | .array items => printableItems numerals items
  | .object members => (members.map Prod.fst).Nodup ∧ printableMembers numerals members

def printableItems (numerals : Numerals ν) : List (Value ν) → Prop
  | [] => True
  | item :: rest => item.Printable numerals ∧ printableItems numerals rest

def printableMembers (numerals : Numerals ν) : List (Units × Value ν) → Prop
  | [] => True
  | (_, value) :: rest => value.Printable numerals ∧ printableMembers numerals rest

end

/-! ## Strings are read back -/

theorem hexValue_hexDigit : ∀ digit < 16, hexValue (hexDigit digit) = some digit := by
  decide

variable {unit : UInt16}

theorem shortUnit_of_shortEscape {letter : Char}
    (h : shortEscape unit = some letter) : letter ≠ 'u' ∧ shortUnit letter = some unit := by
  unfold shortEscape at h
  split_ifs at h with h1 h2 h3 h4 h5 h6 h7
  all_goals
    cases h
    subst unit
    decide

theorem shortEscape_eq_none (h : shortEscape unit = none) :
    unit.toNat ≠ 0x22 ∧ unit.toNat ≠ 0x5C := by
  constructor
  · intro hunit
    rw [show unit = 0x22 from UInt16.toNat_inj.mp hunit] at h
    cases h
  · intro hunit
    rw [show unit = 0x5C from UInt16.toNat_inj.mp hunit] at h
    cases h

theorem readString_unicodeEscape (unit : UInt16) (rest : List Char) :
    readString .plain (unicodeEscape unit ++ rest) = prepend [unit] (readString .plain rest) := by
  have hlt := unit.toNat_lt
  have hunit : UInt16.ofNat ((((0 * 16 + unit.toNat / 4096) * 16 + unit.toNat / 256 % 16) * 16 +
      unit.toNat / 16 % 16) * 16 + unit.toNat % 16) = unit := by
    rw [show (((0 * 16 + unit.toNat / 4096) * 16 + unit.toNat / 256 % 16) * 16 +
      unit.toNat / 16 % 16) * 16 + unit.toNat % 16 = unit.toNat by omega]
    exact UInt16.ofNat_toNat
  have h1 := hexValue_hexDigit (unit.toNat / 4096) (by omega)
  have h2 := hexValue_hexDigit (unit.toNat / 256 % 16) (by omega)
  have h3 := hexValue_hexDigit (unit.toNat / 16 % 16) (by omega)
  have h4 := hexValue_hexDigit (unit.toNat % 16) (by omega)
  simp only [unicodeEscape, List.cons_append, List.nil_append]
  rw [readString, if_neg (by decide), if_pos rfl, readString, if_pos rfl]
  simp only [readString, h1, h2, h3, h4]
  rw [hunit]

variable {c : Char}

theorem readString_plain (hquote : c ≠ '"') (hslash : c ≠ '\\')
    (hcontrol : ¬c.toNat < 0x20) (rest : List Char) :
    readString .plain (c :: rest) = prepend (Utf16.ofChar c) (readString .plain rest) := by
  rw [readString, if_neg hquote, if_neg hslash, if_neg hcontrol]

theorem readString_escapeUnit (unit : UInt16) (rest : List Char) :
    readString .plain (escapeUnit unit ++ rest) = prepend [unit] (readString .plain rest) := by
  unfold escapeUnit
  cases hshort : shortEscape unit with
  | some letter =>
    obtain ⟨hletter, hunit⟩ := shortUnit_of_shortEscape hshort
    show readString .plain ('\\' :: letter :: rest) = _
    rw [readString, if_neg (by decide), if_pos rfl, readString, if_neg hletter, hunit]
  | none =>
    obtain ⟨hquote, hslash⟩ := shortEscape_eq_none hshort
    dsimp only
    split
    · exact readString_unicodeEscape unit rest
    · rename_i hplain
      simp only [Bool.or_eq_true, decide_eq_true_eq, not_or, Bool.not_eq_true] at hplain
      obtain ⟨⟨hcontrol, hhigh⟩, hlow⟩ := hplain
      obtain ⟨hvalue, hchar⟩ := Utf16.ofChar_single hhigh hlow
      rw [List.singleton_append, readString_plain _ _ (by omega), hchar]
      · intro h
        rw [h] at hvalue
        exact hquote hvalue.symm
      · intro h
        rw [h] at hvalue
        exact hslash hvalue.symm

theorem readString_escape (string : Units) (rest : List Char) :
    readString .plain (escape string ++ '"' :: rest) = some (string, rest) := by
  unfold escape
  induction string using Utf16.codePoints.induct with
  | case1 => rfl
  | case2 unit =>
    show readString .plain ((escapeUnit unit ++ []) ++ '"' :: rest) = _
    rw [List.append_nil, readString_escapeUnit]
    rfl
  | case3 unit next others hpair ih =>
    obtain ⟨hhigh, hlow⟩ := Bool.and_eq_true_iff.mp hpair
    obtain ⟨hvalue, hchar⟩ := Utf16.ofChar_pair hhigh hlow
    rw [Utf16.codePoints, if_pos hpair, List.flatMap_cons]
    have hpoint : escapePoint [unit, next] = [Utf16.pair unit next] := by
      show Utf16.characters [unit, next] = _
      rw [Utf16.characters, if_pos hhigh, if_pos hlow]
      rfl
    have hne : ∀ c : Char, c.toNat < 0x10000 → Utf16.pair unit next ≠ c := by
      intro c hc h
      rw [h] at hvalue
      omega
    rw [hpoint, List.append_assoc, List.singleton_append,
      readString_plain (hne _ (by decide)) (hne _ (by decide)) (by omega), ih, hchar]
    rfl
  | case4 unit next others hpair ih =>
    rw [Utf16.codePoints, if_neg hpair, List.flatMap_cons]
    show readString .plain ((escapeUnit unit ++ _) ++ '"' :: rest) = _
    rw [List.append_assoc, readString_escapeUnit, ih]
    rfl

theorem quote_append (string : Units) (rest : List Char) :
    quote string ++ rest = '"' :: (escape string ++ '"' :: rest) := by
  unfold quote
  rw [List.cons_append, List.cons_append, List.append_assoc]
  rfl

/-! ## The bytes of a string -/

/-- The bytes that a code point takes inside a string. -/
def pointBytes : Units → Nat
  | [unit] =>
    if (shortEscape unit).isSome then 2
    else if unit.toNat < 0x20 || Utf16.isHigh unit || Utf16.isLow unit then 6
    else if unit.toNat < 0x80 then 1
    else if unit.toNat < 0x800 then 2
    else 3
  | _ => 4

def escapedBytes (string : Units) : Nat := ((Utf16.codePoints string).map pointBytes).sum

variable {text : List Char}

theorem length_encode_ascii (h : ∀ c ∈ text, c.toNat < 0x80) :
    (Utf8.encode text).length = text.length := by
  induction text with
  | nil => rfl
  | cons c rest ih =>
    obtain ⟨hc, hrest⟩ := List.forall_mem_cons.mp h
    have hsize : c.utf8Size = 1 := by rw [Utf8.utf8Size_eq, if_pos (Nat.le_of_lt_succ hc)]
    rw [Utf8.encode_cons, List.length_append, String.length_utf8EncodeChar, hsize, ih hrest,
      List.length_cons, Nat.add_comm]

theorem hexDigit_ascii : ∀ digit < 16, (hexDigit digit).toNat < 0x80 := by
  decide

theorem bytes_unicodeEscape (unit : UInt16) : (Utf8.encode (unicodeEscape unit)).length = 6 := by
  have hlt := unit.toNat_lt
  apply length_encode_ascii
  unfold unicodeEscape
  simp only [List.forall_mem_cons]
  exact ⟨by decide, by decide, hexDigit_ascii _ (by omega), hexDigit_ascii _ (by omega),
    hexDigit_ascii _ (by omega), hexDigit_ascii _ (by omega), List.forall_mem_nil _⟩

theorem bytes_shortEscape {letter : Char} (h : shortEscape unit = some letter) :
    (Utf8.encode ['\\', letter]).length = 2 := by
  unfold shortEscape at h
  split_ifs at h
  all_goals
    cases h
    rfl

theorem bytes_character (h : c.toNat < 0x10000) :
    (Utf8.encode [c]).length = if c.toNat < 0x80 then 1 else if c.toNat < 0x800 then 2 else 3 := by
  rw [Utf8.encode_cons, List.length_append, String.length_utf8EncodeChar]
  show c.utf8Size + 0 = _
  rw [Utf8.utf8Size_eq]
  split_ifs <;> omega

theorem bytes_escapeUnit (unit : UInt16) :
    (Utf8.encode (escapeUnit unit)).length = pointBytes [unit] := by
  unfold escapeUnit pointBytes
  cases hshort : shortEscape unit with
  | some letter =>
    dsimp only
    rw [hshort, Option.isSome_some, if_pos rfl]
    exact bytes_shortEscape hshort
  | none =>
    dsimp only
    rw [hshort, Option.isSome_none, if_neg Bool.false_ne_true]
    split
    · exact bytes_unicodeEscape unit
    · rename_i hplain
      simp only [Bool.or_eq_true, not_or, Bool.not_eq_true] at hplain
      obtain ⟨⟨-, hhigh⟩, hlow⟩ := hplain
      have hlt := unit.toNat_lt
      have hvalue := (Utf16.ofChar_single hhigh hlow).1
      rw [bytes_character (by omega), hvalue]

theorem bytes_pair {high low : UInt16} (hhigh : Utf16.isHigh high = true)
    (hlow : Utf16.isLow low = true) : (Utf8.encode (escapePoint [high, low])).length = 4 := by
  have hvalue := (Utf16.ofChar_pair hhigh hlow).1
  show (Utf8.encode (Utf16.characters [high, low])).length = 4
  rw [Utf16.characters, if_pos hhigh, if_pos hlow, Utf8.encode_cons, List.length_append,
    String.length_utf8EncodeChar]
  show (Utf16.pair high low).utf8Size + 0 = 4
  rw [Utf8.utf8Size_eq, if_neg (by omega), if_neg (by omega), if_neg (by omega)]

theorem bytes_escape (string : Units) :
    (Utf8.encode (escape string)).length = escapedBytes string := by
  unfold escape escapedBytes
  induction string using Utf16.codePoints.induct with
  | case1 => rfl
  | case2 unit =>
    show (Utf8.encode (escapeUnit unit ++ [])).length = pointBytes [unit] + 0
    rw [List.append_nil, bytes_escapeUnit]
    rfl
  | case3 unit next others hpair ih =>
    obtain ⟨hhigh, hlow⟩ := Bool.and_eq_true_iff.mp hpair
    rw [Utf16.codePoints, if_pos hpair, List.flatMap_cons, List.map_cons, List.sum_cons,
      Utf8.encode_append, List.length_append, ih, bytes_pair hhigh hlow]
    rfl
  | case4 unit next others hpair ih =>
    rw [Utf16.codePoints, if_neg hpair, List.flatMap_cons, List.map_cons, List.sum_cons,
      Utf8.encode_append, List.length_append, ih]
    show (Utf8.encode (escapeUnit unit)).length + _ = _
    rw [bytes_escapeUnit]

theorem escapedBytes_cons (h : Utf16.isHigh unit = false) (rest : Units) :
    escapedBytes (unit :: rest) = pointBytes [unit] + escapedBytes rest := by
  unfold escapedBytes
  cases rest with
  | nil => rfl
  | cons next others =>
    rw [Utf16.codePoints, h, Bool.false_and, if_neg Bool.false_ne_true]
    rfl

theorem escapedBytes_replicate (h : Utf16.isHigh unit = false) (count : Nat) :
    escapedBytes (List.replicate count unit) = count * pointBytes [unit] := by
  induction count with
  | zero => exact (Nat.zero_mul _).symm
  | succ count ih =>
    rw [List.replicate_succ, escapedBytes_cons h, ih, Nat.succ_mul, Nat.add_comm]

/-- Units that stand for themselves in one byte. -/
def plainUnit (unit : UInt16) : Bool :=
  decide (0x20 ≤ unit.toNat) && decide (unit.toNat < 0x80) && decide (unit.toNat ≠ 0x22) &&
    decide (unit.toNat ≠ 0x5C)

theorem pointBytes_plain (h : plainUnit unit = true) : pointBytes [unit] = 1 := by
  unfold plainUnit at h
  simp only [Bool.and_eq_true, decide_eq_true_eq] at h
  obtain ⟨⟨⟨hlow, hhigh⟩, hquote⟩, hslash⟩ := h
  have hcontrol : ∀ other : UInt16, other.toNat < 0x20 → unit ≠ other := by
    rintro other hother rfl
    omega
  have hshort : shortEscape unit = none := by
    unfold shortEscape
    rw [if_neg, if_neg, if_neg (hcontrol 0x08 (by decide)), if_neg (hcontrol 0x0C (by decide)),
      if_neg (hcontrol 0x0A (by decide)), if_neg (hcontrol 0x0D (by decide)),
      if_neg (hcontrol 0x09 (by decide))]
    · rintro rfl
      exact hslash rfl
    · rintro rfl
      exact hquote rfl
  have hsurrogate : Utf16.isHigh unit = false ∧ Utf16.isLow unit = false := by
    rw [← Bool.not_eq_true, ← Bool.not_eq_true, Utf16.isHigh_iff, Utf16.isLow_iff]
    omega
  show (if (shortEscape unit).isSome then 2 else _) = 1
  rw [hshort, hsurrogate.1, hsurrogate.2, Option.isSome_none, if_neg Bool.false_ne_true,
    if_neg (by simpa using hlow), if_pos hhigh]

theorem escapedBytes_plain {string : Units} (h : ∀ unit ∈ string, plainUnit unit = true) :
    escapedBytes string = string.length := by
  unfold escapedBytes
  induction string using Utf16.codePoints.induct with
  | case1 => rfl
  | case2 unit => exact pointBytes_plain (h unit List.mem_cons_self)
  | case3 unit next others hpair ih =>
    -- a high surrogate is not plain
    have hplain := h unit List.mem_cons_self
    unfold plainUnit at hplain
    simp only [Bool.and_eq_true, decide_eq_true_eq] at hplain
    rw [Bool.and_eq_true, Utf16.isHigh_iff] at hpair
    omega
  | case4 unit next others hpair ih =>
    obtain ⟨hunit, hrest⟩ := List.forall_mem_cons.mp h
    rw [Utf16.codePoints, if_neg hpair, List.map_cons, List.sum_cons, ih hrest,
      pointBytes_plain hunit, List.length_cons (a := unit), Nat.add_comm]

/-! ## Numbers are read back -/

/-- No numeral goes on with this text. -/
def Ends (text : List Char) : Prop := ∀ c rest, text = c :: rest → numeralChar c = false

theorem Ends.cons (h : numeralChar c = false) (rest : List Char) : Ends (c :: rest) := by
  intro d others heq
  cases heq
  exact h

theorem numeralChar_of_next {state after : NumeralState} (h : state.next c = some after) :
    numeralChar c = true := by
  have hzero : c = '0' → c.isDigit = true := by
    rintro rfl
    rfl
  unfold numeralChar
  cases state <;> grind [NumeralState.next]

theorem numeralChar_of_isNumeralFrom {state : NumeralState}
    (h : isNumeralFrom state text = true) : ∀ c ∈ text, numeralChar c = true := by
  induction text generalizing state with
  | nil => exact List.forall_mem_nil _
  | cons c rest ih =>
    rw [isNumeralFrom] at h
    cases hnext : state.next c with
    | none =>
      rw [hnext] at h
      cases h
    | some after =>
      rw [hnext] at h
      exact List.forall_mem_cons.mpr ⟨numeralChar_of_next hnext, ih h⟩

theorem isNumeral_start (h : isNumeral text = true) :
    ∃ c rest, text = c :: rest ∧ (c = '-' ∨ c.isDigit = true) := by
  cases text with
  | nil => cases h
  | cons c rest =>
    refine ⟨c, rest, rfl, ?_⟩
    unfold isNumeral isNumeralFrom NumeralState.next at h
    dsimp only at h
    by_cases hminus : c = '-'
    · exact Or.inl hminus
    · rw [if_neg hminus] at h
      by_cases hzero : c = '0'
      · exact Or.inr (hzero ▸ rfl)
      · rw [if_neg hzero] at h
        by_cases hdigit : c.isDigit = true
        · exact Or.inr hdigit
        · rw [if_neg hdigit] at h
          cases h

theorem takeWhile_ends (h : Ends text) : text.takeWhile numeralChar = [] := by
  cases text with
  | nil => rfl
  | cons c rest => rw [List.takeWhile_cons, h c rest rfl, if_neg Bool.false_ne_true]

theorem dropWhile_ends (h : Ends text) : text.dropWhile numeralChar = text := by
  cases text with
  | nil => rfl
  | cons c rest => rw [List.dropWhile_cons, h c rest rfl, if_neg Bool.false_ne_true]

theorem readNumber_numeral (numerals : Numerals ν) {numeral rest : List Char}
    (h : isNumeral numeral = true) (hends : Ends rest) :
    readNumber numerals (numeral ++ rest) = some (.number (numerals.value numeral), rest) := by
  have hall := numeralChar_of_isNumeralFrom h
  unfold readNumber
  dsimp only
  rw [List.takeWhile_append_of_pos hall, List.dropWhile_append_of_pos hall, takeWhile_ends hends,
    dropWhile_ends hends, List.append_nil, if_pos h]

/-! ## Values are read back -/

/-- A character that a value starts with. -/
def Opens (c : Char) : Prop := isBlank c = false ∧ c ≠ ']' ∧ c ≠ '\x7d'

theorem opens_numeral (h : c = '-' ∨ c.isDigit = true) :
    Opens c ∧ c ≠ '"' ∧ c ≠ '[' ∧ c ≠ '\x7b' ∧ c ≠ 'n' ∧ c ≠ 't' ∧ c ≠ 'f' := by
  have hne : ∀ d : Char, d ≠ '-' → d.isDigit = false → c ≠ d := by
    rintro d hminus hdigit rfl
    obtain h | h := h
    · exact hminus h
    · rw [h] at hdigit
      cases hdigit
  have hblank : isBlank c = false := by
    unfold isBlank
    simp only [Bool.or_eq_false_iff, beq_eq_false_iff_ne]
    exact ⟨⟨⟨hne _ (by decide) (by decide), hne _ (by decide) (by decide)⟩,
      hne _ (by decide) (by decide)⟩, hne _ (by decide) (by decide)⟩
  exact ⟨⟨hblank, hne _ (by decide) (by decide), hne _ (by decide) (by decide)⟩,
    hne _ (by decide) (by decide), hne _ (by decide) (by decide), hne _ (by decide) (by decide),
    hne _ (by decide) (by decide), hne _ (by decide) (by decide), hne _ (by decide) (by decide)⟩

theorem skip_cons (h : isBlank c = false) (rest : List Char) :
    skip (c :: rest) = c :: rest := by
  unfold skip
  rw [List.dropWhile_cons, h, if_neg Bool.false_ne_true]

variable {numerals : Numerals ν}

theorem stringify_opens {value : Value ν} (h : value.Printable numerals) :
    ∃ c rest, stringify numerals value = c :: rest ∧ Opens c := by
  cases value with
  | null => exact ⟨'n', _, rfl, by decide, by decide, by decide⟩
  | bool value =>
    cases value with
    | true => exact ⟨'t', _, rfl, by decide, by decide, by decide⟩
    | false => exact ⟨'f', _, rfl, by decide, by decide, by decide⟩
  | number value =>
    obtain ⟨c, rest, htext, hstart⟩ := isNumeral_start h
    exact ⟨c, rest, htext, (opens_numeral hstart).1⟩
  | string value => exact ⟨'"', _, rfl, by decide, by decide, by decide⟩
  | array items => exact ⟨'[', _, rfl, by decide, by decide, by decide⟩
  | object members => exact ⟨'\x7b', _, rfl, by decide, by decide, by decide⟩

theorem readValue_word (fuel : Nat) {word : String} {value : Value ν}
    {c : Char} {letters : List Char} (hword : word.toList = c :: letters)
    (hread : ∀ text, readValue numerals (fuel + 1) (c :: text) = readWord word value (c :: text))
    (rest : List Char) : readValue numerals (fuel + 1) (word.toList ++ rest) = some (value, rest) := by
  rw [hword, List.cons_append, hread, ← List.cons_append, ← hword]
  unfold readWord
  rw [if_pos (List.prefix_append _ _), List.drop_left]

theorem stringify_fuel {value : Value ν} {fuel : Nat}
    (h : value.Printable numerals) (hfuel : 2 * (stringify numerals value).length ≤ fuel) :
    ∃ rest, fuel = rest + 1 := by
  obtain ⟨c, letters, htext, -⟩ := stringify_opens h
  rw [htext, List.length_cons] at hfuel
  exact Nat.exists_eq_add_of_le' (show 1 ≤ fuel by omega)

theorem stringify_array (numerals : Numerals ν) (items : List (Value ν)) (rest : List Char) :
    stringify numerals (.array items) ++ rest =
      '[' :: (stringifyItems numerals items ++ ']' :: rest) := by
  rw [stringify, List.cons_append, List.cons_append, List.append_assoc]
  rfl

theorem stringify_object (numerals : Numerals ν) (members : List (Units × Value ν))
    (rest : List Char) :
    stringify numerals (.object members) ++ rest =
      '\x7b' :: (stringifyMembers numerals members ++ '\x7d' :: rest) := by
  rw [stringify, List.cons_append, List.cons_append, List.append_assoc]
  rfl

theorem stringifyMoreItems_cons (numerals : Numerals ν) (item : Value ν) (items : List (Value ν)) :
    stringifyMoreItems numerals (item :: items) =
      ',' :: stringifyItems numerals (item :: items) := rfl

theorem stringifyMoreMembers_cons (numerals : Numerals ν) (member : Units × Value ν)
    (members : List (Units × Value ν)) :
    stringifyMoreMembers numerals (member :: members) =
      ',' :: stringifyMembers numerals (member :: members) := rfl

theorem stringifyMembers_cons (numerals : Numerals ν) (key : Units) (value : Value ν)
    (members : List (Units × Value ν)) (rest : List Char) :
    stringifyMembers numerals ((key, value) :: members) ++ rest =
      '"' :: (escape key ++ '"' :: ':' :: (stringify numerals value ++
        (stringifyMoreMembers numerals members ++ rest))) := by
  rw [stringifyMembers, List.append_assoc, List.append_assoc, List.cons_append, quote_append]

theorem ends_moreItems (numerals : Numerals ν) (items : List (Value ν)) (rest : List Char) :
    Ends (stringifyMoreItems numerals items ++ ']' :: rest) := by
  cases items with
  | nil => exact Ends.cons (by decide) _
  | cons item items =>
    rw [stringifyMoreItems]
    exact Ends.cons (by decide) _

theorem ends_moreMembers (numerals : Numerals ν) (members : List (Units × Value ν))
    (rest : List Char) : Ends (stringifyMoreMembers numerals members ++ '\x7d' :: rest) := by
  cases members with
  | nil => exact Ends.cons (by decide) _
  | cons member members =>
    rw [stringifyMoreMembers]
    exact Ends.cons (by decide) _

theorem readKey_quoted (key : Units) (rest : List Char) :
    readKey ('"' :: (escape key ++ '"' :: ':' :: rest)) = some (key, rest) := by
  rw [readKey, readString_escape]
  rfl

theorem rereadMembers_keys (numerals : Numerals ν) (members : List (Units × Value ν)) :
    (rereadMembers numerals members).map Prod.fst = members.map Prod.fst := by
  induction members with
  | nil => rfl
  | cons member members ih =>
    rw [rereadMembers, List.map_cons, List.map_cons, ih]

theorem collect_append (collected members : List (Units × Value ν))
    (h : ((collected ++ members).map Prod.fst).Nodup) :
    members.foldl (fun collected member => Dict.assign member.1 member.2 collected) collected =
      collected ++ members := by
  induction members generalizing collected with
  | nil => exact (List.append_nil _).symm
  | cons member members ih =>
    have hnew : member.1 ∉ collected.map Prod.fst := by
      rw [List.map_append, List.nodup_append] at h
      intro hmem
      exact h.2.2 _ hmem _ List.mem_cons_self rfl
    rw [List.foldl_cons, Dict.assign_of_not_mem _ hnew, ih]
    · rw [List.append_assoc]
      rfl
    · rwa [List.append_assoc]

theorem collect_nodup {members : List (Units × Value ν)} (h : (members.map Prod.fst).Nodup) :
    collect members = members :=
  collect_append [] members h

mutual

theorem readValue_stringify (numerals : Numerals ν) : (value : Value ν) → ∀ (fuel : Nat)
    (rest : List Char), value.Printable numerals → Ends rest →
    2 * (stringify numerals value).length ≤ fuel →
    readValue numerals fuel (stringify numerals value ++ rest) =
      some (value.reread numerals, rest)
  | .null, fuel, rest, hvalue, _, hfuel => by
    obtain ⟨fuel, rfl⟩ := stringify_fuel hvalue hfuel
    exact readValue_word fuel rfl (fun _ => rfl) rest
  | .bool true, fuel, rest, hvalue, _, hfuel => by
    obtain ⟨fuel, rfl⟩ := stringify_fuel hvalue hfuel
    exact readValue_word fuel rfl (fun _ => rfl) rest
  | .bool false, fuel, rest, hvalue, _, hfuel => by
    obtain ⟨fuel, rfl⟩ := stringify_fuel hvalue hfuel
    exact readValue_word fuel rfl (fun _ => rfl) rest
  | .number value, fuel, rest, hvalue, hends, hfuel => by
    obtain ⟨fuel, rfl⟩ := stringify_fuel hvalue hfuel
    have hnumeral : isNumeral (numerals.text value) = true := hvalue
    have hread := readNumber_numeral numerals hnumeral hends
    obtain ⟨c, letters, htext, hstart⟩ := isNumeral_start hnumeral
    obtain ⟨⟨hblank, _⟩, hquote, hlist, hobject, hnull, htrue, hfalse⟩ := opens_numeral hstart
    rw [htext] at hread
    rw [stringify, Value.reread, htext, List.cons_append, readValue, skip_cons hblank]
    dsimp only
    rw [if_neg hquote, if_neg hlist, if_neg hobject, if_neg hnull, if_neg htrue, if_neg hfalse]
    exact hread
  | .string value, fuel, rest, hvalue, _, hfuel => by
    obtain ⟨fuel, rfl⟩ := stringify_fuel hvalue hfuel
    rw [stringify, quote_append, readValue, skip_cons (by decide)]
    dsimp only
    rw [if_pos rfl, readString_escape]
    rfl
  | .array [], fuel, rest, hvalue, _, hfuel => by
    obtain ⟨fuel, rfl⟩ := stringify_fuel hvalue hfuel
    rfl
  | .array (item :: items), fuel, rest, hvalue, _, hfuel => by
    obtain ⟨fuel, rfl⟩ := stringify_fuel hvalue hfuel
    have hitems : printableItems numerals (item :: items) := hvalue
    rw [stringify, List.length_append, List.length_cons, List.length_singleton] at hfuel
    have hread := readItems_stringify numerals item items fuel rest hitems (by omega)
    obtain ⟨c, letters, htext, hblank, hclose, _⟩ := stringify_opens hitems.1
    rw [stringify_array, readValue, skip_cons (by decide)]
    dsimp only
    rw [if_neg (by decide), if_pos rfl]
    have hopen : skip (stringifyItems numerals (item :: items) ++ ']' :: rest) =
        c :: (letters ++ stringifyMoreItems numerals items ++ ']' :: rest) := by
      rw [stringifyItems, htext, List.cons_append, List.cons_append, skip_cons hblank]
    -- the first item is no closing bracket
    rw [hopen]
    split
    · rename_i heq
      cases heq
      exact absurd rfl hclose
    · rw [hread]
      rfl
  | .object [], fuel, rest, hvalue, _, hfuel => by
    obtain ⟨fuel, rfl⟩ := stringify_fuel hvalue hfuel
    rfl
  | .object (member :: members), fuel, rest, hvalue, _, hfuel => by
    obtain ⟨fuel, rfl⟩ := stringify_fuel hvalue hfuel
    obtain ⟨hnodup, hmembers⟩ : ((member :: members).map Prod.fst).Nodup ∧
      printableMembers numerals (member :: members) := hvalue
    rw [stringify, List.length_append, List.length_cons, List.length_singleton] at hfuel
    have hread := readMembers_stringify numerals member members fuel rest hmembers (by omega)
    rw [stringify_object, readValue, skip_cons (by decide)]
    dsimp only
    rw [if_neg (by decide), if_neg (by decide), if_pos rfl, hread]
    rw [stringifyMembers_cons, skip_cons (by decide)]
    show some (Value.object (collect _), rest) = _
    rw [collect_nodup]
    · rfl
    · rwa [rereadMembers_keys]

theorem readItems_stringify (numerals : Numerals ν) : (item : Value ν) → (items : List (Value ν)) →
    ∀ (fuel : Nat) (rest : List Char), printableItems numerals (item :: items) →
    2 * (stringifyItems numerals (item :: items)).length + 1 ≤ fuel →
    readItems numerals fuel (stringifyItems numerals (item :: items) ++ ']' :: rest) =
      some (rereadItems numerals (item :: items), rest)
  | item, items, fuel, rest, hitems, hfuel => by
    obtain ⟨hitem, hmore⟩ : item.Printable numerals ∧ printableItems numerals items := hitems
    obtain ⟨fuel, rfl⟩ := Nat.exists_eq_add_of_le' (show 1 ≤ fuel by omega)
    rw [stringifyItems, List.length_append] at hfuel
    have hread := readValue_stringify numerals item fuel
      (stringifyMoreItems numerals items ++ ']' :: rest) hitem (ends_moreItems numerals items rest)
      (by omega)
    rw [stringifyItems, List.append_assoc, readItems, hread]
    cases items with
    | nil => rfl
    | cons next items =>
      rw [stringifyMoreItems_cons, List.length_cons] at hfuel
      have hnext := readItems_stringify numerals next items fuel rest hmore (by omega)
      rw [stringifyMoreItems_cons, List.cons_append]
      dsimp only
      rw [skip_cons (by decide)]
      show (readItems numerals fuel _).map _ = _
      rw [hnext]
      rfl

theorem readMembers_stringify (numerals : Numerals ν) : (member : Units × Value ν) →
    (members : List (Units × Value ν)) → ∀ (fuel : Nat) (rest : List Char),
    printableMembers numerals (member :: members) →
    2 * (stringifyMembers numerals (member :: members)).length + 1 ≤ fuel →
    readMembers numerals fuel (stringifyMembers numerals (member :: members) ++ '\x7d' :: rest) =
      some (rereadMembers numerals (member :: members), rest)
  | (key, value), members, fuel, rest, hmembers, hfuel => by
    obtain ⟨hvalue, hmore⟩ : value.Printable numerals ∧ printableMembers numerals members :=
      hmembers
    obtain ⟨fuel, rfl⟩ := Nat.exists_eq_add_of_le' (show 1 ≤ fuel by omega)
    rw [stringifyMembers, List.length_append, List.length_append, List.length_cons] at hfuel
    have hread := readValue_stringify numerals value fuel
      (stringifyMoreMembers numerals members ++ '\x7d' :: rest) hvalue
      (ends_moreMembers numerals members rest) (by omega)
    rw [stringifyMembers_cons, readMembers, skip_cons (by decide), readKey_quoted]
    dsimp only
    rw [hread]
    cases members with
    | nil => rfl
    | cons next members =>
      rw [stringifyMoreMembers_cons, List.length_cons] at hfuel
      have hnext := readMembers_stringify numerals next members fuel rest hmore (by omega)
      rw [stringifyMoreMembers_cons, List.cons_append]
      dsimp only
      rw [skip_cons (by decide)]
      show (readMembers numerals fuel _).map _ = _
      rw [hnext]
      rfl

end

theorem parse_stringify (numerals : Numerals ν) {value : Value ν} (h : value.Printable numerals) :
    parse numerals (stringify numerals value) = some (value.reread numerals) := by
  have hends : Ends [] := by
    intro c rest heq
    cases heq
  have hread := readValue_stringify numerals value (2 * (stringify numerals value).length + 2) []
    h hends (by omega)
  rw [List.append_nil] at hread
  unfold parse
  rw [hread]
  rfl

end HarnessControl.Library.JsonText
