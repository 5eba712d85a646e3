import HarnessControl.Library.Replacement
import HarnessControl.LocalActions.UnifiedDiff

/-!
# Redaction

Values of the MCP client are redacted before they are logged or shown: what stands under a sensitive
key, and the credentials in strings.  Strings are read as UTF-16 units; the patterns ignore the case
of ASCII letters.
-/

namespace HarnessControl.Mcp

open HarnessControl.Library HarnessControl.LocalActions

abbrev Text := List UInt16

/-- `REDACTED`. -/
def redacted : Text := Utf16.text "[redacted]"

/-! ## Units -/

def isUpper (unit : UInt16) : Bool := decide (0x41 ≤ unit.toNat) && decide (unit.toNat ≤ 0x5A)

def isLower (unit : UInt16) : Bool := decide (0x61 ≤ unit.toNat) && decide (unit.toNat ≤ 0x7A)

def isLetter (unit : UInt16) : Bool := isUpper unit || isLower unit

def lower (unit : UInt16) : UInt16 := if isUpper unit then unit + 0x20 else unit

/-- `\w`. -/
def isWord (unit : UInt16) : Bool := isLetter unit || isDigit unit || unit == 0x5F

/-- `[A-Za-z0-9._~+/=-]`. -/
def isToken (unit : UInt16) : Bool :=
  isLetter unit || isDigit unit || (Utf16.text "._~+/=-").contains unit

/-- `[^&\s]`. -/
def isValue (unit : UInt16) : Bool := unit != 0x26 && !isWhitespace unit

/-- `[-_.]`. -/
def isKeySeparator (unit : UInt16) : Bool := (Utf16.text "-_.").contains unit

/-! ## Patterns -/

/-- The keyword at the front of a text, as the text writes it. -/
def keywordAt (keywords : List String) (text : Text) : Option Text :=
  (keywords.find? fun keyword =>
    (text.take (Utf16.text keyword).length).map lower == Utf16.text keyword).map
      fun keyword => text.take (Utf16.text keyword).length

def authSchemes : List String := ["bearer", "basic"]

/-- `AUTH_VALUE_PATTERN`, which is replaced by its scheme, a space and `REDACTED`. -/
def authValuePattern : Pattern UInt16 := fun before text =>
  -- the word boundary before a letter
  if before.any isWord then none
  else
    (keywordAt authSchemes text).bind fun scheme =>
      let rest := text.drop scheme.length
      let blank := rest.takeWhile isWhitespace
      let credential := (rest.drop blank.length).takeWhile isToken
      if blank = [] ∨ credential = [] then none
      else some ⟨scheme ++ Utf16.text " " ++ redacted,
        scheme.length + blank.length + credential.length⟩

def assignedNames : List String :=
  ["token=", "access_token=", "refresh_token=", "api_key=", "apikey=", "secret=", "password="]

/-- `ASSIGNMENT_VALUE_PATTERN`, which is replaced by its name, `=` and `REDACTED`. -/
def assignmentValuePattern : Pattern UInt16 := fun before text =>
  if before.any isWord then none
  else
    (keywordAt assignedNames text).bind fun name =>
      let credential := (text.drop name.length).takeWhile isValue
      if credential = [] then none
      else some ⟨name ++ redacted, name.length + credential.length⟩

def redactString (value : Text) : Text :=
  assignmentValuePattern.replaceAll none (authValuePattern.replaceAll none value)

/-! ## Keys -/

def sensitiveWords : List String :=
  ["authorization", "cookie", "token", "accesstoken", "access-token", "access_token",
    "access.token", "refreshtoken", "refresh-token", "refresh_token", "refresh.token", "apikey",
    "api-key", "api_key", "api.key", "secret", "password", "passwd", "credential", "session"]

/-- A sensitive word that a separator or the end of the key follows. -/
def sensitiveAt (key : Text) : Bool :=
  sensitiveWords.any fun word =>
    (key.take (Utf16.text word).length).map lower == Utf16.text word &&
      (key.drop (Utf16.text word).length).head?.all isKeySeparator

def sensitiveFrom (before : Option UInt16) : Text → Bool
  | [] => false
  | unit :: rest =>
    before.all isKeySeparator && sensitiveAt (unit :: rest) || sensitiveFrom (some unit) rest

/-- `SENSITIVE_KEY_PATTERN.test(key)`. -/
def isSensitiveKey (key : Text) : Bool := sensitiveFrom none key

/-! ## Values -/

mutual

/-- A JSON value; `α` are the values that are no strings, arrays or records. -/
inductive Value (α : Type) where
  | other (value : α)
  | string (text : Text)
  | array (items : Values α)
  | record (fields : Fields α)

inductive Values (α : Type) where
  | nil
  | cons (item : Value α) (rest : Values α)

/-- The own entries of a record. -/
inductive Fields (α : Type) where
  | nil
  | cons (key : Text) (value : Value α) (rest : Fields α)

end

def protoKey : Text := Utf16.text "__proto__"

variable {α : Type}

mutual

def redactValue : Value α → Value α
  | .other value => .other value
  | .string text => .string (redactString text)
  | .array items => .array (redactItems items)
  | .record fields => .record (redactFields fields)

def redactItems : Values α → Values α
  | .nil => .nil
  | .cons item rest => .cons (redactValue item) (redactItems rest)

def redactFields : Fields α → Fields α
  | .nil => .nil
  | .cons key value rest =>
    if key = protoKey then redactFields rest
    else
      .cons key (if isSensitiveKey key then .string redacted else redactValue value)
        (redactFields rest)

end

end HarnessControl.Mcp
