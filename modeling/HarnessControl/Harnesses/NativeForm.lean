import HarnessControl.Library.Fallible
import HarnessControl.Library.JsonSchema

/-!
# Forms of a native harness

A harness asks for the fields of a form by a small part of JSON Schema.  The schema is checked, and
becomes a validator of the answer.
-/

namespace HarnessControl.Harnesses

open HarnessControl.Library HarnessControl.Library.JsonText HarnessControl.Library.JsonSchema

/-! ## Reading a schema -/

inductive FieldType where
  | string
  | number
  | integer
  | boolean
deriving DecidableEq

def FieldType.name : FieldType → String
  | .string => "string"
  | .number => "number"
  | .integer => "integer"
  | .boolean => "boolean"

def readFieldType : Value ℚ → Option FieldType
  | .string name =>
    [FieldType.string, .number, .integer, .boolean].find? fun type => Utf16.text type.name == name
  | _ => none

/-- `z.string().max(limit)` -/
def readText (limit : Nat) : Value ℚ → Option Units
  | .string text => if text.length ≤ limit then some text else none
  | _ => none

/-- `z.number().finite()` -/
def readNumber : Value ℚ → Option ℚ
  | .number number => some number
  | _ => none

/-- `z.number().int().nonnegative().max(8192)` -/
def readLength : Value ℚ → Option Nat
  | .number number =>
    if number.isInt = true ∧ 0 ≤ number ∧ number ≤ 8192 then some number.num.toNat else none
  | _ => none

/-- A string of up to 8192 units, a number or a boolean. -/
def isChoice : Value ℚ → Bool
  | .string text => decide (text.length ≤ 8192)
  | .number _ => true
  | .bool _ => true
  | _ => false

def readChoices : Value ℚ → Option (List (Value ℚ))
  | .array values =>
    if values.all isChoice = true ∧ 1 ≤ values.length ∧ values.length ≤ 64 then some values
    else none
  | _ => none

/-- A field that may be left out. -/
def optional {α : Type} (members : Members) (key : String) (read : Value ℚ → Option α) :
    Option (Option α) :=
  match keyword members key with
  | none => some none
  | some value => (read value).map some

/-- The own members that a record or a strict object reads: zod skips an own `__proto__`. -/
def withoutProto (members : Members) : Members :=
  members.filter fun member => member.1 != Utf16.text "__proto__"

def onlyKeys (members : Members) (keys : List String) : Bool :=
  (withoutProto members).all fun member => keys.any fun key => Utf16.text key == member.1

structure Property where
  type : FieldType
  enum : Option (List (Value ℚ))
  minLength : Option Nat
  maxLength : Option Nat
  minimum : Option ℚ
  maximum : Option ℚ

def propertySchema : Value ℚ → Option Property
  | .object members =>
    if onlyKeys members ["type", "title", "description", "enum", "minLength", "maxLength",
        "minimum", "maximum"] = true then do
      let type ← (keyword members "type").bind readFieldType
      let _ ← optional members "title" (readText 512)
      let _ ← optional members "description" (readText 8192)
      let enum ← optional members "enum" readChoices
      let minLength ← optional members "minLength" readLength
      let maxLength ← optional members "maxLength" readLength
      let minimum ← optional members "minimum" readNumber
      let maximum ← optional members "maximum" readNumber
      some { type, enum, minLength, maxLength, minimum, maximum }
    else none
  | _ => none

def readProperty (member : Units × Value ℚ) : Option (Units × Property) :=
  if 1 ≤ member.1.length ∧ member.1.length ≤ 128 then
    (propertySchema member.2).map fun property => (member.1, property)
  else none

/-- `z.record(z.string().min(1).max(128), property)` -/
def readProperties : Value ℚ → Option (List (Units × Property))
  | .object members => (withoutProto members).mapM readProperty
  | _ => none

/-- `z.array(z.string()).max(32)` -/
def readNames : Value ℚ → Option (List Units)
  | .array values =>
    if values.length ≤ 32 then
      values.mapM fun value =>
        match value with
        | .string name => some name
        | _ => none
    else none
  | _ => none

def readLiteral (literal : Value ℚ) (value : Value ℚ) : Option Unit :=
  if deepEqual literal value then some () else none

structure FormSource where
  properties : List (Units × Property)
  required : Option (List Units)

def sourceSchema : Value ℚ → Option FormSource
  | .object members =>
    if onlyKeys members ["type", "properties", "required", "additionalProperties", "title",
        "description"] = true then do
      let _ ← (keyword members "type").bind (readLiteral (.string (Utf16.text "object")))
      let properties ← (keyword members "properties").bind readProperties
      let required ← optional members "required" readNames
      let _ ← optional members "additionalProperties" (readLiteral (.bool false))
      let _ ← optional members "title" (readText 512)
      let _ ← optional members "description" (readText 8192)
      some { properties, required }
    else none
  | _ => none

/-! ## Validators -/

def maxSafeInteger : ℚ := 9007199254740991

inductive BaseSchema where
  | string (minLength maxLength : Nat)
  | boolean
  /-- `z.number()`, of safe integers where it is `int()`. -/
  | number (int : Bool) (minimum maximum : Option ℚ)

/-- `safeParse(value).success`. -/
def BaseSchema.accepts : BaseSchema → Value ℚ → Bool
  | .string minLength maxLength, .string text =>
    decide (minLength ≤ text.length) && decide (text.length ≤ maxLength)
  | .boolean, .bool _ => true
  | .number int minimum maximum, .number n =>
    (!int || (n.isInt && decide (-maxSafeInteger ≤ n) && decide (n ≤ maxSafeInteger))) &&
      minimum.all (fun bound => decide (bound ≤ n)) &&
      maximum.all (fun bound => decide (n ≤ bound))
  | _, _ => false

structure FieldSchema where
  base : BaseSchema
  /-- The union of the literals of an enumeration. -/
  enum : Option (List (Value ℚ))

def FieldSchema.accepts (field : FieldSchema) (value : Value ℚ) : Bool :=
  field.base.accepts value &&
    field.enum.all fun values => values.any fun literal => deepEqual literal value

def baseSchema (field : Property) : Except String BaseSchema :=
  match field.type with
  | .string =>
    if field.minimum.isSome ∨ field.maximum.isSome ∨
        field.maxLength.getD 8192 < field.minLength.getD 0 then
      .error "Invalid native string constraints."
    else .ok (.string (field.minLength.getD 0) (field.maxLength.getD 8192))
  | .boolean =>
    if field.minLength.isSome ∨ field.maxLength.isSome ∨ field.minimum.isSome ∨
        field.maximum.isSome then
      .error "Invalid native boolean constraints."
    else .ok .boolean
  | type =>
    if field.minLength.isSome ∨ field.maxLength.isSome ∨
        (field.minimum.any fun low =>
          field.maximum.any fun high => decide (high < low)) = true then
      .error "Invalid native numeric constraints."
    else .ok (.number (type == .integer) field.minimum field.maximum)

def fieldSchema (field : Property) : Except String FieldSchema :=
  (baseSchema field).bind fun base =>
    if (field.enum.any fun values => values.any fun value => !base.accepts value) = true then
      .error "Invalid native form enumeration."
    else .ok ⟨base, field.enum⟩

structure FormField where
  name : Units
  schema : FieldSchema
  required : Bool

def formFields (source : FormSource) : List (Units × Property) → Except String (List FormField)
  | [] => .ok []
  | (name, property) :: rest =>
    (fieldSchema property).bind fun schema =>
      (formFields source rest).map fun fields =>
        ⟨name, schema, source.required.any fun names => names.contains name⟩ :: fields

def nativeFormSchema (numerals : Numerals ℚ) (input : Value ℚ) : Except String (List FormField) :=
  if 32 * 1024 < (Utf8.encode (stringify numerals input)).length then
    .error "Native form schema exceeds its transport limit."
  else
    match sourceSchema input with
    | none => .error "invalid schema"
    | some source =>
      let names := source.properties.map Prod.fst
      let required := source.required.getD []
      if names = [] ∨ 32 < names.length ∨
          (names.any fun name =>
            ["__proto__", "constructor", "prototype"].any fun reserved =>
              Utf16.text reserved == name) = true ∨
          required.eraseDups.length ≠ required.length ∨
          (required.any fun name => !names.contains name) = true then
        .error "Unsupported native form fields."
      else formFields source source.properties

/-- The names that every object inherits, of functions but for `__proto__`. -/
def inherited (name : Units) : Bool :=
  ["__defineGetter__", "__defineSetter__", "__lookupGetter__", "__lookupSetter__", "__proto__",
    "constructor", "hasOwnProperty", "isPrototypeOf", "propertyIsEnumerable", "toLocaleString",
    "toString", "valueOf"].any fun other => Utf16.text other == name

/-- `z.object(fields).strict().safeParse(value).success`.  A field that is left out is read as what
the answer inherits under its name. -/
def formAccepts (fields : List FormField) : Value ℚ → Bool
  | .object members =>
    (fields.all fun field =>
      match members.lookup field.name with
      | some value => field.schema.accepts value
      | none => !field.required && !inherited field.name) &&
    (withoutProto members).all fun member => fields.any fun field => field.name == member.1
  | _ => false

end HarnessControl.Harnesses
