import HarnessControl.Library.JsonEquality

/-!
# JSON Schema

What the keywords of a schema ask of a value.  A keyword asks nothing of values of another type than
its own, lengths are counted in code points, and numbers are exact.
-/

namespace HarnessControl.Library.JsonSchema

open JsonText

abbrev Members := List (Units × Value ℚ)

def keyword (schema : Members) (name : String) : Option (Value ℚ) :=
  schema.lookup (Utf16.text name)

/-- The length of a string in code points. -/
def codePointCount (string : Units) : Nat := (Utf16.codePoints string).length

def HasType (type : Units) : Value ℚ → Prop
  | .null => type = Utf16.text "null"
  | .bool _ => type = Utf16.text "boolean"
  | .number n => type = Utf16.text "number" ∨ type = Utf16.text "integer" ∧ n.isInt = true
  | .string _ => type = Utf16.text "string"
  | .array _ => type = Utf16.text "array"
  | .object _ => type = Utf16.text "object"

/-- What a schema without subschemas asks of a value. -/
structure Meets (schema : Members) (value : Value ℚ) : Prop where
  type : ∀ type, keyword schema "type" = some (.string type) → HasType type value
  enum : ∀ values, keyword schema "enum" = some (.array values) →
    ∃ other ∈ values, deepEqual other value = true
  minLength : ∀ bound string, keyword schema "minLength" = some (.number bound) →
    value = .string string → bound ≤ codePointCount string
  maxLength : ∀ bound string, keyword schema "maxLength" = some (.number bound) →
    value = .string string → (codePointCount string : ℚ) ≤ bound
  minimum : ∀ bound number, keyword schema "minimum" = some (.number bound) →
    value = .number number → bound ≤ number
  maximum : ∀ bound number, keyword schema "maximum" = some (.number bound) →
    value = .number number → number ≤ bound

/-- What the schema of an object without additional properties asks of a value. -/
structure Conforms (schema : Members) (value : Value ℚ) : Prop where
  type : ∀ type, keyword schema "type" = some (.string type) → HasType type value
  required : ∀ names members, keyword schema "required" = some (.array names) →
    value = .object members → ∀ name, Value.string name ∈ names → name ∈ members.map Prod.fst
  properties : ∀ properties members, keyword schema "properties" = some (.object properties) →
    value = .object members → ∀ member ∈ members, ∃ field,
      properties.lookup member.1 = some (.object field) ∧ Meets field member.2

end HarnessControl.Library.JsonSchema
