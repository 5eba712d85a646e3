import HarnessControl.Harnesses.NativeForm

/-!
# Forms and their schemas

The validator of a form against its schema read as JSON Schema.  Beyond the schema, the validator
bounds strings without a maximal length and asks for safe integers.
-/

namespace HarnessControl.Harnesses

open HarnessControl.Library HarnessControl.Library.JsonText HarnessControl.Library.JsonSchema

/-! ## What a schema that was read holds -/

variable {members : Members}

theorem optional_embed {α : Type} {key : String} {read : Value ℚ → Option α}
    {embed : α → Value ℚ} {result : Option α}
    (hread : ∀ value field, read value = some field → value = embed field)
    (h : optional members key read = some result) : keyword members key = result.map embed := by
  unfold optional at h
  cases hkeyword : keyword members key with
  | none =>
    rw [hkeyword] at h
    rw [← Option.some.inj h]
    rfl
  | some value =>
    rw [hkeyword] at h
    obtain ⟨field, hfield, rfl⟩ := Option.map_eq_some_iff.mp h
    rw [hread value field hfield]
    rfl

theorem optional_some {α : Type} {key : String} {read : Value ℚ → Option α}
    {field : α} (h : optional members key read = some (some field)) :
    ∃ value, read value = some field := by
  unfold optional at h
  cases hkeyword : keyword members key with
  | none =>
    rw [hkeyword] at h
    exact nomatch h
  | some value =>
    rw [hkeyword] at h
    obtain ⟨_, hfield, heq⟩ := Option.map_eq_some_iff.mp h
    exact ⟨value, Option.some.inj heq ▸ hfield⟩

variable {value : Value ℚ}

theorem readFieldType_some {type : FieldType}
    (h : readFieldType value = some type) : value = .string (Utf16.text type.name) := by
  match value, h with
  | .string name, h =>
    have hname := List.find?_some h
    rw [eq_of_beq hname]

theorem readNumber_some (value : Value ℚ) (number : ℚ) (h : readNumber value = some number) :
    value = .number number := by
  match value, h with
  | .number n, h =>
    rw [Option.some.inj h]

theorem readLength_some (value : Value ℚ) (length : Nat) (h : readLength value = some length) :
    value = .number length := by
  match value, h with
  | .number number, h =>
    simp only [readLength] at h
    by_cases hcheck : number.isInt = true ∧ 0 ≤ number ∧ number ≤ 8192
    · rw [if_pos hcheck] at h
      have hnum : ((number.num : ℤ) : ℚ) = number :=
        Rat.coe_int_num_of_den_eq_one (eq_of_beq hcheck.1)
      have hnonneg : 0 ≤ number.num := Rat.num_nonneg.mpr hcheck.2.1
      rw [← Option.some.inj h]
      congr 1
      rw [← hnum]
      exact_mod_cast congrArg (Int.cast (R := ℚ)) (Int.toNat_of_nonneg hnonneg).symm
    · rw [if_neg hcheck] at h
      exact nomatch h

theorem readChoices_some (value : Value ℚ) (values : List (Value ℚ))
    (h : readChoices value = some values) :
    value = .array values ∧ values.all isChoice = true := by
  match value, h with
  | .array items, h =>
    simp only [readChoices] at h
    by_cases hcheck : items.all isChoice = true ∧ 1 ≤ items.length ∧ items.length ≤ 64
    · rw [if_pos hcheck] at h
      rw [← Option.some.inj h]
      exact ⟨rfl, hcheck.1⟩
    · rw [if_neg hcheck] at h
      exact nomatch h

/-- The schema a property was read from. -/
structure Requested (members : Members) (property : Property) : Prop where
  type : keyword members "type" = some (.string (Utf16.text property.type.name))
  enum : keyword members "enum" = property.enum.map .array
  choices : ∀ values, property.enum = some values → values.all isChoice = true
  minLength : keyword members "minLength" = property.minLength.map fun bound => .number bound
  maxLength : keyword members "maxLength" = property.maxLength.map fun bound => .number bound
  minimum : keyword members "minimum" = property.minimum.map .number
  maximum : keyword members "maximum" = property.maximum.map .number

variable {property : Property}

theorem propertySchema_some (h : propertySchema value = some property) :
    ∃ members, value = .object members ∧ Requested members property := by
  match value, h with
  | .object members, h =>
    simp only [propertySchema] at h
    by_cases hkeys : onlyKeys members ["type", "title", "description", "enum", "minLength",
        "maxLength", "minimum", "maximum"] = true
    · rw [if_pos hkeys] at h
      simp only [Option.bind_eq_bind, Option.bind_eq_some_iff] at h
      obtain ⟨type, ⟨name, hname, htype⟩, _, _, _, _, enum, henum, minLength, hminLength,
        maxLength, hmaxLength, minimum, hminimum, maximum, hmaximum, h⟩ := h
      rw [← Option.some.inj h]
      exact ⟨members, rfl, {
        type := readFieldType_some htype ▸ hname
        enum := optional_embed (fun value values h => (readChoices_some value values h).1) henum
        choices := by
          intro values heq
          obtain rfl : enum = some values := heq
          obtain ⟨value, hvalue⟩ := optional_some henum
          exact (readChoices_some value values hvalue).2
        minLength := optional_embed readLength_some hminLength
        maxLength := optional_embed readLength_some hmaxLength
        minimum := optional_embed readNumber_some hminimum
        maximum := optional_embed readNumber_some hmaximum }⟩
    · rw [if_neg hkeys] at h
      exact nomatch h

/-! ## A field -/

def leastLength (schema : Members) : ℚ :=
  match keyword schema "minLength" with
  | some (.number bound) => bound
  | _ => 0

def greatestLength (schema : Members) : ℚ :=
  match keyword schema "maxLength" with
  | some (.number bound) => bound
  | _ => 8192

/-- The bounds of a string answer the same for its units as for its code points. -/
structure LengthsAgree (schema : Members) (string : Units) : Prop where
  least : leastLength schema ≤ string.length ↔ leastLength schema ≤ codePointCount string
  greatest : string.length ≤ greatestLength schema ↔ codePointCount string ≤ greatestLength schema

/-- What the validator of a field asks beyond its schema. -/
structure Bounded (schema : Members) (value : Value ℚ) : Prop where
  length : ∀ string, keyword schema "maxLength" = none → value = .string string →
    codePointCount string ≤ 8192
  integer : ∀ n, keyword schema "type" = some (.string (Utf16.text "integer")) →
    value = .number n → -maxSafeInteger ≤ n ∧ n ≤ maxSafeInteger

theorem leastLength_eq (h : Requested members property) :
    leastLength members = (property.minLength.getD 0 : Nat) := by
  unfold leastLength
  rw [h.minLength]
  cases property.minLength <;> rfl

theorem greatestLength_eq (h : Requested members property) :
    greatestLength members = (property.maxLength.getD 8192 : Nat) := by
  unfold greatestLength
  rw [h.maxLength]
  cases property.maxLength <;> rfl

theorem meets_iff (h : Requested members property)
    (value : Value ℚ) :
    Meets members value ↔ HasType (Utf16.text property.type.name) value ∧
      (∀ values, property.enum = some values → ∃ other ∈ values, deepEqual other value = true) ∧
      (∀ bound string, property.minLength = some bound → value = .string string →
        bound ≤ codePointCount string) ∧
      (∀ bound string, property.maxLength = some bound → value = .string string →
        codePointCount string ≤ bound) ∧
      (∀ bound n, property.minimum = some bound → value = .number n → bound ≤ n) ∧
      (∀ bound n, property.maximum = some bound → value = .number n → n ≤ bound) := by
  constructor
  · intro hmeets
    refine ⟨hmeets.type _ h.type, ?_, ?_, ?_, ?_, ?_⟩
    · intro values henum
      exact hmeets.enum values (by rw [h.enum, henum]; rfl)
    · intro bound string hbound hvalue
      exact_mod_cast hmeets.minLength bound string (by rw [h.minLength, hbound]; rfl) hvalue
    · intro bound string hbound hvalue
      exact_mod_cast hmeets.maxLength bound string (by rw [h.maxLength, hbound]; rfl) hvalue
    · intro bound n hbound hvalue
      exact hmeets.minimum bound n (by rw [h.minimum, hbound]; rfl) hvalue
    · intro bound n hbound hvalue
      exact hmeets.maximum bound n (by rw [h.maximum, hbound]; rfl) hvalue
  · rintro ⟨htype, henum, hminLength, hmaxLength, hminimum, hmaximum⟩
    exact {
      type := by
        intro type hkeyword
        rw [h.type] at hkeyword
        cases hkeyword
        exact htype
      enum := by
        intro values hkeyword
        rw [h.enum] at hkeyword
        obtain ⟨_, hvalues, heq⟩ := Option.map_eq_some_iff.mp hkeyword
        cases heq
        exact henum values hvalues
      minLength := by
        intro bound string hkeyword hvalue
        rw [h.minLength] at hkeyword
        obtain ⟨length, hlength, heq⟩ := Option.map_eq_some_iff.mp hkeyword
        cases heq
        exact_mod_cast hminLength length string hlength hvalue
      maxLength := by
        intro bound string hkeyword hvalue
        rw [h.maxLength] at hkeyword
        obtain ⟨length, hlength, heq⟩ := Option.map_eq_some_iff.mp hkeyword
        cases heq
        exact_mod_cast hmaxLength length string hlength hvalue
      minimum := by
        intro bound n hkeyword hvalue
        rw [h.minimum] at hkeyword
        obtain ⟨_, hbound, heq⟩ := Option.map_eq_some_iff.mp hkeyword
        cases heq
        exact hminimum bound n hbound hvalue
      maximum := by
        intro bound n hkeyword hvalue
        rw [h.maximum] at hkeyword
        obtain ⟨_, hbound, heq⟩ := Option.map_eq_some_iff.mp hkeyword
        cases heq
        exact hmaximum bound n hbound hvalue }

theorem hasType_object (value : Value ℚ) :
    HasType (Utf16.text "object") value ↔ ∃ members, value = .object members := by
  cases value with
  | object members => exact ⟨fun _ => ⟨members, rfl⟩, fun _ => rfl⟩
  | number n =>
    refine ⟨fun h => ?_, fun ⟨_, h⟩ => nomatch h⟩
    obtain h | h := h
    · exact absurd h (by decide)
    · exact absurd h.1 (by decide)
  | _ =>
    refine ⟨fun h => ?_, fun ⟨_, h⟩ => nomatch h⟩
    simp only [HasType] at h
    exact absurd h (by decide)

theorem hasType_string (value : Value ℚ) :
    HasType (Utf16.text "string") value ↔ ∃ string, value = .string string := by
  cases value with
  | string string => exact ⟨fun _ => ⟨string, rfl⟩, fun _ => rfl⟩
  | number n =>
    refine ⟨fun h => ?_, fun ⟨_, h⟩ => nomatch h⟩
    obtain h | h := h
    · exact absurd h (by decide)
    · exact absurd h.1 (by decide)
  | _ =>
    refine ⟨fun h => ?_, fun ⟨_, h⟩ => nomatch h⟩
    simp only [HasType] at h
    exact absurd h (by decide)

theorem hasType_boolean (value : Value ℚ) :
    HasType (Utf16.text "boolean") value ↔ ∃ bool, value = .bool bool := by
  cases value with
  | bool bool => exact ⟨fun _ => ⟨bool, rfl⟩, fun _ => rfl⟩
  | number n =>
    refine ⟨fun h => ?_, fun ⟨_, h⟩ => nomatch h⟩
    obtain h | h := h
    · exact absurd h (by decide)
    · exact absurd h.1 (by decide)
  | _ =>
    refine ⟨fun h => ?_, fun ⟨_, h⟩ => nomatch h⟩
    simp only [HasType] at h
    exact absurd h (by decide)

theorem hasType_number (value : Value ℚ) :
    HasType (Utf16.text "number") value ↔ ∃ n, value = .number n := by
  cases value with
  | number n => exact ⟨fun _ => ⟨n, rfl⟩, fun _ => .inl rfl⟩
  | _ =>
    refine ⟨fun h => ?_, fun ⟨_, h⟩ => nomatch h⟩
    simp only [HasType] at h
    exact absurd h (by decide)

theorem hasType_integer (value : Value ℚ) :
    HasType (Utf16.text "integer") value ↔ ∃ n, value = .number n ∧ n.isInt = true := by
  cases value with
  | number n =>
    constructor
    · intro h
      obtain h | h := h
      · exact absurd h (by decide)
      · exact ⟨n, rfl, h.2⟩
    · rintro ⟨_, heq, hint⟩
      cases heq
      exact .inr ⟨rfl, hint⟩
  | _ =>
    refine ⟨fun h => ?_, fun ⟨_, h, _⟩ => nomatch h⟩
    simp only [HasType] at h
    exact absurd h (by decide)

/-- What a schema asks of a value besides its enumeration. -/
def MeetsBase (property : Property) (value : Value ℚ) : Prop :=
  HasType (Utf16.text property.type.name) value ∧
    (∀ bound string, property.minLength = some bound → value = .string string →
      bound ≤ codePointCount string) ∧
    (∀ bound string, property.maxLength = some bound → value = .string string →
      codePointCount string ≤ bound) ∧
    (∀ bound n, property.minimum = some bound → value = .number n → bound ≤ n) ∧
    (∀ bound n, property.maximum = some bound → value = .number n → n ≤ bound)

variable {base : BaseSchema}

theorem base_string (h : Requested members property) (htype : property.type = .string)
    (hbase : baseSchema property = .ok base)
    (hlengths : ∀ string, value = .string string → LengthsAgree members string) :
    base.accepts value = true ↔ MeetsBase property value ∧ Bounded members value := by
  unfold baseSchema at hbase
  rw [htype] at hbase
  obtain ⟨hcheck, hbase⟩ := ite_error_ok.mp hbase
  cases hbase
  have hkeyword := h.type
  unfold MeetsBase
  rw [htype] at hkeyword ⊢
  rw [FieldType.name, hasType_string]
  cases value with
  | string string =>
    have hagree := hlengths string rfl
    have hleast := hagree.least
    have hgreatest := hagree.greatest
    rw [leastLength_eq h, Nat.cast_le, Nat.cast_le] at hleast
    rw [greatestLength_eq h, Nat.cast_le, Nat.cast_le] at hgreatest
    rw [BaseSchema.accepts, Bool.and_eq_true, decide_eq_true_iff, decide_eq_true_iff, hleast,
      hgreatest]
    constructor
    · rintro ⟨hlow, hhigh⟩
      refine ⟨⟨⟨string, rfl⟩, ?_, ?_, (fun _ _ _ hvalue => nomatch hvalue),
        (fun _ _ _ hvalue => nomatch hvalue)⟩, ?_, (fun _ _ hvalue => nomatch hvalue)⟩
      · intro bound _ hbound hvalue
        cases hvalue
        rwa [hbound] at hlow
      · intro bound _ hbound hvalue
        cases hvalue
        rwa [hbound] at hhigh
      · intro _ hnone hvalue
        cases hvalue
        rw [h.maxLength] at hnone
        rwa [Option.map_eq_none_iff.mp hnone] at hhigh
    · rintro ⟨⟨_, hmin, hmax, _⟩, hbounded⟩
      constructor
      · cases hbound : property.minLength with
        | none => exact Nat.zero_le _
        | some bound => exact hmin bound string hbound rfl
      · cases hbound : property.maxLength with
        | none =>
          exact hbounded.length string (by rw [h.maxLength, hbound]; rfl) rfl
        | some bound => exact hmax bound string hbound rfl
  | _ => exact ⟨(fun haccepts => nomatch haccepts), fun ⟨⟨⟨_, hvalue⟩, _⟩, _⟩ => nomatch hvalue⟩

theorem base_boolean (htype : property.type = .boolean)
    (hbase : baseSchema property = .ok base) :
    base.accepts value = true ↔ MeetsBase property value ∧ Bounded members value := by
  unfold baseSchema at hbase
  rw [htype] at hbase
  obtain ⟨hcheck, hbase⟩ := ite_error_ok.mp hbase
  cases hbase
  unfold MeetsBase
  rw [htype, FieldType.name, hasType_boolean]
  cases value with
  | bool bool =>
    refine ⟨fun _ => ⟨⟨⟨bool, rfl⟩, ?_⟩, ?_⟩, fun _ => rfl⟩
    · exact ⟨(fun _ _ _ hvalue => nomatch hvalue), (fun _ _ _ hvalue => nomatch hvalue),
        (fun _ _ _ hvalue => nomatch hvalue), (fun _ _ _ hvalue => nomatch hvalue)⟩
    · exact ⟨(fun _ _ hvalue => nomatch hvalue), (fun _ _ hvalue => nomatch hvalue)⟩
  | _ => exact ⟨(fun haccepts => nomatch haccepts), fun ⟨⟨⟨_, hvalue⟩, _⟩, _⟩ => nomatch hvalue⟩

theorem all_iff {α : Type} {option : Option α} {test : α → Bool} :
    option.all test = true ↔ ∀ value, option = some value → test value = true := by
  cases option with
  | none => exact ⟨(fun _ _ h => nomatch h), fun _ => rfl⟩
  | some value => exact ⟨fun h _ heq => Option.some.inj heq ▸ h, fun h => h value rfl⟩

theorem accepts_number {integer : Bool} {minimum maximum : Option ℚ} :
    (BaseSchema.number integer minimum maximum).accepts value = true ↔
      ∃ n, value = .number n ∧
        (integer = true → n.isInt = true ∧ -maxSafeInteger ≤ n ∧ n ≤ maxSafeInteger) ∧
        (∀ bound, minimum = some bound → bound ≤ n) ∧
        (∀ bound, maximum = some bound → n ≤ bound) := by
  cases value with
  | number n =>
    rw [BaseSchema.accepts, Bool.and_eq_true, Bool.and_eq_true, all_iff, all_iff]
    cases integer <;> simp [and_assoc]
  | _ => exact ⟨(fun h => nomatch h), fun ⟨_, h, _⟩ => nomatch h⟩

theorem base_number
    (h : Requested members property) (htype : property.type = .number ∨ property.type = .integer)
    (hbase : baseSchema property = .ok base) :
    base.accepts value = true ↔ MeetsBase property value ∧ Bounded members value := by
  have hok : (property.minLength = none ∧ property.maxLength = none) ∧
      base = .number (property.type == .integer) property.minimum property.maximum := by
    unfold baseSchema at hbase
    obtain htype | htype := htype <;>
    · rw [htype] at hbase ⊢
      obtain ⟨hcheck, hbase⟩ := ite_error_ok.mp hbase
      cases hbase
      rw [not_or, not_or] at hcheck
      exact ⟨⟨Option.not_isSome_iff_eq_none.mp hcheck.1,
        Option.not_isSome_iff_eq_none.mp hcheck.2.1⟩, rfl⟩
  have hsome : HasType (Utf16.text property.type.name) value ↔
      ∃ n, value = .number n ∧ (property.type = .integer → n.isInt = true) := by
    obtain htype | htype := htype
    · rw [htype, FieldType.name, hasType_number]
      exact ⟨fun ⟨n, hn⟩ => ⟨n, hn, (fun h => nomatch h)⟩, fun ⟨n, hn, _⟩ => ⟨n, hn⟩⟩
    · rw [htype, FieldType.name, hasType_integer]
      exact ⟨fun ⟨n, hn, hint⟩ => ⟨n, hn, fun _ => hint⟩, fun ⟨n, hn, hint⟩ => ⟨n, hn, hint rfl⟩⟩
  have hinteger : keyword members "type" = some (.string (Utf16.text "integer")) ↔
      property.type = .integer := by
    rw [h.type]
    obtain htype | htype := htype
    · rw [htype]
      have hne : Utf16.text FieldType.number.name ≠ Utf16.text "integer" := by decide
      exact ⟨fun heq => absurd (Value.string.inj (Option.some.inj heq)) hne, fun heq => nomatch heq⟩
    · rw [htype]
      exact ⟨fun _ => rfl, fun _ => rfl⟩
  rw [hok.2, accepts_number]
  unfold MeetsBase
  rw [hsome]
  constructor
  · rintro ⟨n, rfl, hint, hmin, hmax⟩
    refine ⟨⟨⟨n, rfl, fun heq => (hint (by rw [heq]; rfl)).1⟩, (fun _ _ _ hvalue => nomatch hvalue),
      (fun _ _ _ hvalue => nomatch hvalue), ?_, ?_⟩, (fun _ _ hvalue => nomatch hvalue), ?_⟩
    · intro bound _ hbound hvalue
      cases hvalue
      exact hmin bound hbound
    · intro bound _ hbound hvalue
      cases hvalue
      exact hmax bound hbound
    · intro _ hkeyword hvalue
      cases hvalue
      exact (hint (by rw [hinteger.mp hkeyword]; rfl)).2
  · rintro ⟨⟨⟨n, rfl, hint⟩, _, _, hmin, hmax⟩, hbounded⟩
    refine ⟨n, rfl, ?_, fun bound hbound => hmin bound n hbound rfl,
      fun bound hbound => hmax bound n hbound rfl⟩
    intro heq
    have heq := eq_of_beq heq
    exact ⟨hint heq, hbounded.integer n (hinteger.mpr heq) rfl⟩

theorem base_agrees (h : Requested members property) (hbase : baseSchema property = .ok base)
    (hlengths : ∀ string, value = .string string → LengthsAgree members string) :
    base.accepts value = true ↔ MeetsBase property value ∧ Bounded members value := by
  cases htype : property.type with
  | string => exact base_string h htype hbase hlengths
  | boolean => exact base_boolean htype hbase
  | number => exact base_number h (.inl htype) hbase
  | integer => exact base_number h (.inr htype) hbase

theorem fieldSchema_ok {schema : FieldSchema}
    (h : fieldSchema property = .ok schema) :
    baseSchema property = .ok schema.base ∧ schema.enum = property.enum ∧
      ∀ values, property.enum = some values →
        ∀ value ∈ values, schema.base.accepts value = true := by
  obtain ⟨base, hbase, h⟩ := bind_ok.mp h
  obtain ⟨hcheck, h⟩ := ite_error_ok.mp h
  cases h
  refine ⟨hbase, rfl, ?_⟩
  intro values henum value hin
  rw [henum, Option.any_some, Bool.not_eq_true, List.any_eq_false] at hcheck
  simpa using hcheck value hin

theorem field_agrees {schema : FieldSchema} (h : Requested members property)
    (hschema : fieldSchema property = .ok schema)
    (hlengths : ∀ string, value = .string string → LengthsAgree members string) :
    schema.accepts value = true ↔ Meets members value ∧ Bounded members value := by
  obtain ⟨hbase, henum, _⟩ := fieldSchema_ok hschema
  rw [FieldSchema.accepts, Bool.and_eq_true, base_agrees h hbase hlengths, meets_iff h, henum,
    all_iff]
  simp only [List.any_eq_true]
  unfold MeetsBase
  exact ⟨fun ⟨⟨⟨htype, hrest⟩, hbounded⟩, hvalues⟩ => ⟨⟨htype, hvalues, hrest⟩, hbounded⟩,
    fun ⟨⟨htype, hvalues, hrest⟩, hbounded⟩ => ⟨⟨⟨htype, hrest⟩, hbounded⟩, hvalues⟩⟩

theorem deepEqual_choice (h : isChoice value = true) :
    deepEqual value value = true := by
  match value, h with
  | .string _, _ => simp [deepEqual]
  | .number _, _ => simp [deepEqual]
  | .bool _, _ => simp [deepEqual]

theorem choice_accepted {schema : FieldSchema}
    (h : Requested members property) (hschema : fieldSchema property = .ok schema)
    {values : List (Value ℚ)} (hvalues : property.enum = some values) {value : Value ℚ}
    (hin : value ∈ values) : schema.accepts value = true := by
  obtain ⟨_, henum, haccepts⟩ := fieldSchema_ok hschema
  have hchoice := List.all_eq_true.mp (h.choices values hvalues) value hin
  rw [FieldSchema.accepts, Bool.and_eq_true, henum, hvalues, Option.all_some]
  exact ⟨haccepts values hvalues value hin,
    List.any_eq_true.mpr ⟨value, hin, deepEqual_choice hchoice⟩⟩

/-! ## A form -/

/-- The field of a form that a member of the properties declares. -/
structure Declares (required : List Units) (member : Units × Value ℚ) (field : FormField) :
    Prop where
  name : field.name = member.1
  schema : ∃ members property, member.2 = .object members ∧ Requested members property ∧
    fieldSchema property = .ok field.schema
  required : field.required = required.contains field.name

theorem readProperty_some {member : Units × Value ℚ} {entry : Units × Property}
    (h : readProperty member = some entry) :
    entry.1 = member.1 ∧ propertySchema member.2 = some entry.2 := by
  unfold readProperty at h
  by_cases hlength : 1 ≤ member.1.length ∧ member.1.length ≤ 128
  · rw [if_pos hlength] at h
    obtain ⟨property, hproperty, rfl⟩ := Option.map_eq_some_iff.mp h
    exact ⟨rfl, hproperty⟩
  · rw [if_neg hlength] at h
    exact nomatch h

theorem readProperties_names {properties : List (Units × Property)}
    (h : members.mapM readProperty = some properties) :
    properties.map Prod.fst = members.map Prod.fst := by
  induction members generalizing properties with
  | nil =>
    cases h
    rfl
  | cons member rest ih =>
    simp only [List.mapM_cons, Option.bind_eq_bind, Option.bind_eq_some_iff] at h
    obtain ⟨_, hread, others, hothers, heq⟩ := h
    cases heq
    rw [List.map_cons, List.map_cons, ih hothers, (readProperty_some hread).1]

theorem formFields_declared {source : FormSource} {required : List Units}
    (hrequired : ∀ name, (source.required.any fun names => names.contains name) =
      required.contains name)
    {members : Members} {properties : List (Units × Property)} {form : List FormField}
    (hproperties : members.mapM readProperty = some properties)
    (hform : formFields source properties = .ok form) :
    List.Forall₂ (Declares required) members form := by
  induction members generalizing properties form with
  | nil =>
    cases hproperties
    cases hform
    exact .nil
  | cons member rest ih =>
    simp only [List.mapM_cons, Option.bind_eq_bind, Option.bind_eq_some_iff] at hproperties
    obtain ⟨⟨name, property⟩, hread, others, hothers, heq⟩ := hproperties
    cases heq
    obtain ⟨hname, hproperty⟩ := readProperty_some hread
    obtain ⟨schema, hschema, hrest⟩ := bind_ok.mp hform
    obtain ⟨fields, hfields, rfl⟩ := map_ok.mp hrest
    obtain ⟨field, hfield, hrequested⟩ := propertySchema_some hproperty
    refine .cons ?_ (ih hothers hfields)
    exact {
      name := hname
      schema := ⟨field, property, hfield, hrequested, hschema⟩
      required := hrequired name }

theorem names_of_mapM {values : List (Value ℚ)} {names : List Units}
    (h : (values.mapM fun value =>
      match value with
      | .string name => some name
      | _ => none) = some names) : values = names.map .string := by
  induction values generalizing names with
  | nil =>
    cases h
    rfl
  | cons value rest ih =>
    simp only [List.mapM_cons, Option.bind_eq_bind, Option.bind_eq_some_iff] at h
    obtain ⟨name, hname, others, hothers, heq⟩ := h
    cases heq
    cases value with
    | string string =>
      rw [← Option.some.inj hname, ih hothers]
      rfl
    | _ => exact nomatch hname

theorem readNames_some (value : Value ℚ) (names : List Units) (h : readNames value = some names) :
    value = .array (names.map .string) := by
  match value, h with
  | .array values, h =>
    simp only [readNames] at h
    by_cases hlength : values.length ≤ 32
    · rw [if_pos hlength] at h
      rw [names_of_mapM h]
    · rw [if_neg hlength] at h
      exact nomatch h

theorem readLiteral_string {text : Units} {result : Unit}
    (h : readLiteral (.string text) value = some result) : value = .string text := by
  unfold readLiteral at h
  by_cases heq : deepEqual (.string text) value = true
  · cases value with
    | string string => rw [eq_of_beq heq]
    | _ => exact nomatch heq
  · rw [if_neg heq] at h
    exact nomatch h

structure Accepted (schema : Members) (form : List FormField) : Prop where
  type : keyword schema "type" = some (.string (Utf16.text "object"))
  declared : ∃ (properties : Members) (required : Option (List Units)),
    keyword schema "properties" = some (.object properties) ∧
    keyword schema "required" = (required.map fun names => .array (names.map .string)) ∧
    List.Forall₂ (Declares (required.getD [])) (withoutProto properties) form ∧
    ∀ name ∈ required.getD [], name ∈ (withoutProto properties).map Prod.fst

theorem nativeFormSchema_ok {numerals : Numerals ℚ} {input : Value ℚ} {form : List FormField}
    (h : nativeFormSchema numerals input = .ok form) :
    ∃ schema, input = .object schema ∧ Accepted schema form := by
  unfold nativeFormSchema at h
  obtain ⟨_, h⟩ := ite_error_ok.mp h
  cases hsource : sourceSchema input with
  | none =>
    rw [hsource] at h
    exact nomatch h
  | some source =>
    rw [hsource] at h
    obtain ⟨hchecks, hform⟩ := ite_error_ok.mp h
    match input, hsource with
    | .object schema, hsource =>
      simp only [sourceSchema] at hsource
      by_cases hkeys : onlyKeys schema ["type", "properties", "required", "additionalProperties",
          "title", "description"] = true
      · rw [if_pos hkeys] at hsource
        simp only [Option.bind_eq_bind, Option.bind_eq_some_iff] at hsource
        obtain ⟨_, ⟨type, htype, hliteral⟩, properties, ⟨value, hkeyword, hread⟩, required,
          hrequired, _, _, _, _, _, _, heq⟩ := hsource
        cases heq
        rw [not_or, not_or, not_or, not_or] at hchecks
        have hnames := hchecks.2.2.2.2
        have hproperties : ∃ fields, value = .object fields := by
          match value, hread with
          | .object fields, _ => exact ⟨fields, rfl⟩
        obtain ⟨fields, rfl⟩ := hproperties
        have hdeclared : List.Forall₂ (Declares (required.getD [])) (withoutProto fields) form :=
          formFields_declared (fun name => by cases required <;> rfl) hread hform
        refine ⟨schema, rfl, readLiteral_string hliteral ▸ htype, fields, required, hkeyword,
          optional_embed readNames_some hrequired, hdeclared, ?_⟩
        intro name hname
        rw [← readProperties_names hread]
        by_contra hnot
        apply hnames
        rw [List.any_eq_true]
        exact ⟨name, hname, by simpa using hnot⟩
      · rw [if_neg hkeys] at hsource
        exact nomatch hsource

theorem exists_of_forall₂ {α β : Type} {R : α → β → Prop} {as : List α} {bs : List β}
    (h : List.Forall₂ R as bs) {a : α} (hin : a ∈ as) : ∃ b ∈ bs, R a b := by
  induction h with
  | nil => exact nomatch hin
  | @cons first b rest others hfirst hrest ih =>
    obtain rfl | hin := List.mem_cons.mp hin
    · exact ⟨b, List.mem_cons_self, hfirst⟩
    · obtain ⟨found, hfound, hrelated⟩ := ih hin
      exact ⟨found, List.mem_cons_of_mem _ hfound, hrelated⟩

def seenAnswer : Value ℚ → Value ℚ
  | .object members => .object (withoutProto members)
  | value => value

theorem mem_withoutProto {member : Units × Value ℚ} :
    member ∈ withoutProto members ↔ member ∈ members ∧ member.1 ≠ Utf16.text "__proto__" := by
  rw [withoutProto, List.mem_filter, bne_iff_ne]

theorem lookup_withoutProto {name : Units}
    (hname : name ≠ Utf16.text "__proto__") :
    (withoutProto members).lookup name = members.lookup name := by
  induction members with
  | nil => rfl
  | cons member rest ih =>
    obtain ⟨key, value⟩ := member
    by_cases hkey : key = Utf16.text "__proto__"
    · have hleft : withoutProto ((key, value) :: rest) = withoutProto rest :=
        List.filter_cons_of_neg (by simp [hkey])
      rw [hleft, ih, List.lookup_cons, beq_false_of_ne (hkey ▸ hname)]
    · have hkept : withoutProto ((key, value) :: rest) = (key, value) :: withoutProto rest :=
        List.filter_cons_of_pos (by simp [hkey])
      rw [hkept, List.lookup_cons, List.lookup_cons, ih]

theorem formAccepts_object {form : List FormField}
    (hnames : ∀ field ∈ form, field.name ≠ Utf16.text "__proto__") :
    formAccepts form (.object members) = true ↔
      (∀ field ∈ form,
        ((withoutProto members).lookup field.name = none →
          field.required = false ∧ inherited field.name = false) ∧
        ∀ value, (withoutProto members).lookup field.name = some value →
          field.schema.accepts value = true) ∧
      ∀ member ∈ withoutProto members, ∃ field ∈ form, field.name = member.1 := by
  rw [formAccepts, Bool.and_eq_true, List.all_eq_true, List.all_eq_true]
  apply and_congr
  · apply forall₂_congr
    intro field hfield
    rw [lookup_withoutProto (hnames field hfield)]
    cases hlookup : members.lookup field.name <;> simp
  · apply forall₂_congr
    intro member _
    simp [List.any_eq_true]

/-- The part of an object that a property of its schema says. -/
def Property.Holds (P : Members → Value ℚ → Prop) (schema : Members) (value : Value ℚ) : Prop :=
  ∀ properties members, keyword schema "properties" = some (.object properties) →
    value = .object members → ∀ member ∈ members, ∀ field,
      properties.lookup member.1 = some (.object field) → P field member.2

/-- Every string of a form is within the bounds of its field alike in units and in code points. -/
def FormLengthsAgree : Members → Value ℚ → Prop :=
  Property.Holds fun field value => ∀ string, value = .string string → LengthsAgree field string

/-- What the validator of a form asks beyond its schema. -/
def FormBounded : Members → Value ℚ → Prop := Property.Holds Bounded

/-- The fields whose names every object inherits are not left out. -/
def InheritedGiven (schema : Members) (value : Value ℚ) : Prop :=
  ∀ properties members, keyword schema "properties" = some (.object properties) →
    value = .object members → ∀ name ∈ (withoutProto properties).map Prod.fst,
      inherited name = true → name ∈ members.map Prod.fst

theorem Declares.lookup {required : List Units} {properties : Members}
    (hkeys : (properties.map Prod.fst).Nodup) {member : Units × Value ℚ} {field : FormField}
    (h : Declares required member field) (hin : member ∈ properties) :
    ∃ members property, properties.lookup field.name = some (.object members) ∧
      Requested members property ∧ fieldSchema property = .ok field.schema := by
  obtain ⟨members, property, hmember, hrequested, hschema⟩ := h.schema
  refine ⟨members, property, ?_, hrequested, hschema⟩
  rw [h.name, ← hmember]
  exact lookup_of_mem hkeys hin

theorem Accepted.keys {schema : Members} (hschema : (Value.object schema).Keyed)
    {properties : Members} (h : keyword schema "properties" = some (.object properties)) :
    (properties.map Prod.fst).Nodup := by
  unfold Value.Keyed at hschema
  have hkeyed := keyed_of_mem hschema.2 (mem_of_lookup h)
  unfold Value.Keyed at hkeyed
  exact hkeyed.1

section

variable {required : List Units} {properties : Members} {form : List FormField} {members : Members}

theorem member_agrees (hdeclared : List.Forall₂ (Declares required) (withoutProto properties) form)
    (hkeys : (properties.map Prod.fst).Nodup)
    (hlengths : ∀ member ∈ members, ∀ field, properties.lookup member.1 = some (.object field) →
      ∀ string, member.2 = .string string → LengthsAgree field string)
    {member : Units × Value ℚ} (hin : member ∈ members) {field : FormField} (hfield : field ∈ form)
    (hname : field.name = member.1) :
    ∃ found, properties.lookup member.1 = some (.object found) ∧
      (field.schema.accepts member.2 = true ↔ Meets found member.2 ∧ Bounded found member.2) := by
  obtain ⟨declared, hin', hdeclares⟩ := exists_of_forall₂ hdeclared.flip hfield
  obtain ⟨found, property, hlookup, hrequested, hok⟩ :=
    hdeclares.lookup hkeys (mem_withoutProto.mp hin').1
  rw [hname] at hlookup
  exact ⟨found, hlookup, field_agrees hrequested hok (hlengths member hin found hlookup)⟩

theorem field_of_name (hdeclared : List.Forall₂ (Declares required) properties form) {name : Units}
    (hin : name ∈ properties.map Prod.fst) :
    ∃ field ∈ form, field.name = name ∧ field.required = required.contains name := by
  obtain ⟨declared, hdeclaredIn, rfl⟩ := List.mem_map.mp hin
  obtain ⟨field, hfield, hdeclares⟩ := exists_of_forall₂ hdeclared hdeclaredIn
  exact ⟨field, hfield, hdeclares.name, hdeclares.name ▸ hdeclares.required⟩

theorem lookup_none_iff {name : Units} :
    members.lookup name = none ↔ name ∉ members.map Prod.fst := by
  rw [List.lookup_eq_none_iff, List.mem_map]
  constructor
  · rintro h ⟨member, hin, rfl⟩
    simpa using h member hin
  · intro h member hin
    rw [bne_iff_ne]
    rintro rfl
    exact h ⟨member, hin, rfl⟩

theorem required_iff (hdeclared : List.Forall₂ (Declares required) properties form)
    (hnames : ∀ name ∈ required, name ∈ properties.map Prod.fst)
    (hgiven : ∀ name ∈ properties.map Prod.fst, inherited name = true →
      name ∈ members.map Prod.fst) :
    (∀ field ∈ form, members.lookup field.name = none →
      field.required = false ∧ inherited field.name = false) ↔
      ∀ name ∈ required, name ∈ members.map Prod.fst := by
  constructor
  · intro h name hin
    obtain ⟨field, hfield, hname, hrequired⟩ := field_of_name hdeclared (hnames name hin)
    by_contra hnot
    have hleft := (h field hfield (by rw [hname]; exact lookup_none_iff.mpr hnot)).1
    rw [hrequired, List.contains_eq_mem, decide_eq_true hin] at hleft
    exact nomatch hleft
  · intro h field hfield hnone
    obtain ⟨member, hin, hdeclares⟩ := exists_of_forall₂ hdeclared.flip hfield
    have hout := lookup_none_iff.mp hnone
    constructor
    · rw [hdeclares.required, List.contains_eq_mem, decide_eq_false_iff_not]
      exact fun hin => hout (h field.name hin)
    · rw [Bool.eq_false_iff]
      intro hinherited
      exact hout (hgiven field.name (hdeclares.name ▸ List.mem_map_of_mem hin) hinherited)

end

theorem conforms_object {schema properties members : Members} {required : Option (List Units)}
    (htype : keyword schema "type" = some (.string (Utf16.text "object")))
    (hproperties : keyword schema "properties" = some (.object properties))
    (hrequired : keyword schema "required" =
      (required.map fun names => .array (names.map .string))) :
    Conforms schema (.object members) ↔
      (∀ name ∈ required.getD [], name ∈ members.map Prod.fst) ∧
        ∀ member ∈ members, ∃ field,
          properties.lookup member.1 = some (.object field) ∧ Meets field member.2 := by
  constructor
  · intro h
    constructor
    · cases required with
      | none => exact fun _ hin => nomatch hin
      | some names =>
        intro name hin
        exact h.required _ members hrequired rfl name (List.mem_map_of_mem hin)
    · exact h.properties properties members hproperties rfl
  · rintro ⟨hnames, hmembers⟩
    exact {
      type := by
        intro type hkeyword
        rw [htype] at hkeyword
        cases hkeyword
        rfl
      required := by
        intro names _ hkeyword heq name hname
        cases heq
        rw [hrequired] at hkeyword
        obtain ⟨names, rfl, heq⟩ := Option.map_eq_some_iff.mp hkeyword
        cases heq
        obtain ⟨other, hin, heq⟩ := List.mem_map.mp hname
        cases heq
        exact hnames name hin
      properties := by
        intro others _ hkeyword heq
        cases heq
        rw [hproperties] at hkeyword
        cases hkeyword
        exact hmembers }

theorem form_agrees {schema : Members} {form : List FormField}
    (h : Accepted schema form) (hschema : (Value.object schema).Keyed) (hvalue : value.Keyed)
    (hlengths : FormLengthsAgree schema (seenAnswer value))
    (hgiven : InheritedGiven schema (seenAnswer value)) :
    formAccepts form value = true ↔
      Conforms schema (seenAnswer value) ∧ FormBounded schema (seenAnswer value) := by
  obtain ⟨properties, required, hproperties, hrequired, hdeclared, hnames⟩ := h.declared
  have hkeys := Accepted.keys hschema hproperties
  cases value with
  | object answer =>
    unfold Value.Keyed at hvalue
    have hanswer : ((withoutProto answer).map Prod.fst).Nodup :=
      hvalue.1.sublist (List.filter_sublist.map _)
    have hformNames (field : FormField) (hfield : field ∈ form) :
        field.name ≠ Utf16.text "__proto__" := by
      obtain ⟨member, hin, hdeclares⟩ := exists_of_forall₂ hdeclared.flip hfield
      rw [hdeclares.name]
      exact (mem_withoutProto.mp hin).2
    rw [formAccepts_object hformNames]
    simp only [seenAnswer] at hlengths hgiven ⊢
    have hin' {member : Units × Value ℚ} (hin : member ∈ withoutProto answer) :
        member.1 ≠ Utf16.text "__proto__" := (mem_withoutProto.mp hin).2
    generalize withoutProto answer = members at hanswer hlengths hgiven hin' ⊢
    have hmember {member : Units × Value ℚ} (hin : member ∈ members) {field : FormField}
        (hfield : field ∈ form) (hname : field.name = member.1) :=
      member_agrees hdeclared hkeys (hlengths properties members hproperties rfl) hin hfield hname
    rw [conforms_object h.type hproperties hrequired,
      ← required_iff hdeclared hnames (hgiven properties members hproperties rfl)]
    constructor
    · rintro ⟨hfields, hmembers⟩
      have hmeets {member : Units × Value ℚ} (hin : member ∈ members) :
          ∃ found, properties.lookup member.1 = some (.object found) ∧
            Meets found member.2 ∧ Bounded found member.2 := by
        obtain ⟨field, hfield, hname⟩ := hmembers member hin
        obtain ⟨found, hlookup, hiff⟩ := hmember hin hfield hname
        have hvalueOf : members.lookup field.name = some member.2 := by
          rw [hname]
          exact lookup_of_mem hanswer hin
        exact ⟨found, hlookup, hiff.mp ((hfields field hfield).2 member.2 hvalueOf)⟩
      refine ⟨⟨fun field hfield => (hfields field hfield).1, ?_⟩, ?_⟩
      · intro member hin
        obtain ⟨found, hlookup, hmeets, _⟩ := hmeets hin
        exact ⟨found, hlookup, hmeets⟩
      · intro others _ hkeyword heq member hin field hlookup'
        cases heq
        rw [hproperties] at hkeyword
        cases hkeyword
        obtain ⟨found, hlookup, _, hbounded⟩ := hmeets hin
        rw [hlookup] at hlookup'
        cases hlookup'
        exact hbounded
    · rintro ⟨⟨hleft, hmembers⟩, hbounded⟩
      refine ⟨fun field hfield => ⟨hleft field hfield, ?_⟩, ?_⟩
      · intro value hvalueOf
        have hin := mem_of_lookup hvalueOf
        obtain ⟨found, hlookup, hiff⟩ := hmember hin hfield rfl
        obtain ⟨other, hother, hmeets⟩ := hmembers _ hin
        rw [hlookup] at hother
        cases hother
        exact hiff.mpr ⟨hmeets, hbounded properties members hproperties rfl _ hin found hlookup⟩
      · intro member hin
        obtain ⟨found, hlookup, _⟩ := hmembers member hin
        have hproto := hin' hin
        have hdeclaredIn := mem_withoutProto.mpr ⟨mem_of_lookup hlookup, hproto⟩
        obtain ⟨field, hfield, hname, _⟩ :=
          field_of_name hdeclared (List.mem_map_of_mem hdeclaredIn)
        exact ⟨field, hfield, hname⟩
  | _ =>
    constructor
    · exact fun haccepts => nomatch haccepts
    · intro hconforms
      obtain ⟨_, heq⟩ := (hasType_object _).mp (hconforms.1.type _ h.type)
      exact nomatch heq

/-- The validator of an accepted schema accepts the answers that conform to it without their own
`__proto__`, but for strings of over 8192 characters without a maximal length of their own and for
integers that are not safe. -/
theorem native_form_agrees (numerals : Numerals ℚ) {requested : Value ℚ} {form : List FormField}
    (haccepted : nativeFormSchema numerals requested = .ok form) (hkeyed : requested.Keyed) :
    ∃ schema, requested = .object schema ∧
      (∀ value : Value ℚ, value.Keyed → FormLengthsAgree schema (seenAnswer value) →
        InheritedGiven schema (seenAnswer value) →
        (formAccepts form value = true ↔
          Conforms schema (seenAnswer value) ∧ FormBounded schema (seenAnswer value))) ∧
      ∀ properties name field values, keyword schema "properties" = some (.object properties) →
        (withoutProto properties).lookup name = some (.object field) →
        keyword field "enum" = some (.array values) →
        ∀ value ∈ values, ∃ declared ∈ form, declared.name = name ∧
          declared.schema.accepts value = true := by
  obtain ⟨schema, rfl, hschema⟩ := nativeFormSchema_ok haccepted
  refine ⟨schema, rfl, ?_, ?_⟩
  · intro value hvalue hlengths hgiven
    exact form_agrees hschema hkeyed hvalue hlengths hgiven
  intro properties name field values hproperties hlookup henum value hin
  obtain ⟨others, required, hothers, _, hdeclared, _⟩ := hschema.declared
  rw [hproperties] at hothers
  cases hothers
  obtain ⟨declared, hfield, hdeclares⟩ := exists_of_forall₂ hdeclared (mem_of_lookup hlookup)
  obtain ⟨members, property, hmembers, hrequested, hschema⟩ := hdeclares.schema
  cases hmembers
  rw [hrequested.enum] at henum
  obtain ⟨_, hvalues, heq⟩ := Option.map_eq_some_iff.mp henum
  cases heq
  exact ⟨declared, hfield, hdeclares.name, choice_accepted hrequested hschema hvalues hin⟩

def integerNumerals : Numerals ℚ where
  text n :=
    Whole.text (match n.num with
      | .ofNat value => .natural value
      | .negSucc value => .negated (value + 1))
  value text :=
    match Whole.ofNumeral text with
    | .natural value => value
    | .negated value => -value

/-- The schema of one field of the name and the schema. -/
def formOf (name : String) (field : Members) (required : List (Value ℚ)) : Members :=
  [(Utf16.text "type", .string (Utf16.text "object")),
    (Utf16.text "properties", .object [(Utf16.text name, .object field)]),
    (Utf16.text "required", .array required)]

def countSchema : Members :=
  formOf "count" [(Utf16.text "type", .string (Utf16.text "integer")),
    (Utf16.text "enum", .array [.number 1, .number 2])] [.string (Utf16.text "count")]

def countForm : List FormField :=
  [⟨Utf16.text "count", ⟨.number true none none, some [.number 1, .number 2]⟩, true⟩]

theorem countForm_agrees :
    ∃ schema, Value.object countSchema = .object schema ∧
      (∀ value : Value ℚ, value.Keyed → FormLengthsAgree schema (seenAnswer value) →
        InheritedGiven schema (seenAnswer value) →
        (formAccepts countForm value = true ↔
          Conforms schema (seenAnswer value) ∧ FormBounded schema (seenAnswer value))) ∧
      ∀ properties name field values, keyword schema "properties" = some (.object properties) →
        (withoutProto properties).lookup name = some (.object field) →
        keyword field "enum" = some (.array values) →
        ∀ value ∈ values, ∃ declared ∈ countForm, declared.name = name ∧
          declared.schema.accepts value = true := by
  apply native_form_agrees integerNumerals
  · rfl
  · simp [countSchema, formOf, Value.Keyed, keyedMembers, keyedItems]
    decide

def unboundedSchema : Members :=
  formOf "count" [(Utf16.text "type", .string (Utf16.text "integer"))] []

/-- The first integer that is not safe. -/
def unsafeCount : Value ℚ := .object [(Utf16.text "count", .number 9007199254740992)]

/-- A count beside an own key that the validator does not see. -/
def hiddenCount : Value ℚ :=
  .object [(Utf16.text "count", .number 1), (Utf16.text "__proto__", .number 2)]

theorem unsafe_count_refused :
    ∃ form, nativeFormSchema integerNumerals (.object unboundedSchema) = .ok form ∧
      (Conforms unboundedSchema unsafeCount ∧ formAccepts form unsafeCount = false) ∧
      ¬ Conforms unboundedSchema hiddenCount ∧ formAccepts form hiddenCount = true := by
  refine ⟨[⟨Utf16.text "count", ⟨.number true none none, none⟩, false⟩], rfl, ⟨?_, rfl⟩, ?_, rfl⟩
  · have hrequested : Requested [(Utf16.text "type", .string (Utf16.text "integer"))]
        ⟨.integer, none, none, none, none, none⟩ :=
      ⟨rfl, rfl, (fun _ h => nomatch h), rfl, rfl, rfl, rfl⟩
    rw [unsafeCount, @conforms_object unboundedSchema _ _ (some []) rfl rfl rfl]
    refine ⟨(fun _ hin => nomatch hin), ?_⟩
    intro member hin
    obtain rfl := List.mem_singleton.mp hin
    refine ⟨_, rfl, (meets_iff hrequested _).mpr ⟨.inr ⟨rfl, rfl⟩, ?_⟩⟩
    exact ⟨(fun _ h => nomatch h), (fun _ _ h => nomatch h), (fun _ _ h => nomatch h),
      (fun _ _ h => nomatch h), (fun _ _ h => nomatch h)⟩
  · rw [hiddenCount, @conforms_object unboundedSchema _ _ (some []) rfl rfl rfl]
    rintro ⟨_, hmembers⟩
    obtain ⟨_, hlookup, _⟩ := hmembers (Utf16.text "__proto__", .number 2) (by simp)
    exact nomatch hlookup

end HarnessControl.Harnesses
