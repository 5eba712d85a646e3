import Mathlib

/-!
# JSON values and text measures

The values that cross the protocol, and the measures the schemas put on text: `length` of a
JavaScript string counts UTF-16 units, identities have 1 to 512 of them, hashes are 64 lowercase
hexadecimal digits.
-/

namespace HarnessControl.Protocol

mutual

/-- The values that `JSON.parse` gives back as `JSON.stringify` was given them, with whole numbers:
no `-0`, `NaN` or `Infinity`, and no member that is `undefined`. -/
inductive Json where
  | null
  | bool (value : Bool)
  | num (value : Int)
  | str (value : String)
  | arr (elements : JsonList)
  | obj (fields : JsonFields)

inductive JsonList where
  | nil
  | cons (head : Json) (tail : JsonList)

inductive JsonFields where
  | nil
  | cons (key : String) (value : Json) (tail : JsonFields)

end

mutual

def Json.decEq : (a b : Json) → Decidable (a = b)
  | .null, .null => isTrue rfl
  | .bool a, .bool b => decidable_of_iff (a = b) (by simp)
  | .num a, .num b => decidable_of_iff (a = b) (by simp)
  | .str a, .str b => decidable_of_iff (a = b) (by simp)
  | .arr a, .arr b => @decidable_of_iff _ (a = b) (by simp) (a.decEq b)
  | .obj a, .obj b => @decidable_of_iff _ (a = b) (by simp) (a.decEq b)
  | .null, .bool _ | .null, .num _ | .null, .str _ | .null, .arr _ | .null, .obj _ => isFalse nofun
  | .bool _, .null | .bool _, .num _ | .bool _, .str _ | .bool _, .arr _ | .bool _, .obj _ =>
    isFalse nofun
  | .num _, .null | .num _, .bool _ | .num _, .str _ | .num _, .arr _ | .num _, .obj _ =>
    isFalse nofun
  | .str _, .null | .str _, .bool _ | .str _, .num _ | .str _, .arr _ | .str _, .obj _ =>
    isFalse nofun
  | .arr _, .null | .arr _, .bool _ | .arr _, .num _ | .arr _, .str _ | .arr _, .obj _ =>
    isFalse nofun
  | .obj _, .null | .obj _, .bool _ | .obj _, .num _ | .obj _, .str _ | .obj _, .arr _ =>
    isFalse nofun

def JsonList.decEq : (a b : JsonList) → Decidable (a = b)
  | .nil, .nil => isTrue rfl
  | .cons a as, .cons b bs =>
    @decidable_of_iff _ (a = b ∧ as = bs) (by simp)
      (@instDecidableAnd _ _ (a.decEq b) (as.decEq bs))
  | .nil, .cons _ _ | .cons _ _, .nil => isFalse nofun

def JsonFields.decEq : (a b : JsonFields) → Decidable (a = b)
  | .nil, .nil => isTrue rfl
  | .cons k a as, .cons l b bs =>
    @decidable_of_iff _ (k = l ∧ a = b ∧ as = bs) (by simp)
      (@instDecidableAnd _ _ (inferInstanceAs (Decidable (k = l)))
        (@instDecidableAnd _ _ (a.decEq b) (as.decEq bs)))
  | .nil, .cons _ _ _ | .cons _ _ _, .nil => isFalse nofun

end

instance : DecidableEq Json := Json.decEq
instance : DecidableEq JsonList := JsonList.decEq
instance : DecidableEq JsonFields := JsonFields.decEq

def JsonFields.get? : JsonFields → String → Option Json
  | .nil, _ => none
  | .cons key value tail, k => if key = k then some value else tail.get? k

def JsonFields.keys : JsonFields → List String
  | .nil => []
  | .cons key _ tail => key :: tail.keys

def JsonList.ofList : List Json → JsonList
  | [] => .nil
  | head :: tail => .cons head (JsonList.ofList tail)

def JsonFields.ofList : List (String × Json) → JsonFields
  | [] => .nil
  | (key, value) :: rest => .cons key value (ofList rest)

/-- The operand of `in` has to be an object or an array. -/
def Json.isObject : Json → Bool
  | .obj _ | .arr _ => true
  | _ => false

/-- `key in value ? value[key] : undefined`. -/
def Json.field? (value : Json) (key : String) : Option Json :=
  match value with
  | .obj fields => fields.get? key
  | _ => none

mutual

/-- `isDeepStrictEqual`: arrays in order, objects as sets of fields. -/
def Json.deepEqual : Json → Json → Bool
  | .null, .null => true
  | .bool a, .bool b => a == b
  | .num a, .num b => a == b
  | .str a, .str b => a == b
  | .arr a, .arr b => a.deepEqual b
  | .obj a, .obj b => a.keys.length == b.keys.length && a.deepIncluded b
  | _, _ => false

def JsonList.deepEqual : JsonList → JsonList → Bool
  | .nil, .nil => true
  | .cons a as, .cons b bs => a.deepEqual b && as.deepEqual bs
  | _, _ => false

def JsonFields.deepIncluded : JsonFields → JsonFields → Bool
  | .nil, _ => true
  | .cons key value tail, other =>
    (match other.get? key with
      | some found => value.deepEqual found
      | none => false) && tail.deepIncluded other

end

/-! ## Records

Assigning `__proto__` to a plain object creates no property, so a record schema loses that key.
-/

def protoKey : String := "__proto__"

/-- What `z.record(z.string(), z.unknown())` keeps of an object. -/
def JsonFields.recordKept : JsonFields → JsonFields
  | .nil => .nil
  | .cons key value tail =>
    if key = protoKey then tail.recordKept else .cons key value tail.recordKept

theorem JsonFields.recordKept_recordKept (fields : JsonFields) :
    fields.recordKept.recordKept = fields.recordKept := by
  match fields with
  | .nil => rfl
  | .cons key value tail =>
    have ih := JsonFields.recordKept_recordKept tail
    by_cases h : key = protoKey
    · simp only [JsonFields.recordKept, if_pos h, ih]
    · simp only [JsonFields.recordKept, if_neg h, ih]

mutual

/-- What `z.json()` keeps of a value, whose objects are records at every depth. -/
def Json.kept : Json → Json
  | .arr elements => .arr elements.kept
  | .obj fields => .obj fields.kept
  | value => value

def JsonList.kept : JsonList → JsonList
  | .nil => .nil
  | .cons head tail => .cons head.kept tail.kept

def JsonFields.kept : JsonFields → JsonFields
  | .nil => .nil
  | .cons key value tail =>
    if key = protoKey then tail.kept else .cons key value.kept tail.kept

end

mutual

theorem Json.kept_kept : (value : Json) → value.kept.kept = value.kept
  | .null | .bool _ | .num _ | .str _ => rfl
  | .arr elements => congrArg Json.arr elements.kept_kept
  | .obj fields => congrArg Json.obj fields.kept_kept

theorem JsonList.kept_kept : (elements : JsonList) → elements.kept.kept = elements.kept
  | .nil => rfl
  | .cons head tail => congrArg₂ JsonList.cons head.kept_kept tail.kept_kept

theorem JsonFields.kept_kept : (fields : JsonFields) → fields.kept.kept = fields.kept
  | .nil => rfl
  | .cons key value tail => by
    by_cases h : key = protoKey
    · simp only [JsonFields.kept, if_pos h, tail.kept_kept]
    · simp only [JsonFields.kept, if_neg h, value.kept_kept, tail.kept_kept]

end

/-! ## Text -/

def utf16Length (s : String) : Nat := (s.toList.map fun c => if c.val < 0x10000 then 1 else 2).sum

/-- `z.string().min(1).max(bound)`. -/
def boundedText (bound : Nat) (s : String) : Bool :=
  decide (1 ≤ utf16Length s) && decide (utf16Length s ≤ bound)

/-- `z.string().min(1).max(512)`, the shape of an identity. -/
def identity (s : String) : Bool := boundedText 512 s

def isLowerHex (c : Char) : Bool :=
  ('a' ≤ c && c ≤ 'f') || ('0' ≤ c && c ≤ '9')

/-- `/^[a-f0-9]{64}$/`. -/
def sha256Hex (s : String) : Bool := s.toList.length == 64 && s.toList.all isLowerHex

/-- `/^[a-z][a-z0-9<marks>]{0,<bound>}$/`. -/
def tokenText (marks : List Char) (bound : Nat) (s : String) : Bool :=
  match s.toList with
  | [] => false
  | c :: rest =>
    ('a' ≤ c && c ≤ 'z') && decide (rest.length ≤ bound) &&
      rest.all fun d => ('a' ≤ d && d ≤ 'z') || ('0' ≤ d && d ≤ '9') || marks.contains d

/-- `Number.MAX_SAFE_INTEGER`. -/
def maxSafeInteger : Int := 9007199254740991

/-- `z.number().int().nonnegative().max(Number.MAX_SAFE_INTEGER)`. -/
def counter (n : Int) : Bool := decide (0 ≤ n) && decide (n ≤ maxSafeInteger)

/-- The elements of a list stand under different keys. -/
def uniqueBy {α κ : Type*} [DecidableEq κ] (key : α → κ) (values : List α) : Bool :=
  decide (values.map key).Nodup

theorem find?_of_unique {α κ : Type*} [DecidableEq κ] {key : α → κ} {values : List α}
    (hunique : uniqueBy key values = true) {value : α} (hmem : value ∈ values) {id : κ}
    (hkey : key value = id) : values.find? (fun other => key other == id) = some value := by
  unfold uniqueBy at hunique
  have hnodup := of_decide_eq_true hunique
  clear hunique
  induction values with
  | nil => cases hmem
  | cons head tail ih =>
    rw [List.map_cons, List.nodup_cons] at hnodup
    by_cases hhead : key head = id
    · rcases List.mem_cons.mp hmem with rfl | htail
      · rw [List.find?_cons_of_pos (by simpa using hhead)]
      · have hin : key value ∈ tail.map key := List.mem_map_of_mem htail
        rw [hkey, ← hhead] at hin
        exact absurd hin hnodup.1
    · rw [List.find?_cons_of_neg (by simpa using hhead)]
      rcases List.mem_cons.mp hmem with rfl | htail
      · exact absurd hkey hhead
      · exact ih htail hnodup.2

/-- An absent optional value satisfies its schema. -/
def optionally {α : Type*} (schema : α → Bool) : Option α → Bool
  | none => true
  | some value => schema value

example : sha256Hex "e3b0c44298fc1c149afbf4c8996fb92427ae41e4649b934ca495991b7852b855" = true := by
  decide

end HarnessControl.Protocol
