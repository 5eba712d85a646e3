import HarnessControl.Library.Base64
import HarnessControl.Library.JsonText
import HarnessControl.OpenCode.TextProjection

/-!
# References of controlled conversations

A reference keeps the account and the configuration that a native conversation belongs to.  The
session id is bounded in characters where it is written and in bytes where it is read.
-/

namespace HarnessControl.OpenCode

open HarnessControl.Library HarnessControl.Library.JsonText

variable {ν : Type}

/-! ## Values -/

def unitBetween (low high : Nat) (unit : UInt16) : Bool :=
  decide (low ≤ unit.toNat) && decide (unit.toNat ≤ high)

def isDigitUnit (unit : UInt16) : Bool := unitBetween 0x30 0x39 unit

/-- `[a-zA-Z0-9_.-]` -/
def isProviderUnit (unit : UInt16) : Bool :=
  unitBetween 0x61 0x7A unit || unitBetween 0x41 0x5A unit || isDigitUnit unit ||
    unit == 0x5F || unit == 0x2E || unit == 0x2D

/-- `[a-f0-9]` -/
def isBindingUnit (unit : UInt16) : Bool := unitBetween 0x61 0x66 unit || isDigitUnit unit

/-- The values that `referenceSchema` accepts; `native_work` is `true` or left out. -/
structure ControlledReference where
  session_id : Text
  provider_id : Text
  account_binding : Text
  native_work : Bool
  session_size : 1 ≤ session_id.length ∧ session_id.length ≤ 512
  provider_size : 1 ≤ provider_id.length ∧ provider_id.length ≤ 128
  provider_form : ∀ unit ∈ provider_id, isProviderUnit unit = true
  binding_size : account_binding.length = 64
  binding_form : ∀ unit ∈ account_binding, isBindingUnit unit = true

def parsedReference (session_id provider_id account_binding : Text) (native_work : Bool) :
    Option ControlledReference :=
  if h : (1 ≤ session_id.length ∧ session_id.length ≤ 512) ∧
      (1 ≤ provider_id.length ∧ provider_id.length ≤ 128) ∧
      (∀ unit ∈ provider_id, isProviderUnit unit = true) ∧ account_binding.length = 64 ∧
      (∀ unit ∈ account_binding, isBindingUnit unit = true) then
    some
      { session_id, provider_id, account_binding, native_work
        session_size := h.1
        provider_size := h.2.1
        provider_form := h.2.2.1
        binding_size := h.2.2.2.1
        binding_form := h.2.2.2.2 }
  else none

theorem parsedReference_self (value : ControlledReference) :
    parsedReference value.session_id value.provider_id value.account_binding value.native_work =
      some value := by
  unfold parsedReference
  rw [dif_pos ⟨value.session_size, value.provider_size, value.provider_form, value.binding_size,
    value.binding_form⟩]

def referenceKeys : List Text :=
  [Utf16.text "session_id", Utf16.text "provider_id", Utf16.text "account_binding",
    Utf16.text "native_work"]

/-- `referenceSchema.parse`; a strict object does not look at an own key `__proto__`. -/
def referenceSchema : Value ν → Option ControlledReference
  | .object members =>
    if members.all fun member =>
        member.1 == Utf16.text "__proto__" || referenceKeys.contains member.1 then
      match Dict.find (Utf16.text "session_id") members,
          Dict.find (Utf16.text "provider_id") members,
          Dict.find (Utf16.text "account_binding") members,
          Dict.find (Utf16.text "native_work") members with
      | some (.string session_id), some (.string provider_id), some (.string account_binding),
        none => parsedReference session_id provider_id account_binding false
      | some (.string session_id), some (.string provider_id), some (.string account_binding),
        some (.bool true) => parsedReference session_id provider_id account_binding true
      | _, _, _, _ => none
    else none
  | _ => none

/-! ## References -/

def PREFIX : Text := Utf16.text "hcp-opencode-controlled-v1:"

def ControlledReference.json (value : ControlledReference) : Value ν :=
  .object ([(Utf16.text "session_id", .string value.session_id),
    (Utf16.text "provider_id", .string value.provider_id),
    (Utf16.text "account_binding", .string value.account_binding)] ++
    if value.native_work then [(Utf16.text "native_work", .bool true)] else [])

def controlledOpenCodeReference (numerals : Numerals ν) (value : ControlledReference) : Text :=
  PREFIX ++ Utf16.units (Base64.encode (Utf8.encode (stringify numerals value.json)))

def invalidReference : AdapterError :=
  { code := "native_continuation_binding"
    message := "The controlled native conversation reference is invalid." }

/-- `none` is a string that is no such reference. -/
def readControlledOpenCodeReference (numerals : Numerals ν) (value : Text) :
    Except AdapterError (Option ControlledReference) :=
  if PREFIX <+: value then
    let encoded := value.drop PREFIX.length
    if 2048 < encoded.length ∨ encoded = [] ∨
        ¬(encoded.all fun unit => Base64.inAlphabet (Char.ofNat unit.toNat)) then
      .error invalidReference
    else
      let decoded := Base64.decode (Utf16.characters encoded)
      if Utf16.units (Base64.encode decoded) ≠ encoded then .error invalidReference
      else
        match (parse numerals (Utf8.decode decoded)).bind referenceSchema with
        | some value => .ok (some value)
        | none => .error invalidReference
  else .ok none

/-! ## What is encoded is decoded -/

theorem referenceKeys_nodup : referenceKeys.Nodup := by decide

theorem json_printable (numerals : Numerals ν) (value : ControlledReference) :
    Value.Printable numerals value.json := by
  unfold ControlledReference.json
  cases value.native_work with
  | true => exact ⟨referenceKeys_nodup, trivial, trivial, trivial, trivial, trivial⟩
  | false =>
    exact ⟨referenceKeys_nodup.sublist (List.take_sublist 3 referenceKeys), trivial, trivial,
      trivial, trivial⟩

theorem reread_json (numerals : Numerals ν) (value : ControlledReference) :
    Value.reread numerals value.json = value.json := by
  unfold ControlledReference.json
  cases value.native_work <;> rfl

theorem referenceSchema_json (value : ControlledReference) :
    referenceSchema (ν := ν) value.json = some value := by
  have hself := parsedReference_self value
  unfold ControlledReference.json
  cases hwork : value.native_work with
  | true =>
    rw [hwork] at hself
    exact hself
  | false =>
    rw [hwork] at hself
    exact hself

theorem parse_json (numerals : Numerals ν) (value : ControlledReference) :
    (parse numerals (stringify numerals value.json)).bind referenceSchema = some value := by
  rw [parse_stringify numerals (json_printable numerals value), reread_json]
  exact referenceSchema_json value

theorem encoded_nonempty (numerals : Numerals ν) (value : ControlledReference) :
    0 < (Utf8.encode (stringify numerals (ControlledReference.json (ν := ν) value))).length := by
  obtain ⟨c, rest, htext, -⟩ := stringify_opens (json_printable numerals value)
  rw [htext]
  exact Utf8.length_encode_pos c rest

theorem units_inAlphabet {bytes : List UInt8} (hnonempty : 0 < bytes.length) :
    Utf16.units (Base64.encode bytes) ≠ [] ∧
      (Utf16.units (Base64.encode bytes)).all
        (fun unit => Base64.inAlphabet (Char.ofNat unit.toNat)) = true := by
  have hascii := Base64.encode_ascii bytes
  rw [Utf16.units_ascii hascii]
  constructor
  · intro hempty
    have hlength := Base64.length_encode bytes
    rw [List.map_eq_nil_iff.mp hempty, List.length_nil] at hlength
    omega
  · rw [List.all_map, List.all_eq_true]
    intro c hc
    have hvalue : (UInt16.ofNat c.toNat).toNat = c.toNat :=
      Utf16.toNat_ofNat (lt_trans (hascii c hc) (by decide))
    show Base64.inAlphabet (Char.ofNat (UInt16.ofNat c.toNat).toNat) = true
    rw [hvalue, Char.ofNat_toNat]
    exact List.all_eq_true.mp (Base64.encode_inAlphabet bytes) c hc

theorem length_units_encode (bytes : List UInt8) :
    (Utf16.units (Base64.encode bytes)).length = (4 * bytes.length + 2) / 3 := by
  rw [Utf16.units_ascii (Base64.encode_ascii bytes), List.length_map, Base64.length_encode]

theorem read_encoded (numerals : Numerals ν) (value : ControlledReference) :
    readControlledOpenCodeReference numerals (controlledOpenCodeReference numerals value) =
      if (Utf8.encode (stringify numerals (ControlledReference.json (ν := ν) value))).length ≤ 1536
      then .ok (some value) else .error invalidReference := by
  have hnonempty := encoded_nonempty numerals value
  unfold readControlledOpenCodeReference controlledOpenCodeReference
  generalize hbytes : Utf8.encode (stringify numerals value.json) = bytes at hnonempty ⊢
  obtain ⟨hsome, hall⟩ := units_inAlphabet hnonempty
  have hlength := length_units_encode bytes
  rw [if_pos (List.prefix_append _ _), List.drop_left]
  dsimp only
  by_cases hsize : bytes.length ≤ 1536
  · have hread : ¬(2048 < (Utf16.units (Base64.encode bytes)).length ∨
        Utf16.units (Base64.encode bytes) = [] ∨
        ¬((Utf16.units (Base64.encode bytes)).all
          fun unit => Base64.inAlphabet (Char.ofNat unit.toNat)) = true) := by
      rw [hall, hlength]
      simp only [hsome, not_true_eq_false, or_false]
      omega
    rw [if_pos hsize, if_neg hread, Utf16.characters_units, Base64.decode_encode,
      if_neg (not_not.mpr rfl), ← hbytes, Utf8.decode_encode, parse_json]
  · rw [if_neg hsize, if_pos (Or.inl (by omega))]

theorem reference_injective (numerals : Numerals ν) {value other : ControlledReference}
    (h : controlledOpenCodeReference numerals value = controlledOpenCodeReference numerals other) :
    value = other := by
  have hdigits := congrArg Utf16.characters (List.append_cancel_left h)
  rw [Utf16.characters_units, Utf16.characters_units] at hdigits
  have hbytes := congrArg Base64.decode hdigits
  rw [Base64.decode_encode, Base64.decode_encode] at hbytes
  have htext := congrArg Utf8.decode hbytes
  rw [Utf8.decode_encode, Utf8.decode_encode] at htext
  have hparse := parse_json numerals value
  rw [htext, parse_json] at hparse
  exact (Option.some.inj hparse).symm

/-! ## The size of a reference -/

/-- The bytes of the JSON text: keys, quotation marks and the account binding, then what varies. -/
def ControlledReference.size (value : ControlledReference) : Nat :=
  119 + (if value.native_work then 19 else 0) + value.provider_id.length +
    escapedBytes value.session_id

theorem plainUnit_of_between {low high : Nat} {unit : UInt16}
    (h : unitBetween low high unit = true) (hquote : 0x22 < low) (hhigh : high < 0x80)
    (hslash : high < 0x5C ∨ 0x5C < low) : plainUnit unit = true := by
  unfold unitBetween at h
  unfold plainUnit
  simp only [Bool.and_eq_true, decide_eq_true_eq] at h ⊢
  omega

theorem plainUnit_provider {unit : UInt16} (h : isProviderUnit unit = true) :
    plainUnit unit = true := by
  unfold isProviderUnit isDigitUnit at h
  simp only [Bool.or_eq_true, beq_iff_eq] at h
  obtain ((((h | h) | h) | rfl) | rfl) | rfl := h
  · exact plainUnit_of_between h (by decide) (by decide) (by decide)
  · exact plainUnit_of_between h (by decide) (by decide) (by decide)
  · exact plainUnit_of_between h (by decide) (by decide) (by decide)
  · rfl
  · rfl
  · rfl

theorem plainUnit_binding {unit : UInt16} (h : isBindingUnit unit = true) :
    plainUnit unit = true := by
  unfold isBindingUnit isDigitUnit at h
  simp only [Bool.or_eq_true] at h
  obtain h | h := h
  · exact plainUnit_of_between h (by decide) (by decide) (by decide)
  · exact plainUnit_of_between h (by decide) (by decide) (by decide)

theorem bytes_quote (string : Text) :
    (Utf8.encode (quote string)).length = 2 + escapedBytes string := by
  unfold quote
  rw [Utf8.encode_append, Utf8.encode_cons, List.length_append, List.length_append, bytes_escape]
  show 1 + escapedBytes string + 1 = _
  omega

theorem bytes_mark {mark : Char} (h : mark.toNat < 0x80) (text : List Char) :
    (Utf8.encode (mark :: text)).length = 1 + (Utf8.encode text).length := by
  rw [show mark :: text = [mark] ++ text from rfl, Utf8.encode_append, List.length_append,
    length_encode_ascii]
  · rfl
  · exact List.forall_mem_cons.mpr ⟨h, List.forall_mem_nil _⟩

theorem bytes_member {mark : Char} (h : mark.toNat < 0x80) (key string : Text) (rest : List Char) :
    (Utf8.encode (mark :: quote key ++ ':' :: quote string ++ rest)).length =
      6 + escapedBytes key + escapedBytes string + (Utf8.encode rest).length := by
  rw [List.cons_append, List.cons_append, bytes_mark h, Utf8.encode_append, List.length_append, Utf8.encode_append,
    List.length_append, bytes_quote, bytes_mark (by decide), bytes_quote]
  omega

theorem stringify_json (numerals : Numerals ν) (value : ControlledReference) :
    stringify numerals value.json =
      '\x7b' :: quote (Utf16.text "session_id") ++ ':' :: quote value.session_id ++
        (',' :: quote (Utf16.text "provider_id") ++ ':' :: quote value.provider_id ++
          (',' :: quote (Utf16.text "account_binding") ++ ':' :: quote value.account_binding ++
            ((if value.native_work then ",\"native_work\":true".toList else []) ++ ['\x7d']))) := by
  have hwork : ',' :: (quote (Utf16.text "native_work") ++ ':' :: "true".toList) =
      ",\"native_work\":true".toList := by decide
  unfold ControlledReference.json
  cases value.native_work with
  | true =>
    rw [if_pos rfl, if_pos rfl, ← hwork]
    simp only [stringify, List.cons_append, List.nil_append, stringifyMembers,
      stringifyMoreMembers, List.append_assoc, List.append_nil, if_true]
  | false =>
    simp only [stringify, List.cons_append, List.nil_append, stringifyMembers,
      stringifyMoreMembers, List.append_assoc, List.append_nil, Bool.false_eq_true, if_false]

theorem bytes_json (numerals : Numerals ν) (value : ControlledReference) :
    (Utf8.encode (stringify numerals (ControlledReference.json (ν := ν) value))).length =
      value.size := by
  have hprovider := escapedBytes_plain fun unit hunit =>
    plainUnit_provider (value.provider_form unit hunit)
  have hbinding := escapedBytes_plain fun unit hunit =>
    plainUnit_binding (value.binding_form unit hunit)
  have hsession_key : escapedBytes (Utf16.text "session_id") = 10 := by decide
  have hprovider_key : escapedBytes (Utf16.text "provider_id") = 11 := by decide
  have hbinding_key : escapedBytes (Utf16.text "account_binding") = 15 := by decide
  have hwork : (Utf8.encode ((if value.native_work then ",\"native_work\":true".toList else []) ++
      ['\x7d'])).length = (if value.native_work then 19 else 0) + 1 := by
    cases value.native_work <;> rfl
  rw [stringify_json, bytes_member (by decide), bytes_member (by decide), bytes_member (by decide),
    hwork, hprovider, hbinding, hsession_key, hprovider_key, hbinding_key, value.binding_size]
  unfold ControlledReference.size
  omega

/-- A reference is read as the value that it was made of if and only if the JSON text of the value
takes no more than 1536 bytes.  No other value has the same reference. -/
theorem reference_round_trip (numerals : Numerals ν) (value : ControlledReference) :
    (readControlledOpenCodeReference numerals (controlledOpenCodeReference numerals value) =
        .ok (some value) ∧
      ∀ other, controlledOpenCodeReference numerals other =
        controlledOpenCodeReference numerals value → other = value) ↔
      value.size ≤ 1536 := by
  rw [read_encoded, bytes_json]
  constructor
  · rintro ⟨hread, -⟩
    by_contra hsize
    rw [if_neg hsize] at hread
    cases hread
  · intro hsize
    rw [if_pos hsize]
    exact ⟨rfl, fun other h => reference_injective numerals h⟩

def controlCharacters : ControlledReference where
  session_id := List.replicate 512 0x01
  provider_id := Utf16.text "anthropic"
  account_binding := List.replicate 64 0x30
  native_work := false
  session_size := by rw [List.length_replicate]; decide
  provider_size := by decide
  provider_form := by decide
  binding_size := List.length_replicate
  binding_form := fun unit hunit => by rw [List.eq_of_mem_replicate hunit]; rfl

def naturals : Numerals Nat where
  text := Nat.toDigits 10
  value numeral := numeral.foldl (fun value c => 10 * value + (c.toNat - 48)) 0

theorem control_characters_not_read :
    readControlledOpenCodeReference naturals
        (controlledOpenCodeReference naturals controlCharacters) =
      .error invalidReference := by
  have hsize : 1536 < controlCharacters.size := by
    have hsession : escapedBytes controlCharacters.session_id = 512 * 6 :=
      escapedBytes_replicate (by decide) 512
    unfold ControlledReference.size
    omega
  rw [read_encoded, bytes_json, if_neg (Nat.not_le_of_lt hsize)]

end HarnessControl.OpenCode
