import HarnessControl.OpenCode.TextProjection

/-!
# Values in retained content

JSON values whose strings may hold any UTF-16 units, and the bytes of their text.  A string has no
more bytes than the text that `JSON.stringify` makes of it.
-/

namespace HarnessControl.Sdk

open HarnessControl.Library HarnessControl.Connection HarnessControl.OpenCode

/-! ## JSON values -/

mutual

inductive JsonValue where
  | null
  | bool (value : Bool)
  /-- A number with its text. -/
  | number (text : List Char)
  | string (text : Text)
  | array (elements : JsonElements)
  | object (members : JsonMembers)

inductive JsonElements where
  | nil
  | cons (head : JsonValue) (tail : JsonElements)

inductive JsonMembers where
  | nil
  | cons (key : Text) (value : JsonValue) (tail : JsonMembers)

end

/-- `texts.join(",")`. -/
def joinComma : List (List Char) → List Char
  | [] => []
  | [text] => text
  | text :: rest => text ++ ',' :: joinComma rest

mutual

/-- `JSON.stringify`. -/
def JsonValue.stringify : JsonValue → List Char
  | .null => "null".toList
  | .bool value => if value then "true".toList else "false".toList
  | .number text => text
  | .string text => stringified text
  | .array elements => '[' :: joinComma elements.stringify ++ [']']
  | .object members => '\x7b' :: joinComma members.stringify ++ ['\x7d']

def JsonElements.stringify : JsonElements → List (List Char)
  | .nil => []
  | .cons head tail => head.stringify :: tail.stringify

def JsonMembers.stringify : JsonMembers → List (List Char)
  | .nil => []
  | .cons key value tail => (stringified key ++ ':' :: value.stringify) :: tail.stringify

end

/-- `encoder.encode(JSON.stringify(value)).byteLength`. -/
def JsonValue.bytes (value : JsonValue) : Nat := (Utf8.encode value.stringify).length

/-- `encoder.encode(text).byteLength`. -/
def textSize (text : Text) : Nat := (Utf16.toUtf8 text).length

/-! ## Native reasoning -/

structure ReasoningContent where
  summary : List Text
  content : List Text

def summaryKey : Text := Utf16.text "summary"

def contentKey : Text := Utf16.text "content"

def textElements : List Text → JsonElements
  | [] => .nil
  | text :: rest => .cons (.string text) (textElements rest)

/-- `z.array(z.string())`. -/
def readTexts : JsonElements → Option (List Text)
  | .nil => some []
  | .cons (.string text) rest => (readTexts rest).map (text :: ·)
  | .cons _ _ => none

/-- `z.array(z.string()).max(4096)`. -/
def readSegments : JsonValue → Option (List Text)
  | .array elements => (readTexts elements).bind fun texts =>
    if texts.length ≤ 4096 then some texts else none
  | _ => none

def protoKey : Text := Utf16.text "__proto__"

/-- The members that a strict object looks at: it passes over an own key `__proto__`. -/
def JsonMembers.seen : JsonMembers → JsonMembers
  | .nil => .nil
  | .cons key value tail => if key = protoKey then tail.seen else .cons key value tail.seen

def JsonMembers.get? : JsonMembers → Text → Option JsonValue
  | .nil, _ => none
  | .cons key value tail, name => if key = name then some value else tail.get? name

/-- `harnessNativeReasoningContentSchema`: both fields, in either order, and no other. -/
def reasoningContentSchema : JsonValue → Option ReasoningContent
  | .object members =>
    match members.seen with
    | .cons first a (.cons second b .nil) =>
      if first = summaryKey ∧ second = contentKey then
        (readSegments a).bind fun summary => (readSegments b).map fun content => ⟨summary, content⟩
      else if first = contentKey ∧ second = summaryKey then
        (readSegments b).bind fun summary => (readSegments a).map fun content => ⟨summary, content⟩
      else none
    | _ => none
  | _ => none

namespace ReasoningContent

/-- The value that `JSON.stringify` is given. -/
def value (reasoning : ReasoningContent) : JsonValue :=
  .object (.cons summaryKey (.array (textElements reasoning.summary))
    (.cons contentKey (.array (textElements reasoning.content)) .nil))

end ReasoningContent

theorem readTexts_some {elements : JsonElements} {texts : List Text}
    (h : readTexts elements = some texts) : elements = textElements texts := by
  match elements with
  | .nil =>
    obtain rfl := Option.some.inj h
    rfl
  | .cons (.string text) rest =>
    rw [readTexts] at h
    obtain ⟨others, hothers, rfl⟩ := Option.map_eq_some_iff.mp h
    rw [readTexts_some hothers]
    rfl
  | .cons .null _ => cases h
  | .cons (.bool _) _ => cases h
  | .cons (.number _) _ => cases h
  | .cons (.array _) _ => cases h
  | .cons (.object _) _ => cases h

theorem readSegments_some {value : JsonValue} {texts : List Text}
    (h : readSegments value = some texts) : value = .array (textElements texts) := by
  cases value with
  | array elements =>
    obtain ⟨read, hread, hbound⟩ := Option.bind_eq_some_iff.mp h
    split at hbound
    · obtain rfl := Option.some.inj hbound
      rw [readTexts_some hread]
    · cases hbound
  | _ => cases h

theorem JsonMembers.get?_seen {name : Text} (hname : name ≠ protoKey) (members : JsonMembers) :
    members.seen.get? name = members.get? name := by
  match members with
  | .nil => rfl
  | .cons key value tail =>
    rw [seen]
    by_cases hkey : key = protoKey
    · rw [if_pos hkey, get?_seen hname tail, get?, if_neg (hkey ▸ Ne.symm hname)]
    · rw [if_neg hkey, get?, get?, get?_seen hname tail]

theorem bytes_joinComma_cons (text : List Char) (rest : List (List Char)) :
    (Utf8.encode (joinComma (text :: rest))).length = (Utf8.encode text).length +
      if rest = [] then 0 else 1 + (Utf8.encode (joinComma rest)).length := by
  cases rest with
  | nil => rfl
  | cons next others =>
    have hcomma : (String.utf8EncodeChar ',').length = 1 := by decide
    rw [joinComma, Utf8.encode_append, Utf8.encode_cons, List.length_append, List.length_append,
      hcomma, if_neg (List.cons_ne_nil _ _)]
    exact List.cons_ne_nil _ _

theorem JsonMembers.bytes_seen (members : JsonMembers) :
    (Utf8.encode (joinComma members.seen.stringify)).length ≤
      (Utf8.encode (joinComma members.stringify)).length := by
  match members with
  | .nil => exact le_refl _
  | .cons key value tail =>
    have ih := bytes_seen tail
    rw [seen, stringify, bytes_joinComma_cons]
    by_cases hkey : key = protoKey
    · rw [if_pos hkey]
      split
      · rename_i hnil
        rw [hnil] at ih
        exact Nat.le_trans ih (Nat.zero_le _)
      · omega
    · rw [if_neg hkey, stringify, bytes_joinComma_cons]
      cases tail with
      | nil => exact le_refl _
      | cons next other more =>
        rw [if_neg (show (JsonMembers.cons next other more).stringify ≠ [] from
          List.cons_ne_nil _ _)]
        split <;> omega

theorem JsonMembers.bytes_object (members : JsonMembers) :
    (JsonValue.object members).bytes =
      (Utf8.encode (joinComma members.stringify)).length + 2 := by
  have hopen : (String.utf8EncodeChar '\x7b').length = 1 := by decide
  have hclose : (Utf8.encode ['\x7d']).length = 1 := by decide
  unfold JsonValue.bytes
  rw [JsonValue.stringify, List.cons_append, Utf8.encode_cons, List.length_append,
    Utf8.encode_append, List.length_append, hopen, hclose]
  omega

theorem reasoningContentSchema_some {value : JsonValue} {reasoning : ReasoningContent}
    (h : reasoningContentSchema value = some reasoning) :
    ∃ members, value = .object members ∧
      members.get? summaryKey = some (.array (textElements reasoning.summary)) ∧
      members.get? contentKey = some (.array (textElements reasoning.content)) ∧
      reasoning.value.bytes ≤ value.bytes := by
  cases value with
  | object members =>
    have hsummary : members.seen.get? summaryKey = members.get? summaryKey :=
      members.get?_seen (by decide)
    have hcontent : members.seen.get? contentKey = members.get? contentKey :=
      members.get?_seen (by decide)
    have hbytes := members.bytes_seen
    have hother : contentKey ≠ summaryKey := by decide
    unfold reasoningContentSchema at h
    dsimp only at h
    split at h
    · rename_i first a second b hseen
      rw [hseen] at hsummary hcontent hbytes
      refine ⟨members, rfl, ?_⟩
      rw [← hsummary, ← hcontent, JsonMembers.bytes_object]
      split at h
      · rename_i hkeys
        obtain ⟨summary, hread, hrest⟩ := Option.bind_eq_some_iff.mp h
        obtain ⟨content, hread', rfl⟩ := Option.map_eq_some_iff.mp hrest
        obtain rfl := readSegments_some hread
        obtain rfl := readSegments_some hread'
        obtain ⟨rfl, rfl⟩ := hkeys
        refine ⟨if_pos rfl, (if_neg hother.symm).trans (if_pos rfl), ?_⟩
        unfold ReasoningContent.value
        rw [JsonMembers.bytes_object]
        exact Nat.add_le_add_right hbytes 2
      · split at h
        · rename_i hkeys
          obtain ⟨summary, hread, hrest⟩ := Option.bind_eq_some_iff.mp h
          obtain ⟨content, hread', rfl⟩ := Option.map_eq_some_iff.mp hrest
          obtain rfl := readSegments_some hread
          obtain rfl := readSegments_some hread'
          obtain ⟨rfl, rfl⟩ := hkeys
          refine ⟨(if_neg hother).trans (if_pos rfl), if_pos rfl, ?_⟩
          unfold ReasoningContent.value
          rw [JsonMembers.bytes_object]
          simp only [JsonMembers.stringify, bytes_joinComma_cons] at hbytes ⊢
          simp only [List.cons_ne_nil, if_false, if_true] at hbytes ⊢
          omega
        · cases h
    · cases h
  | _ => cases h

/-! ## The bytes of a string -/

theorem escapeChar_ne_nil (c : Char) : escapeChar c ≠ [] := by
  unfold escapeChar
  repeat' split
  all_goals exact List.cons_ne_nil _ _

theorem bytes_escapeChar (c : Char) :
    (Utf8.encode [c]).length ≤ (Utf8.encode (escapeChar c)).length := by
  by_cases hascii : c.toNat < 0x80
  · have hone : c.utf8Size = 1 := by
      rw [Char.utf8Size_eq_one_iff, UInt32.le_iff_toNat_le]
      exact Nat.le_of_lt_succ hascii
    have hbytes : (Utf8.encode [c]).length = 1 := by
      rw [Utf8.encode_cons, List.length_append, String.length_utf8EncodeChar, hone]
      rfl
    obtain ⟨d, rest, hescape⟩ := List.exists_cons_of_ne_nil (escapeChar_ne_nil c)
    rw [hbytes, hescape]
    exact Utf8.length_encode_pos d rest
  · have hne : ∀ d : Char, d.toNat < 0x80 → c ≠ d := by
      rintro d hd rfl
      exact hascii hd
    rw [escapeChar_plain (hne _ (by decide)) (hne _ (by decide)) (by omega)]

theorem bytes_escapePoint (point : Text) :
    (Utf8.encode (Utf16.characters point)).length ≤ (Utf8.encode (escapePoint point)).length := by
  unfold escapePoint
  split
  · rename_i unit
    by_cases hsurrogate : (Utf16.isHigh unit || Utf16.isLow unit) = true
    · have hcharacters : Utf16.characters [unit] = [Utf8.replacement] := by
        rw [Utf16.characters]
        split
        · rfl
        · rename_i hhigh
          rw [Bool.or_eq_true, or_iff_right hhigh] at hsurrogate
          rw [if_pos hsurrogate]
          rfl
      have hreplacement : (Utf8.encode [Utf8.replacement]).length = 3 := by decide
      rw [if_pos hsurrogate, hcharacters, hreplacement]
      have hescape := Utf8.length_le_encode ['\\', 'u', hexDigit (unit.toNat / 4096),
        hexDigit (unit.toNat / 256 % 16), hexDigit (unit.toNat / 16 % 16),
        hexDigit (unit.toNat % 16)]
      exact Nat.le_trans (by simp) hescape
    · rw [if_neg hsurrogate]
      rw [Bool.or_eq_true, not_or] at hsurrogate
      have hcharacters : Utf16.characters [unit] = [Char.ofNat unit.toNat] := by
        rw [Utf16.characters, if_neg hsurrogate.1, if_neg hsurrogate.2]
        rfl
      rw [hcharacters]
      exact bytes_escapeChar _
  · exact le_refl _

theorem bytes_flatMap (points : List Text) :
    (Utf8.encode (points.flatMap Utf16.characters)).length ≤
      (Utf8.encode (points.flatMap escapePoint)).length := by
  induction points with
  | nil => exact le_refl _
  | cons point rest ih =>
    have hpoint := bytes_escapePoint point
    rw [List.flatMap_cons, List.flatMap_cons, Utf8.encode_append, Utf8.encode_append,
      List.length_append, List.length_append]
    omega

theorem bytes_stringified (text : Text) :
    textSize text ≤ (Utf8.encode (stringified text)).length := by
  have hpoints := bytes_flatMap (Utf16.codePoints text)
  rw [Utf16.flatMap_codePoints] at hpoints
  unfold textSize Utf16.toUtf8 stringified
  rw [Utf8.encode_append, List.length_append, Utf8.encode_cons, List.length_append]
  omega

end HarnessControl.Sdk
