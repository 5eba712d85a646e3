import HarnessControl.Library.JsonEquality

/-!
# JSON values as strings

`String(value)` of a value that was read from JSON.  An object converts by the function it inherits,
unless a member of its own is in the place of that function.
-/

namespace HarnessControl.Library.JsonText

variable {ν : Type}

/-- `texts.join(separator)` -/
def joined (separator : String) (texts : List Units) : Units :=
  (Utf16.text separator).intercalate texts

mutual

/-- `String(value)`, which throws for `none`. -/
def toText (numerals : Numerals ν) : Value ν → Option Units
  | .null => some (Utf16.text "null")
  | .bool value => some (Utf16.text (if value then "true" else "false"))
  | .number value => some (Utf16.units (numerals.text value))
  | .string value => some value
  | .array items => (elementTexts numerals items).map (joined ",")
  | .object members =>
    if (members.lookup (Utf16.text "toString")).isSome then none
    else some (Utf16.text "[object Object]")

/-- The strings that `join` joins, where null is an empty string. -/
def elementTexts (numerals : Numerals ν) : List (Value ν) → Option (List Units)
  | [] => some []
  | .null :: rest => (elementTexts numerals rest).map ([] :: ·)
  | item :: rest =>
    (toText numerals item).bind fun text => (elementTexts numerals rest).map (text :: ·)

end

mutual

/-- No object of the value that would be converted has a member `toString`. -/
def Value.Converts : Value ν → Prop
  | .array items => convertsItems items
  | .object members => members.lookup (Utf16.text "toString") = none
  | _ => True

def convertsItems : List (Value ν) → Prop
  | [] => True
  | item :: rest => item.Converts ∧ convertsItems rest

end

mutual

theorem toText_isSome (numerals : Numerals ν) : (value : Value ν) →
    ((toText numerals value).isSome = true ↔ value.Converts)
  | .null | .bool _ | .number _ | .string _ => by
    unfold toText Value.Converts
    exact ⟨fun _ => trivial, fun _ => rfl⟩
  | .array items => by
    unfold toText Value.Converts
    rw [Option.isSome_map, elementTexts_isSome numerals items]
  | .object members => by
    unfold toText Value.Converts
    cases members.lookup (Utf16.text "toString") <;> simp

theorem elementTexts_isSome (numerals : Numerals ν) : (items : List (Value ν)) →
    ((elementTexts numerals items).isSome = true ↔ convertsItems items)
  | [] => by simp [elementTexts, convertsItems]
  | item :: rest => by
    have hrest := elementTexts_isSome numerals rest
    have hitem := toText_isSome numerals item
    unfold convertsItems
    rw [← hrest, ← hitem]
    cases item with
    | null => simp [elementTexts, toText]
    | _ =>
      simp only [elementTexts]
      generalize toText numerals _ = text
      cases text <;> simp

end

end HarnessControl.Library.JsonText
