import HarnessControl.Harnesses.PortableHistoryValues

/-!
# Rows of an item

When the rows of an item can be made, what they are before their check, and what the check makes of
each.
-/

namespace HarnessControl.Harnesses

open HarnessControl.Library HarnessControl.Library.JsonText

variable {ν : Type} {host : HistoryHost ν} {publish : Option (ContentPublisher ν)}
variable {item : NativeItem ν} {itemNamespace fallbackId : Units} {common : Common}

/-! ## Conversions -/

def ConvertsField (input : Option (Value ν)) : Prop := ∀ value, input = some value → value.Converts

theorem convertsField_some {value : Value ν} : ConvertsField (some value) ↔ value.Converts :=
  ⟨fun h => h value rfl, fun h _ heq => Option.some.inj heq ▸ h⟩

theorem convertsField_string (text : Units) : ConvertsField (some (.string text : Value ν)) := by
  rw [convertsField_some]
  unfold Value.Converts
  trivial

variable {input : Option (Value ν)}

theorem includesString_isSome {names : List String} :
    (includesString host names input).isSome = true ↔ ConvertsField input := by
  unfold includesString
  rw [Option.isSome_map]
  cases input with
  | none => exact ⟨(fun _ _ h => nomatch h), fun _ => rfl⟩
  | some value => rw [convertsField_some, stringOf, toText_isSome]

theorem elementText_isSome :
    (elementText host input).isSome = true ↔ ConvertsField input := by
  match input with
  | none => exact ⟨(fun _ _ h => nomatch h), fun _ => rfl⟩
  | some .null =>
    rw [convertsField_some]
    unfold Value.Converts
    exact ⟨fun _ => trivial, fun _ => rfl⟩
  | some (.bool _) | some (.number _) | some (.string _) | some (.array _) | some (.object _) =>
    rw [convertsField_some, elementText, toText_isSome]
    exact fun h => nomatch h

theorem elementTexts_some {inputs : List (Option (Value ν))} :
    (inputs.mapM (elementText host)).isSome = true ↔ ∀ input ∈ inputs, ConvertsField input := by
  induction inputs with
  | nil => simp
  | cons input rest ih =>
    rw [List.forall_mem_cons, ← ih, ← @elementText_isSome _ host, List.mapM_cons]
    cases elementText host input with
    | none => simp
    | some text => cases rest.mapM (elementText host) <;> simp

/-- The type of an item is converted to a string. -/
def ReadsType (item : NativeItem ν) (itemNamespace : Units) : Prop :=
  (nativeId (field item "native_call_reference")).isSome = true ∨
    itemNamespace = Utf16.text "codex"

theorem idOf_isSome (nativeCall : Option Units) :
    (idOf host item fallbackId nativeCall).isSome = true ↔
      (nativeCall.isSome = true → ConvertsField (field item "type")) := by
  cases nativeCall with
  | none => exact ⟨(fun _ h => nomatch h), fun _ => rfl⟩
  | some reference =>
    rw [idOf, Option.isSome_map, includesString_isSome]
    exact ⟨fun h _ => h, fun h => h rfl⟩

theorem nativeId_within {id : Units} (h : nativeId input = some id) :
    textWithin 1 512 id = true := by
  unfold nativeId at h
  split at h
  · split at h
    · cases h
      assumption
    · exact nomatch h
  · exact nomatch h

theorem nativeCallOf_isSome :
    (nativeCallOf host item itemNamespace).isSome = true ↔
      (nativeId (field item "native_call_reference") = none → itemNamespace = Utf16.text "codex" →
        ConvertsField (field item "type")) := by
  unfold nativeCallOf
  cases nativeId (field item "native_call_reference") with
  | some reference => exact ⟨(fun _ h => nomatch h), fun _ => rfl⟩
  | none =>
    by_cases hcodex : itemNamespace = Utf16.text "codex"
    · rw [hcodex, beq_self_eq_true]
      dsimp only
      rw [if_pos rfl, Option.isSome_map, includesString_isSome]
      exact ⟨fun h _ _ => h, fun h => h rfl rfl⟩
    · rw [beq_false_of_ne hcodex]
      exact ⟨fun _ _ h => absurd h hcodex, fun _ => rfl⟩

theorem nativeCallOf_some {nativeCall : Option Units}
    (h : nativeCallOf host item itemNamespace = some nativeCall) :
    (∀ reference, nativeId (field item "native_call_reference") = some reference →
      nativeCall = some reference) ∧
    (nativeCall.isSome = true → ReadsType item itemNamespace) ∧
    nativeCall.all (textWithin 1 512) = true := by
  unfold nativeCallOf at h
  cases hreference : nativeId (field item "native_call_reference") with
  | some reference =>
    rw [hreference] at h
    cases h
    refine ⟨fun _ heq => heq, fun _ => .inl (by rw [hreference]; rfl), ?_⟩
    exact nativeId_within hreference
  | none =>
    rw [hreference] at h
    refine ⟨(fun _ heq => nomatch heq), ?_⟩
    dsimp only at h
    by_cases hcodex : itemNamespace = Utf16.text "codex"
    · rw [hcodex, beq_self_eq_true, if_pos rfl] at h
      obtain ⟨included, _, rfl⟩ := Option.map_eq_some_iff.mp h
      refine ⟨fun _ => .inr hcodex, ?_⟩
      split
      · cases hid : nativeId (field item "id") with
        | none => rfl
        | some id => exact nativeId_within hid
      · rfl
    · rw [beq_false_of_ne hcodex] at h
      cases h
      exact ⟨(fun hsome => nomatch hsome), rfl⟩

theorem commonOf_isSome :
    (commonOf host item itemNamespace fallbackId).isSome = true ↔
      (ReadsType item itemNamespace → ConvertsField (field item "type")) := by
  have hcall := @nativeCallOf_isSome _ host item itemNamespace
  cases hnative : nativeCallOf host item itemNamespace with
  | none =>
    rw [hnative] at hcall
    simp only [commonOf, hnative, Option.bind_eq_bind, Option.bind_none]
    refine ⟨(fun h => nomatch h), fun h => ?_⟩
    exact absurd (hcall.mpr fun _ hcodex => h (.inr hcodex)) (by decide)
  | some nativeCall =>
    rw [hnative] at hcall
    have hid := @idOf_isSome _ host item fallbackId nativeCall
    obtain ⟨hreference, hreads, _⟩ := nativeCallOf_some hnative
    have hsome : (commonOf host item itemNamespace fallbackId).isSome =
        (idOf host item fallbackId nativeCall).isSome := by
      simp only [commonOf, hnative, Option.bind_eq_bind, Option.bind_some]
      cases idOf host item fallbackId nativeCall <;> rfl
    refine Iff.trans (Bool.eq_iff_iff.mp hsome) (hid.trans ?_)
    constructor
    · intro h htype
      obtain hsome | hcodex := htype
      · obtain ⟨reference, heq⟩ := Option.isSome_iff_exists.mp hsome
        exact h (by rw [hreference reference heq]; rfl)
      · cases heq : nativeId (field item "native_call_reference") with
        | none => exact hcall.mp rfl heq hcodex
        | some reference => exact h (by rw [hreference reference heq]; rfl)
    · exact fun h hsome => h (hreads hsome)

/-! ## The fields of every row -/

theorem commonOf_some (h : commonOf host item itemNamespace fallbackId = some common) :
    nativeCallOf host item itemNamespace = some common.nativeCallReference ∧
      idOf host item fallbackId common.nativeCallReference = some common.id ∧
      common.nativeItemReference = nativeItemOf item itemNamespace := by
  unfold commonOf at h
  simp only [Option.bind_eq_bind, Option.bind_eq_some_iff] at h
  obtain ⟨nativeCall, hcall, id, hid, heq⟩ := h
  cases heq
  exact ⟨hcall, hid, rfl⟩

theorem nativeItemOf_within : (nativeItemOf item itemNamespace).all (textWithin 1 512) = true := by
  unfold nativeItemOf
  cases hreference : nativeId (field item "native_item_reference") with
  | some reference => exact nativeId_within hreference
  | none =>
    show Option.all (textWithin 1 512)
      (if itemNamespace == Utf16.text "codex" then nativeId (field item "id") else none) = true
    split
    · cases hid : nativeId (field item "id") with
      | none => rfl
      | some id => exact nativeId_within hid
    · rfl

theorem textWithin_iff {least greatest : Nat} {text : Units} :
    textWithin least greatest text = true ↔ least ≤ text.length ∧ text.length ≤ greatest := by
  rw [textWithin, Bool.and_eq_true, decide_eq_true_iff, decide_eq_true_iff]

theorem ownId_pos (h : 1 ≤ fallbackId.length) : 1 ≤ (ownId item fallbackId).length := by
  unfold ownId
  split
  · split
    · exact h
    · rename_i text _ hempty
      rw [List.isEmpty_iff] at hempty
      exact List.length_pos_iff.mpr hempty
  · exact h

theorem idOf_some {nativeCall : Option Units} {id : Units}
    (h : idOf host item fallbackId nativeCall = some id) :
    (∃ reference, nativeCall = some reference ∧ id = reference ∧
      includesString host ["tool_call", "tool_result"] (field item "type") = some true) ∨
    id = ownId item fallbackId ∧
      (nativeCall.isSome = true →
        includesString host ["tool_call", "tool_result"] (field item "type") = some false) := by
  cases nativeCall with
  | none =>
    cases h
    exact .inr ⟨rfl, (fun hsome => nomatch hsome)⟩
  | some reference =>
    obtain ⟨included, hincluded, rfl⟩ := Option.map_eq_some_iff.mp h
    cases included with
    | true => exact .inl ⟨reference, rfl, rfl, hincluded⟩
    | false => exact .inr ⟨rfl, fun _ => hincluded⟩

theorem common_id_pos (hfallback : 1 ≤ fallbackId.length)
    (h : commonOf host item itemNamespace fallbackId = some common) : 1 ≤ common.id.length := by
  obtain ⟨hcall, hid, _⟩ := commonOf_some h
  obtain ⟨reference, heq, hidEq, _⟩ | ⟨hidEq, _⟩ := idOf_some hid
  · have hwithin := (nativeCallOf_some hcall).2.2
    rw [heq, Option.all_some, textWithin_iff] at hwithin
    rw [hidEq]
    exact hwithin.1
  · rw [hidEq]
    exact ownId_pos hfallback

def LongId (item : NativeItem ν) : Prop :=
  ∃ id, field item "id" = some (.string id) ∧ 512 < id.length

theorem ownId_long (hfallback : fallbackId.length ≤ 512) :
    512 < (ownId item fallbackId).length ↔ LongId item := by
  unfold ownId LongId
  split
  · rename_i text htext
    rw [htext]
    split
    · rename_i hempty
      rw [List.isEmpty_iff] at hempty
      constructor
      · intro h
        omega
      · rintro ⟨_, heq, hlength⟩
        cases heq
        rw [hempty] at hlength
        exact absurd hlength (by decide)
    · constructor
      · exact fun h => ⟨text, rfl, h⟩
      · rintro ⟨_, heq, hlength⟩
        cases heq
        exact hlength
  · rename_i hne
    constructor
    · intro h
      omega
    · rintro ⟨id, heq, _⟩
      exact absurd heq (hne id)

theorem shapeOf_name {shape : Shape} (h : shapeOf item = shape) (hne : shape ≠ .other) :
    ∃ name, (name, shape) ∈ shapeNames ∧ field item "type" = some (.string (Utf16.text name)) := by
  unfold shapeOf at h
  cases hfound : shapeNames.find? fun entry => isText entry.1 (field item "type") with
  | none =>
    rw [hfound] at h
    exact absurd h.symm hne
  | some entry =>
    rw [hfound] at h
    obtain ⟨name, found⟩ := entry
    have htext := List.find?_some hfound
    refine ⟨name, h ▸ List.mem_of_find?_eq_some hfound, ?_⟩
    dsimp only at htext
    unfold isText at htext
    split at htext
    · rename_i string heq
      rw [heq, eq_of_beq htext]
    · exact nomatch htext

theorem includesString_text (host : HistoryHost ν) (names : List String) {text : String}
    (h : field item "type" = some (.string (Utf16.text text))) :
    includesString host names (field item "type") =
      some (names.any fun name => Utf16.text text == Utf16.text name) := by
  rw [h, includesString, stringOf]
  unfold toText
  rfl

def Shape.isCall (shape : Shape) : Bool :=
  shape == .mcpToolCall || shape == .dynamicToolCall || shape == .toolCall

theorem toolCall_type (h : shapeOf item = .toolCall) :
    field item "type" = some (.string (Utf16.text "tool_call")) := by
  obtain ⟨name, hname, htype⟩ := shapeOf_name h (by decide)
  obtain rfl : name = "tool_call" := by simpa [shapeNames] using hname
  exact htype

theorem toolCall_nativeCall (h : shapeOf item = .toolCall) {nativeCall : Option Units}
    (hcall : nativeCallOf host item itemNamespace = some nativeCall) :
    nativeCall = nativeId (field item "native_call_reference") := by
  have hincluded :=
    includesString_text host ["mcpToolCall", "dynamicToolCall"] (toolCall_type h)
  rw [show ["mcpToolCall", "dynamicToolCall"].any (fun name =>
    Utf16.text "tool_call" == Utf16.text name) = false by decide] at hincluded
  unfold nativeCallOf at hcall
  cases hreference : nativeId (field item "native_call_reference") with
  | some reference =>
    rw [hreference] at hcall
    exact (Option.some.inj hcall).symm
  | none =>
    rw [hreference] at hcall
    dsimp only at hcall
    split at hcall
    · rw [hincluded] at hcall
      exact (Option.some.inj hcall).symm
    · exact (Option.some.inj hcall).symm

theorem call_long_iff (hcall : (shapeOf item).isCall = true) (hfallback : fallbackId.length ≤ 512)
    (h : commonOf host item itemNamespace fallbackId = some common) :
    512 < common.id.length ↔ LongId item ∧
      (shapeOf item = .toolCall → nativeId (field item "native_call_reference") = none) := by
  obtain ⟨hnative, hid, _⟩ := commonOf_some h
  by_cases hshape : shapeOf item = .toolCall
  · have hincluded :=
      includesString_text host ["tool_call", "tool_result"] (toolCall_type hshape)
    rw [show ["tool_call", "tool_result"].any (fun name =>
      Utf16.text "tool_call" == Utf16.text name) = true by decide] at hincluded
    have hreference := toolCall_nativeCall hshape hnative
    obtain ⟨reference, heq, hidEq, _⟩ | ⟨hidEq, hexcluded⟩ := idOf_some hid
    · have hwithin := (nativeCallOf_some hnative).2.2
      rw [heq, Option.all_some, textWithin_iff] at hwithin
      rw [hidEq]
      constructor
      · intro hlong
        omega
      · intro hlong
        rw [← hreference, heq] at hlong
        exact absurd (hlong.2 hshape) (by simp)
    · rw [hidEq, ownId_long hfallback]
      refine ⟨fun hlong => ⟨hlong, fun _ => ?_⟩, fun hlong => hlong.1⟩
      rw [← hreference]
      cases hcallReference : common.nativeCallReference with
      | none => rfl
      | some reference =>
        have hfalse := hexcluded (by rw [hcallReference]; rfl)
        rw [hincluded] at hfalse
        exact nomatch hfalse
  · have hname : ∃ name, field item "type" = some (.string (Utf16.text name)) ∧
        ["tool_call", "tool_result"].any
          (fun other => Utf16.text name == Utf16.text other) = false := by
      unfold Shape.isCall at hcall
      simp only [Bool.or_eq_true, beq_iff_eq] at hcall
      obtain (hmcp | hdynamic) | htool := hcall
      · obtain ⟨name, hname, htype⟩ := shapeOf_name hmcp (by decide)
        obtain rfl : name = "mcpToolCall" := by simpa [shapeNames] using hname
        exact ⟨_, htype, by decide⟩
      · obtain ⟨name, hname, htype⟩ := shapeOf_name hdynamic (by decide)
        obtain rfl : name = "dynamicToolCall" := by simpa [shapeNames] using hname
        exact ⟨_, htype, by decide⟩
      · exact absurd htool hshape
    obtain ⟨name, htype, hother⟩ := hname
    have hincluded := includesString_text host ["tool_call", "tool_result"] htype
    rw [hother] at hincluded
    obtain ⟨_, _, _, htrue⟩ | ⟨hidEq, _⟩ := idOf_some hid
    · rw [hincluded] at htrue
      exact nomatch htrue
    · rw [hidEq, ownId_long hfallback]
      exact ⟨fun hlong => ⟨hlong, fun heq => absurd heq hshape⟩, fun hlong => hlong.1⟩

end HarnessControl.Harnesses
