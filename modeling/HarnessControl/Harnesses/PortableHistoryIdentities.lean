import HarnessControl.Harnesses.PortableHistoryRows

/-!
# Identities of portable rows

The ids of the rows of one item, and the result of a call.
-/

namespace HarnessControl.Harnesses

open HarnessControl.Library HarnessControl.Library.JsonText

variable {ν : Type} {host : HistoryHost ν} {publish : Option (ContentPublisher ν)}
variable {item : NativeItem ν} {itemNamespace fallbackId : Units} {common : Common}

def RowBody.isToolCall : RowBody ν → Bool
  | .toolCall _ _ _ => true
  | _ => false

/-! ## Ids of attachments -/

/-- The digests of the ids of the first attachments differ. -/
def NoCollision (host : HistoryHost ν) (id : Units) (count : Nat) : Prop :=
  ∀ first < count, ∀ second < count,
    digestOf host (attachmentId id first) = digestOf host (attachmentId id second) →
      Utf16.toUtf8 (attachmentId id first) = Utf16.toUtf8 (attachmentId id second)

theorem units_injective {first second : List Char} (h : Utf16.units first = Utf16.units second) :
    first = second := by
  rw [← Utf16.characters_units first, h, Utf16.characters_units]

theorem toDigits_injective {first second : Nat}
    (h : Nat.toDigits 10 first = Nat.toDigits 10 second) : first = second := by
  rw [← @Nat.ofDigitChars_ten_toDigits first, h, Nat.ofDigitChars_ten_toDigits]

theorem attachmentId_injective {id : Units} {first second : Nat}
    (h : attachmentId id first = attachmentId id second) : first = second :=
  toDigits_injective (units_injective (List.append_cancel_left h))

theorem utf8_attachmentId_injective {id : Units} {first second : Nat}
    (h : Utf16.toUtf8 (attachmentId id first) = Utf16.toUtf8 (attachmentId id second)) :
    first = second := by
  have hbytes : ∀ index, Utf16.toUtf8 (attachmentId id index) =
      Utf16.toUtf8 id ++ Utf8.encode (":attachment:".toList ++ Nat.toDigits 10 index) := by
    intro index
    have hsplit : attachmentId id index =
        id ++ Utf16.units (":attachment:".toList ++ Nat.toDigits 10 index) := by
      rw [attachmentId, List.append_assoc, Utf16.text, Utf16.units, Utf16.units, Utf16.units,
        List.flatMap_append]
    rw [hsplit, Utf16.toUtf8_append (.inr (Utf16.units_closed _).2), Utf16.toUtf8_units]
  rw [hbytes, hbytes] at h
  have hdigits := congrArg Utf8.decode (List.append_cancel_left h)
  rw [Utf8.decode_encode, Utf8.decode_encode] at hdigits
  exact toDigits_injective (List.append_cancel_left hdigits)

theorem length_units_digits (index : Nat) :
    (Utf16.units (Nat.toDigits 10 index)).length = (Nat.toDigits 10 index).length := by
  rw [Utf16.units_ascii, List.length_map]
  intro c hin
  have hdigit := Nat.isDigit_of_mem_toDigits (by decide) (by decide) hin
  rw [Char.isDigit_iff_toNat] at hdigit
  have hnine : '9'.toNat = 57 := rfl
  omega

theorem length_attachmentId (id : Units) {index : Nat} (h : index < 2 ^ 32) :
    id.length + 13 ≤ (attachmentId id index).length ∧
      (attachmentId id index).length ≤ id.length + 22 := by
  have hpos := @Nat.length_toDigits_pos 10 index
  have hle := (@Nat.length_toDigits_le_iff 10 index 10 (by decide) (by decide)).mpr (by omega)
  have hmiddle : (Utf16.text ":attachment:").length = 12 := by decide
  rw [attachmentId, List.length_append, List.length_append, hmiddle, length_units_digits]
  omega

theorem length_resultId (host : HistoryHost ν) (id : Units) :
    (resultId host id).length = if id.length ≤ 505 then id.length + 7 else 71 := by
  have hprefix : (Utf16.text "result:").length = 7 := by decide
  unfold resultId digestOf
  split
  · rw [List.length_append, hprefix, Nat.add_comm]
  · rw [List.length_append, hprefix, host.length_digest]

theorem resultId_within (host : HistoryHost ν) (id : Units) :
    textWithin 1 512 (resultId host id) = true := by
  rw [textWithin_iff, length_resultId]
  split <;> omega

theorem resultId_ne (host : HistoryHost ν) (id : Units) : resultId host id ≠ id := by
  intro h
  have hlength := length_resultId host id
  rw [h] at hlength
  split at hlength <;> omega

theorem resultId_attachment_injective {id : Units} {count : Nat} (hcount : count ≤ 2 ^ 32)
    (hdigest : NoCollision host id count) {first second : Nat} (hfirst : first < count)
    (hsecond : second < count)
    (h : resultId host (attachmentId id first) = resultId host (attachmentId id second)) :
    first = second := by
  have hlengths := congrArg List.length h
  have hone := length_attachmentId id (Nat.lt_of_lt_of_le hfirst hcount)
  have htwo := length_attachmentId id (Nat.lt_of_lt_of_le hsecond hcount)
  rw [length_resultId, length_resultId] at hlengths
  have htail := List.append_cancel_left h
  by_cases hshort : (attachmentId id first).length ≤ 505
  · have hother : (attachmentId id second).length ≤ 505 := by
      by_contra hlong
      rw [if_pos hshort, if_neg hlong] at hlengths
      omega
    rw [if_pos hshort, if_pos hother] at htail
    exact attachmentId_injective htail
  · have hother : ¬ (attachmentId id second).length ≤ 505 := by
      intro hlong
      rw [if_neg hshort, if_pos hlong] at hlengths
      omega
    rw [if_neg hshort, if_neg hother] at htail
    exact utf8_attachmentId_injective (hdigest first hfirst second hsecond htail)

/-! ## Rows before their check -/

theorem attachmentRow_some (hpublish : ValidPublisher publish) {block : Value ν}
    (hblock : block.Keyed) (index : Nat) :
    ∃ body, attachmentRow host publish common itemNamespace index block =
        some (common.row (resultId host (attachmentId common.id index)) body) ∧
      rowBodySchema host body = true ∧ body.isToolCall = false := by
  unfold attachmentRow
  dsimp only
  split
  · rename_i kind source hmedia
    have hsource := keyed_source (nativeHistoryMedia_schema hmedia)
    obtain ⟨value, hvalue, hschema⟩ :=
      historyValue_some host hpublish (keyedField_some.mpr hsource)
    rw [hvalue]
    exact ⟨_, rfl, hschema, rfl⟩
  · obtain ⟨value, hvalue, hschema⟩ :=
      historyValue_some host hpublish (keyedField_some.mpr hblock)
    rw [hvalue]
    refine ⟨_, rfl, ?_, rfl⟩
    rw [rowBodySchema, hschema]
    decide

/-- The rows of attachments, of the indexes that they have among the blocks. -/
structure Attached (host : HistoryHost ν) (common : Common) (rows : List (Row ν))
    (indexes : List Nat) : Prop where
  ids : rows.map Row.id = indexes.map fun index => resultId host (attachmentId common.id index)
  nodup : indexes.Nodup
  rows : ∀ row ∈ rows, ∃ id body, row = common.row id body ∧ textWithin 1 512 id = true ∧
    rowBodySchema host body = true ∧ body.isToolCall = false

theorem attachmentRows_some (hpublish : ValidPublisher publish) {blocks : List (Value ν)}
    (hblocks : keyedItems blocks) (start : Nat) :
    ∃ rows indexes, attachmentRows host publish common itemNamespace start blocks = some rows ∧
      Attached host common rows indexes ∧
      ∀ index ∈ indexes, start ≤ index ∧ index < start + blocks.length := by
  induction blocks generalizing start with
  | nil =>
    exact ⟨[], [], rfl, ⟨rfl, .nil, (fun _ hin => nomatch hin)⟩, (fun _ hin => nomatch hin)⟩
  | cons block rest ih =>
    obtain ⟨rows, indexes, hrows, hattached, hrange⟩ := ih hblocks.2 (start + 1)
    unfold attachmentRows
    split
    · refine ⟨rows, indexes, hrows, hattached, ?_⟩
      intro index hin
      have hbounds := hrange index hin
      rw [List.length_cons]
      omega
    · obtain ⟨body, hrow, hschema, hcall⟩ :=
        @attachmentRow_some _ host _ itemNamespace common hpublish block hblocks.1 start
      rw [hrow, hrows]
      refine ⟨_, start :: indexes, rfl, ⟨?_, ?_, ?_⟩, ?_⟩
      · rw [List.map_cons, List.map_cons, hattached.ids]
        rfl
      · rw [List.nodup_cons]
        refine ⟨fun hin => ?_, hattached.nodup⟩
        have hbounds := hrange start hin
        omega
      · rw [List.forall_mem_cons]
        exact ⟨⟨_, body, rfl, resultId_within host _, hschema, hcall⟩, hattached.rows⟩
      · rw [List.forall_mem_cons]
        constructor
        · rw [List.length_cons]
          omega
        · intro index hin
          have hbounds := hrange index hin
          rw [List.length_cons]
          omega

inductive PortableRows (host : HistoryHost ν) (common : Common) (item : NativeItem ν) :
    List (Row ν) → Prop
  | single (id : Units) (body : RowBody ν)
    (h : (shapeOf item).isCall = true → toolOutcome item = none) :
    PortableRows host common item [common.row id body]
  | call (toolName : Option (Value ν)) (space : Option Units) (arguments result : HistoryValue ν)
    (hcall : (shapeOf item).isCall = true) (houtcome : toolOutcome item ≠ none)
    (hresult : historyValueSchema result = true) :
    PortableRows host common item
      [common.row common.id (.toolCall toolName space arguments),
        common.row (resultId host common.id) (.toolResult common.id result)]
  | user (value : HistoryValue ν) (rows : List (Row ν)) (indexes : List Nat)
    (hshape : shapeOf item = .userMessage) (hvalue : historyValueSchema value = true)
    (hrows : Attached host common rows indexes)
    (hindexes : ∀ index ∈ indexes, index < (contentBlocks item).length) :
    PortableRows host common item (common.row common.id (.message (literal "user") value) :: rows)

theorem single_shown (hpublish : ValidPublisher publish) {body : HistoryValue ν → RowBody ν}
    {input : Option (Value ν)} (hinput : KeyedField input)
    (hcall : (shapeOf item).isCall = false) :
    ∃ rows, single host publish common body input = some rows ∧ PortableRows host common item rows := by
  obtain ⟨value, hvalue, _⟩ := historyValue_some host hpublish hinput
  unfold single
  rw [hvalue]
  exact ⟨_, rfl, .single _ _ fun h => by rw [hcall] at h; exact nomatch h⟩

theorem toolCallRows_shown (hpublish : ValidPublisher publish) (hkeyed : keyedMembers item)
    (hcall : (shapeOf item).isCall = true) :
    ∃ rows, toolCallRows host publish common item = some rows ∧ PortableRows host common item rows := by
  obtain ⟨arguments, harguments, _⟩ :=
    historyValue_some host hpublish (keyedField_field hkeyed "arguments")
  unfold toolCallRows
  rw [harguments]
  simp only [Option.bind_eq_bind, Option.bind_some]
  cases houtcome : toolOutcome item with
  | none => exact ⟨_, rfl, .single _ _ fun _ => houtcome⟩
  | some outcome =>
    have hkeyedOutcome := keyedField_toolOutcome hkeyed
    rw [houtcome] at hkeyedOutcome
    obtain ⟨result, hresult, hschema⟩ := historyValue_some host hpublish hkeyedOutcome
    unfold resultRow
    dsimp only
    rw [hresult]
    exact ⟨_, rfl, .call _ _ _ _ hcall (by rw [houtcome]; exact nofun) hschema⟩

theorem commandRows_shown (hpublish : ValidPublisher publish) (hkeyed : keyedMembers item)
    (hcall : (shapeOf item).isCall = false) :
    ∃ rows, commandRows host publish common item = some rows ∧ PortableRows host common item rows := by
  obtain ⟨command, hcommand, _⟩ :=
    historyValue_some host hpublish (keyedField_field hkeyed "command")
  obtain ⟨output, houtput, _⟩ :=
    historyValue_some host hpublish (keyedField_field hkeyed "aggregatedOutput")
  have hshown (body : RowBody ν) : PortableRows host common item [common.row common.id body] :=
    .single _ _ fun h => by rw [hcall] at h; exact nomatch h
  unfold commandRows
  rw [hcommand, houtput]
  simp only [Option.bind_eq_bind, Option.bind_some, Option.map_some]
  split
  · exact ⟨_, rfl, hshown _⟩
  · exact ⟨_, rfl, hshown _⟩

theorem userMessageRows_shown (hpublish : ValidPublisher publish) (hkeyed : keyedMembers item)
    (hshape : shapeOf item = .userMessage)
    (htexts : ∀ input ∈ blockTexts item, ConvertsField input) :
    ∃ rows, userMessageRows host publish common item itemNamespace = some rows ∧
      PortableRows host common item rows := by
  obtain ⟨texts, hmap⟩ := Option.isSome_iff_exists.mp ((@elementTexts_some _ host _).mpr htexts)
  obtain ⟨value, hvalue, hschema⟩ :=
    historyValue_some host hpublish (keyedField_string (joined "\n" texts))
  have hblocks : keyedItems (contentBlocks item) := by
    unfold contentBlocks
    split
    · rename_i blocks heq
      have hfield := keyedField_field hkeyed "content" _ heq
      unfold Value.Keyed at hfield
      exact hfield
    · trivial
  obtain ⟨rows, indexes, hrows, hattached, hrange⟩ :=
    @attachmentRows_some _ host _ itemNamespace common hpublish _ hblocks 0
  unfold userMessageRows
  rw [hmap, hrows]
  simp only [Option.bind_eq_bind, Option.bind_some]
  rw [hvalue]
  refine ⟨_, rfl, .user value rows indexes hshape hschema hattached ?_⟩
  intro index hin
  have hbounds := hrange index hin
  omega

theorem nativeMediaRows_shown (hpublish : ValidPublisher publish) (hkeyed : keyedMembers item)
    (hcall : (shapeOf item).isCall = false) :
    ∃ rows, nativeMediaRows host publish common item itemNamespace = some rows ∧
      PortableRows host common item rows := by
  unfold nativeMediaRows
  split
  · rename_i kind source hmedia
    exact single_shown hpublish
      (keyedField_some.mpr (keyed_source (nativeHistoryMedia_schema hmedia))) hcall
  · exact single_shown hpublish (keyedField_field hkeyed _) hcall

theorem fileChangeRows_shown (hpublish : ValidPublisher publish)
    (hkeyed : (Value.object item).Keyed) (hcall : (shapeOf item).isCall = false) :
    ∃ rows, fileChangeRows host publish common item itemNamespace = some rows ∧
      PortableRows host common item rows := by
  unfold fileChangeRows
  split
  · rename_i changes hchanges
    exact single_shown hpublish (keyedField_some.mpr (keyedField_fileChanges item _ hchanges)) hcall
  · exact single_shown hpublish (keyedField_some.mpr hkeyed) hcall

theorem messageRole_isSome :
    (messageRole host item).isSome = true ↔
      (shapeOf item ≠ .agentMessage → ConvertsField (field item "role")) := by
  unfold messageRole
  split
  · rename_i heq
    exact ⟨fun _ hne => absurd heq hne, fun _ => rfl⟩
  · rename_i hne
    rw [Option.isSome_map, includesString_isSome]
    exact ⟨fun h _ => h, fun h => h hne⟩

theorem rowsOf_shown (hpublish : ValidPublisher publish) (hkeyed : (Value.object item).Keyed)
    (hrole : shapeOf item = .text → ConvertsField (field item "role"))
    (htexts : shapeOf item = .userMessage → ∀ input ∈ blockTexts item, ConvertsField input) :
    ∃ rows, rowsOf host publish common item itemNamespace = some rows ∧
      PortableRows host common item rows := by
  have hmembers : keyedMembers item := by
    unfold Value.Keyed at hkeyed
    exact hkeyed.2
  have hfield := keyedField_field hmembers
  have hmessage (hrole : (messageRole host item).isSome = true)
      (hcall : (shapeOf item).isCall = false) :
      ∃ rows, ((messageRole host item).bind fun role =>
          single host publish common (.message role) (field item "text")) = some rows ∧
        PortableRows host common item rows := by
    obtain ⟨role, heq⟩ := Option.isSome_iff_exists.mp hrole
    rw [heq]
    exact single_shown hpublish (hfield _) hcall
  unfold rowsOf
  cases hshape : shapeOf item with
  | text =>
    exact hmessage (messageRole_isSome.mpr fun _ => hrole hshape) (by rw [hshape]; rfl)
  | agentMessage =>
    exact hmessage (messageRole_isSome.mpr fun hne => absurd hshape hne) (by rw [hshape]; rfl)
  | userMessage => exact userMessageRows_shown hpublish hmembers hshape (htexts hshape)
  | nativeMedia => exact nativeMediaRows_shown hpublish hmembers (by rw [hshape]; rfl)
  | reasoning =>
    exact single_shown hpublish
      (keyedField_nullish (keyedField_nullish (hfield _) (hfield _)) (hfield _))
      (by rw [hshape]; rfl)
  | mcpToolCall => exact toolCallRows_shown hpublish hmembers (by rw [hshape]; rfl)
  | dynamicToolCall => exact toolCallRows_shown hpublish hmembers (by rw [hshape]; rfl)
  | toolCall => exact toolCallRows_shown hpublish hmembers (by rw [hshape]; rfl)
  | toolResult =>
    obtain ⟨result, hresult, _⟩ := historyValue_some host hpublish (hfield "content")
    dsimp only
    unfold resultRow
    rw [hresult]
    exact ⟨_, rfl, .single _ _ fun h => by rw [hshape] at h; exact nomatch h⟩
  | commandExecution => exact commandRows_shown hpublish hmembers (by rw [hshape]; rfl)
  | fileChange => exact fileChangeRows_shown hpublish hkeyed (by rw [hshape]; rfl)
  | plan =>
    exact single_shown hpublish (keyedField_nullish (hfield _) (hfield _)) (by rw [hshape]; rfl)
  | contextCompaction =>
    exact single_shown hpublish (keyedField_nullish (hfield _) (hfield _)) (by rw [hshape]; rfl)
  | other =>
    exact single_shown hpublish
      (keyedField_nullish (hfield _) (keyedField_some.mpr hkeyed)) (by rw [hshape]; rfl)

/-! ## The check of a row -/

/-- What the fields of every row and the arguments of the translation are bounded by. -/
structure Bounds (common : Common) (itemNamespace : Units) : Prop where
  id : 1 ≤ common.id.length
  item : common.nativeItemReference.all (textWithin 1 512) = true
  call : common.nativeCallReference.all (textWithin 1 512) = true
  itemNamespace : textWithin 1 128 itemNamespace = true

theorem row_schema (hbounds : Bounds common itemNamespace) {id : Units} {body : RowBody ν} :
    portableHistoryItemSchema host (common.row id body) = true ↔
      textWithin 1 512 id = true ∧ rowBodySchema host body = true := by
  have hitem := hbounds.item
  have hcall := hbounds.call
  unfold portableHistoryItemSchema Common.row
  dsimp only
  rw [hitem, hcall, Bool.and_true, Bool.and_true, Bool.and_eq_true]

/-- The id of the row that takes the place of a refused one. -/
def replacedId (host : HistoryHost ν) (common : Common) : Units :=
  if 512 < common.id.length then digestOf host common.id else common.id

theorem replacedId_within (h : 1 ≤ common.id.length) :
    textWithin 1 512 (replacedId host common) = true := by
  rw [textWithin_iff]
  unfold replacedId digestOf
  split
  · rw [host.length_digest]
    omega
  · omega

theorem fallbackName_within : textWithin 1 512 (fallbackName item) = true := by
  unfold fallbackName
  split
  · rename_i text _
    split
    · decide
    · rename_i hne
      rw [List.isEmpty_iff] at hne
      rw [textWithin_iff]
      exact ⟨List.length_pos_iff.mpr hne, List.length_take_le 512 text⟩
  · decide

theorem checkedRow_some (hpublish : ValidPublisher publish) (hkeyed : (Value.object item).Keyed)
    (hbounds : Bounds common itemNamespace) (row : Row ν) :
    ∃ checked, checkedRow host publish common item itemNamespace row = some checked ∧
      portableHistoryItemSchema host checked = true ∧
      (portableHistoryItemSchema host row = true → checked = row) ∧
      (portableHistoryItemSchema host row = false →
        checked.id = replacedId host common ∧ checked.body.isToolCall = false) := by
  obtain ⟨value, hvalue, hschema⟩ := historyValue_some host hpublish (keyedField_some.mpr hkeyed)
  unfold checkedRow
  cases hrow : portableHistoryItemSchema host row with
  | true => exact ⟨row, rfl, hrow, fun _ => rfl, fun h => nomatch h⟩
  | false =>
    have hvalid : portableHistoryItemSchema host (common.row (replacedId host common)
        (.extension itemNamespace (fallbackName item) value)) = true := by
      rw [row_schema hbounds, rowBodySchema, hbounds.itemNamespace, fallbackName_within, hschema]
      exact ⟨replacedId_within hbounds.id, rfl⟩
    refine ⟨_, ?_, hvalid, (fun h => nomatch h), fun _ => ⟨rfl, rfl⟩⟩
    rw [if_neg (by decide), hvalue]
    simp only [Option.bind_eq_bind, Option.bind_some]
    exact if_pos hvalid

theorem checkedRow_kept {row : Row ν} (h : portableHistoryItemSchema host row = true) :
    checkedRow host publish common item itemNamespace row = some row := if_pos h

theorem mapM_checkedRow_kept {rows : List (Row ν)}
    (h : ∀ row ∈ rows, portableHistoryItemSchema host row = true) :
    rows.mapM (checkedRow host publish common item itemNamespace) = some rows := by
  induction rows with
  | nil => rfl
  | cons row rest ih =>
    rw [List.forall_mem_cons] at h
    rw [List.mapM_cons, checkedRow_kept h.1, ih h.2]
    rfl

end HarnessControl.Harnesses
