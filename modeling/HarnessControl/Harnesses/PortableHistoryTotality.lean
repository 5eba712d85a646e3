import HarnessControl.Harnesses.PortableHistoryIdentities

/-!
# Translation of every item

The translation of an item throws where a value without a string is converted, and gives two rows of
one id where both rows of a call are refused for the id of the item.  Otherwise it keeps identities.
-/

namespace HarnessControl.Harnesses

open HarnessControl.Library HarnessControl.Library.JsonText

variable {ν : Type} {host : HistoryHost ν} {publish : Option (ContentPublisher ν)}
variable {item : NativeItem ν} {itemNamespace fallbackId : Units} {common : Common}

/-- Rows that a client can show, know apart and relate. -/
structure Portable (host : HistoryHost ν) (rows : List (Row ν)) : Prop where
  nonempty : rows ≠ []
  schema : ∀ row ∈ rows, portableHistoryItemSchema host row = true
  ids : (rows.map Row.id).Nodup
  paired : rows.Pairwise fun call result => call.body.isToolCall = true →
    ∃ value, result.body = .toolResult call.id value

structure Converted (item : NativeItem ν) (itemNamespace : Units) : Prop where
  type : ReadsType item itemNamespace → ConvertsField (field item "type")
  role : shapeOf item = .text → ConvertsField (field item "role")
  texts : shapeOf item = .userMessage → ∀ input ∈ blockTexts item, ConvertsField input

/-- A call with a result, whose id is the item's own and is longer than an id may be. -/
structure LongCall (item : NativeItem ν) : Prop where
  call : (shapeOf item).isCall = true
  outcome : toolOutcome item ≠ none
  id : LongId item
  reference : shapeOf item = .toolCall → nativeId (field item "native_call_reference") = none

theorem replacedId_short (h : common.id.length ≤ 512) : replacedId host common = common.id :=
  if_neg (Nat.not_lt.mpr h)

theorem checked_id (hpublish : ValidPublisher publish) (hkeyed : (Value.object item).Keyed)
    (hbounds : Bounds common itemNamespace) (body : RowBody ν) :
    ∃ checked, checkedRow host publish common item itemNamespace (common.row common.id body) =
        some checked ∧ portableHistoryItemSchema host checked = true ∧
      checked.id = replacedId host common ∧
      (checked.body.isToolCall = true → checked = common.row common.id body) := by
  obtain ⟨checked, heq, hschema, hkept, hreplaced⟩ :=
    @checkedRow_some _ host _ _ _ _ hpublish hkeyed hbounds (common.row common.id body)
  refine ⟨checked, heq, hschema, ?_⟩
  cases hrow : portableHistoryItemSchema host (common.row common.id body) with
  | true =>
    have hid := ((row_schema hbounds).mp hrow).1
    rw [hkept hrow]
    exact ⟨(replacedId_short (textWithin_iff.mp hid).2).symm, fun _ => rfl⟩
  | false =>
    obtain ⟨hid, hcall⟩ := hreplaced hrow
    refine ⟨hid, fun h => ?_⟩
    rw [hcall] at h
    exact nomatch h

theorem replacedId_ne_attachment {index : Nat} (hindex : index < 2 ^ 32) :
    replacedId host common ≠ resultId host (attachmentId common.id index) := by
  intro h
  have hlengths := congrArg List.length h
  have hbounds := length_attachmentId common.id hindex
  rw [length_resultId] at hlengths
  unfold replacedId digestOf at hlengths
  split at hlengths
  · rw [host.length_digest] at hlengths
    split at hlengths <;> omega
  · split at hlengths <;> omega

theorem Attached.ids_nodup {rows : List (Row ν)} {indexes : List Nat}
    (h : Attached host common rows indexes) {count : Nat} (hcount : count ≤ 2 ^ 32)
    (hdigest : NoCollision host common.id count) (hindexes : ∀ index ∈ indexes, index < count) :
    (rows.map Row.id).Nodup := by
  rw [h.ids]
  apply h.nodup.map_on
  intro first hfirst second hsecond heq
  exact resultId_attachment_injective hcount hdigest (hindexes first hfirst)
    (hindexes second hsecond) heq

theorem checked_portable (hpublish : ValidPublisher publish) (hkeyed : (Value.object item).Keyed)
    (harray : (contentBlocks item).length < 2 ^ 32) (hbounds : Bounds common itemNamespace)
    (hdigest : NoCollision host common.id (contentBlocks item).length)
    (hshort : (shapeOf item).isCall = true → toolOutcome item ≠ none → common.id.length ≤ 512)
    {rows : List (Row ν)} (hshown : PortableRows host common item rows) :
    ∃ checked, rows.mapM (checkedRow host publish common item itemNamespace) = some checked ∧
      Portable host checked := by
  cases hshown with
  | single id body _ =>
    obtain ⟨checked, heq, hschema, _⟩ :=
      @checkedRow_some _ host _ _ _ _ hpublish hkeyed hbounds (common.row id body)
    refine ⟨[checked], by rw [List.mapM_cons, heq]; rfl, ?_⟩
    exact {
      nonempty := List.cons_ne_nil _ _
      schema := by
        rw [List.forall_mem_singleton]
        exact hschema
      ids := List.nodup_singleton _
      paired := List.pairwise_singleton _ _ }
  | call toolName space arguments result hcall houtcome hresult =>
    have hlength := hshort hcall houtcome
    obtain ⟨checked, heq, hschema, hid, hcallRow⟩ :=
      @checked_id _ host _ _ _ _ hpublish hkeyed hbounds (.toolCall toolName space arguments)
    have hkept : portableHistoryItemSchema host (common.row (resultId host common.id)
        (.toolResult common.id result)) = true := by
      have hcallId := textWithin_iff.mpr ⟨hbounds.id, hlength⟩
      rw [row_schema hbounds, rowBodySchema, hresult, hcallId]
      exact ⟨resultId_within host _, rfl⟩
    refine ⟨[checked, common.row (resultId host common.id) (.toolResult common.id result)],
      ?_, ?_⟩
    · rw [List.mapM_cons, heq, mapM_checkedRow_kept (List.forall_mem_singleton.mpr hkept)]
      rfl
    · rw [replacedId_short hlength] at hid
      exact {
        nonempty := List.cons_ne_nil _ _
        schema := by
          rw [List.forall_mem_cons, List.forall_mem_singleton]
          exact ⟨hschema, hkept⟩
        ids := by
          have hne := resultId_ne host common.id
          simp [hid, Common.row, hne.symm]
        paired := by
          rw [List.pairwise_pair]
          intro hcall
          rw [hcallRow hcall]
          exact ⟨result, rfl⟩ }
  | user value rows indexes hshape hvalue hrows hindexes =>
    obtain ⟨checked, heq, hschema, hid, hcallRow⟩ :=
      @checked_id _ host _ _ _ _ hpublish hkeyed hbounds (.message (literal "user") value)
    have hkept : ∀ row ∈ rows, portableHistoryItemSchema host row = true := by
      intro row hin
      obtain ⟨id, body, rfl, hwithin, hbody, _⟩ := hrows.rows row hin
      rw [row_schema hbounds]
      exact ⟨hwithin, hbody⟩
    refine ⟨checked :: rows, ?_, ?_⟩
    · rw [List.mapM_cons, heq, mapM_checkedRow_kept hkept]
      rfl
    · exact {
        nonempty := List.cons_ne_nil _ _
        schema := List.forall_mem_cons.mpr ⟨hschema, hkept⟩
        ids := by
          rw [List.map_cons, List.nodup_cons]
          refine ⟨?_, hrows.ids_nodup (Nat.le_of_lt harray) hdigest hindexes⟩
          rw [hid, hrows.ids, List.mem_map]
          rintro ⟨index, hin, hsame⟩
          exact replacedId_ne_attachment (Nat.lt_trans (hindexes index hin) harray) hsame.symm
        paired := by
          rw [List.pairwise_cons]
          constructor
          · intro result _ hcall
            rw [hcallRow hcall] at hcall
            cases hcall
          · rw [List.pairwise_iff_forall_sublist]
            intro call result hsub hcall
            have hin : call ∈ rows := hsub.subset List.mem_cons_self
            obtain ⟨_, body, rfl, _, _, hno⟩ := hrows.rows call hin
            rw [show (common.row _ body).body = body from rfl, hno] at hcall
            cases hcall }

/-! ## Items that are not translated -/

theorem rowsOf_converts {rows : List (Row ν)}
    (h : rowsOf host publish common item itemNamespace = some rows) :
    (shapeOf item = .text → ConvertsField (field item "role")) ∧
      (shapeOf item = .userMessage → ∀ input ∈ blockTexts item, ConvertsField input) := by
  unfold rowsOf at h
  constructor
  · intro hshape
    rw [hshape] at h
    obtain ⟨role, hrole, _⟩ := Option.bind_eq_some_iff.mp h
    apply messageRole_isSome.mp (Option.isSome_of_eq_some hrole)
    rw [hshape]
    exact nofun
  · intro hshape
    rw [hshape] at h
    obtain ⟨texts, htexts, _⟩ := Option.bind_eq_some_iff.mp h
    exact elementTexts_some.mp (Option.isSome_of_eq_some htexts)

theorem long_call_repeats (hpublish : ValidPublisher publish) (hkeyed : (Value.object item).Keyed)
    (hbounds : Bounds common itemNamespace) (hlong : 512 < common.id.length)
    (hcall : (shapeOf item).isCall = true) (houtcome : toolOutcome item ≠ none)
    {rows checked : List (Row ν)} (hshown : PortableRows host common item rows)
    (hchecked : rows.mapM (checkedRow host publish common item itemNamespace) = some checked) :
    ∃ first second : Row ν, checked = [first, second] ∧ first.id = second.id := by
  cases hshown with
  | single _ _ hnone => exact absurd (hnone hcall) houtcome
  | user _ _ _ hshape =>
    rw [hshape] at hcall
    exact nomatch hcall
  | call toolName space arguments result _ _ _ =>
    obtain ⟨first, hfirst, _, hid, _⟩ :=
      @checked_id _ host _ _ _ _ hpublish hkeyed hbounds (.toolCall toolName space arguments)
    obtain ⟨second, hsecond, _, _, hreplaced⟩ :=
      @checkedRow_some _ host _ _ _ _ hpublish hkeyed hbounds
        (common.row (resultId host common.id) (.toolResult common.id result))
    have hrefused : portableHistoryItemSchema host (common.row (resultId host common.id)
        (.toolResult common.id result)) = false := by
      rw [Bool.eq_false_iff, ne_eq, row_schema hbounds, rowBodySchema, Bool.and_eq_true,
        textWithin_iff, textWithin_iff]
      omega
    rw [List.mapM_cons, hfirst, List.mapM_cons, hsecond] at hchecked
    cases hchecked
    exact ⟨first, second, rfl, hid.trans (hreplaced hrefused).1.symm⟩

/-- The translation of an item shows it and keeps its identities exactly where every converted
value has a string and the item is no call of a long id with a result.  Arrays have fewer than
`2 ^ 32` elements. -/
theorem portable_iff (host : HistoryHost ν) {publish : Option (ContentPublisher ν)}
    (hpublish : ValidPublisher publish) {item : NativeItem ν} (hitem : (Value.object item).Keyed)
    (harray : (contentBlocks item).length < 2 ^ 32) {itemNamespace fallbackId : Units}
    (hnamespace : 1 ≤ itemNamespace.length ∧ itemNamespace.length ≤ 128)
    (hfallback : 1 ≤ fallbackId.length ∧ fallbackId.length ≤ 512)
    (hdigest : ∀ common, commonOf host item itemNamespace fallbackId = some common →
      NoCollision host common.id (contentBlocks item).length) :
    (∃ rows, portableHistoryItem host publish item itemNamespace fallbackId = some rows ∧
      Portable host rows) ↔ Converted item itemNamespace ∧ ¬ LongCall item := by
  have hbounds {common : Common} (h : commonOf host item itemNamespace fallbackId = some common) :
      Bounds common itemNamespace := by
    obtain ⟨hcall, _, hnative⟩ := commonOf_some h
    exact {
      id := common_id_pos hfallback.1 h
      item := by
        rw [hnative]
        exact nativeItemOf_within
      call := (nativeCallOf_some hcall).2.2
      itemNamespace := textWithin_iff.mpr hnamespace }
  constructor
  · rintro ⟨checked, h, hportable⟩
    unfold portableHistoryItem at h
    obtain ⟨common, hcommon, h⟩ := Option.bind_eq_some_iff.mp h
    obtain ⟨rows, hrows, hchecked⟩ := Option.bind_eq_some_iff.mp h
    obtain ⟨hrole, htexts⟩ := rowsOf_converts hrows
    refine ⟨⟨commonOf_isSome.mp (Option.isSome_of_eq_some hcommon), hrole, htexts⟩, ?_⟩
    intro hlong
    have hlength :=
      (call_long_iff hlong.call hfallback.2 hcommon).mpr ⟨hlong.id, hlong.reference⟩
    obtain ⟨others, hothers, hshown⟩ :=
      @rowsOf_shown _ host _ _ itemNamespace common hpublish hitem hrole htexts
    rw [hrows] at hothers
    cases hothers
    obtain ⟨first, second, rfl, hsame⟩ := long_call_repeats hpublish hitem (hbounds hcommon)
      hlength hlong.call hlong.outcome hshown hchecked
    have hids := hportable.ids
    simp [hsame] at hids
  · rintro ⟨hconverted, hshort⟩
    obtain ⟨common, hcommon⟩ := Option.isSome_iff_exists.mp
      ((@commonOf_isSome _ host _ _ fallbackId).mpr hconverted.type)
    obtain ⟨rows, hrows, hshown⟩ := @rowsOf_shown _ host _ _ itemNamespace common hpublish hitem
      hconverted.role hconverted.texts
    have hlength (hcall : (shapeOf item).isCall = true) (houtcome : toolOutcome item ≠ none) :
        common.id.length ≤ 512 := by
      by_contra hlong
      obtain ⟨hid, hreference⟩ :=
        (call_long_iff hcall hfallback.2 hcommon).mp (Nat.not_le.mp hlong)
      exact hshort ⟨hcall, houtcome, hid, hreference⟩
    obtain ⟨checked, hchecked, hportable⟩ := checked_portable hpublish hitem harray
      (hbounds hcommon) (hdigest common hcommon) hlength hshown
    refine ⟨checked, ?_, hportable⟩
    unfold portableHistoryItem
    rw [hcommon]
    simp only [Option.bind_eq_bind, Option.bind_some]
    rw [hrows]
    exact hchecked

/-! ## Two calls -/

def letterDigest : Units :=
  Utf16.text "02425c0f5b0dabf3d2b9115f3f7723a02ad8bcfb1534a0d231614fd42b8188f6"

def sampleHost : HistoryHost Whole where
  numbers := wholeNumbers
  isInteger _ := true
  isUrl _ := false
  digest _ := letterDigest
  length_digest _ := by decide

def sampleCall (id : Units) : NativeItem Whole :=
  [(Utf16.text "id", .string id), (Utf16.text "type", .string (Utf16.text "tool_call")),
    (Utf16.text "tool_name", .string (Utf16.text "bash")),
    (Utf16.text "output", .string (Utf16.text "done"))]

def longId : Units := List.replicate 513 0x61

theorem sampleCall_keyed (id : Units) : (Value.object (sampleCall id)).Keyed := by
  unfold Value.Keyed
  constructor
  · show (["id", "type", "tool_name", "output"].map Utf16.text).Nodup
    decide
  · exact ⟨trivial, trivial, trivial, trivial, trivial⟩

theorem short_call_portable :
    ∃ rows, portableHistoryItem sampleHost none (sampleCall (Utf16.text "call"))
        (Utf16.text "claude") (Utf16.text "fallback") = some rows ∧ Portable sampleHost rows := by
  apply (@portable_iff _ sampleHost none nofun _ (sampleCall_keyed _) (by decide) _ _ (by decide)
    (by decide) ?_).mpr
  · constructor
    · exact ⟨fun _ => convertsField_string _, fun h => absurd h (by decide),
        fun h => absurd h (by decide)⟩
    · rintro ⟨_, _, ⟨id, heq, hlength⟩, _⟩
      cases heq
      exact absurd hlength (by decide)
  · intro common _ first hfirst
    exact nomatch hfirst

/-- Both rows of a call whose id has 513 letters have the digest of the letters as their id. -/
theorem long_call_not_portable :
    ∃ rows, portableHistoryItem sampleHost none (sampleCall longId) (Utf16.text "claude")
        (Utf16.text "fallback") = some rows ∧ ¬ Portable sampleHost rows := by
  have hids : (portableHistoryItem sampleHost none (sampleCall longId) (Utf16.text "claude")
      (Utf16.text "fallback")).map (List.map Row.id) = some [letterDigest, letterDigest] := by
    decide +kernel
  obtain ⟨rows, hrows, heq⟩ := Option.map_eq_some_iff.mp hids
  refine ⟨rows, hrows, fun hportable => ?_⟩
  have hnodup := hportable.ids
  rw [heq] at hnodup
  exact absurd hnodup (by simp)

end HarnessControl.Harnesses
