import HarnessControl.Harnesses.PortableHistory

/-!
# Values of portable rows

What is read of an item can always be printed and read back, so no value of a row fails.
-/

namespace HarnessControl.Harnesses

open HarnessControl.Library HarnessControl.Library.JsonText

variable {ν : Type}

/-! ## Fields with distinct keys -/

def KeyedField (input : Option (Value ν)) : Prop := ∀ value, input = some value → value.Keyed

theorem keyedField_none : KeyedField (none : Option (Value ν)) := fun _ h => nomatch h

theorem keyedField_some {value : Value ν} : KeyedField (some value) ↔ value.Keyed :=
  ⟨fun h => h value rfl, fun h _ heq => Option.some.inj heq ▸ h⟩

theorem keyedField_string (text : Units) : KeyedField (some (.string text : Value ν)) := by
  intro value h
  cases h
  unfold Value.Keyed
  trivial

theorem keyedField_field {item : NativeItem ν} (h : keyedMembers item) (key : String) :
    KeyedField (field item key) := by
  intro value hvalue
  exact keyed_of_mem h (mem_of_lookup hvalue)

theorem keyedField_nullish {first second : Option (Value ν)} (hfirst : KeyedField first)
    (hsecond : KeyedField second) : KeyedField (nullish first second) := by
  unfold nullish
  split
  · exact hsecond
  · exact hsecond
  · exact hfirst

variable {input : Option (Value ν)}

theorem keyedField_requiredText {test : Units → Bool}
    (h : requiredText test input = true) : KeyedField input := by
  unfold requiredText at h
  split at h
  · exact keyedField_string _
  · exact nomatch h

theorem keyedField_optionalText {test : Units → Bool}
    (h : optionalText test input = true) : KeyedField input := by
  unfold optionalText at h
  split at h
  · exact keyedField_none
  · exact keyedField_string _
  · exact nomatch h

theorem keyedMembers_members {fields : List (String × Option (Value ν))}
    (h : ∀ entry ∈ fields, KeyedField entry.2) : keyedMembers (members fields) := by
  induction fields with
  | nil => trivial
  | cons entry rest ih =>
    have hrest := ih fun other hin => h other (List.mem_cons_of_mem _ hin)
    have hentry := h entry List.mem_cons_self
    obtain ⟨key, input⟩ := entry
    cases input with
    | none => exact hrest
    | some value => exact ⟨hentry value rfl, hrest⟩

theorem keys_members (fields : List (String × Option (Value ν))) :
    ((members fields).map Prod.fst).Sublist (fields.map fun entry => Utf16.text entry.1) := by
  induction fields with
  | nil => exact .slnil
  | cons entry rest ih =>
    obtain ⟨key, input⟩ := entry
    cases input with
    | none => exact ih.cons _
    | some value => exact ih.cons_cons _

theorem keyed_members {fields : List (String × Option (Value ν))}
    (hkeys : (fields.map fun entry => Utf16.text entry.1).Nodup)
    (h : ∀ entry ∈ fields, KeyedField entry.2) : (Value.object (members fields)).Keyed := by
  unfold Value.Keyed
  exact ⟨hkeys.sublist (keys_members fields), keyedMembers_members h⟩

theorem keyed_source {host : HistoryHost ν} {source : MediaSource ν}
    (h : mediaSourceSchema host source = true) : source.value.Keyed := by
  cases source with
  | embedded mimeType filename dataBase64 =>
    simp only [mediaSourceSchema, Bool.and_eq_true] at h
    apply keyed_members
    · show (["kind", "mime_type", "filename", "data_base64"].map Utf16.text).Nodup
      decide
    · simp only [List.forall_mem_cons]
      exact ⟨keyedField_string _, keyedField_requiredText h.1.1, keyedField_optionalText h.1.2,
        keyedField_requiredText h.2, fun _ hin => nomatch hin⟩
  | url mimeType filename address =>
    simp only [mediaSourceSchema, Bool.and_eq_true] at h
    apply keyed_members
    · show (["kind", "mime_type", "filename", "url"].map Utf16.text).Nodup
      decide
    · simp only [List.forall_mem_cons]
      exact ⟨keyedField_string _, keyedField_optionalText h.1.1, keyedField_optionalText h.1.2,
        keyedField_requiredText h.2, fun _ hin => nomatch hin⟩
  | path name =>
    apply keyed_members
    · show (["kind", "path"].map Utf16.text).Nodup
      decide
    · simp only [List.forall_mem_cons]
      exact ⟨keyedField_string _, keyedField_requiredText h, fun _ hin => nomatch hin⟩
  | nativeReference reference =>
    apply keyed_members
    · show (["kind", "reference"].map Utf16.text).Nodup
      decide
    · simp only [List.forall_mem_cons]
      exact ⟨keyedField_string _, keyedField_requiredText h, fun _ hin => nomatch hin⟩

theorem nativeHistoryMedia_schema {host : HistoryHost ν}
    {itemNamespace : Units} {kind : MediaKind} {source : MediaSource ν}
    (h : nativeHistoryMedia host input itemNamespace = some (kind, source)) :
    mediaSourceSchema host source = true := by
  unfold nativeHistoryMedia at h
  split at h
  · dsimp only at h
    split at h
    · split at h
      · cases h
        assumption
      · exact nomatch h
    · exact nomatch h
  · exact nomatch h

theorem keyed_fileChange {change : HistoryFileChange ν} (h : fileChangeSchema change = true) :
    change.value.Keyed := by
  simp only [fileChangeSchema, Bool.and_eq_true] at h
  apply keyed_members
  · show (["path", "change_type", "previous_path", "diff"].map Utf16.text).Nodup
    decide
  · simp only [List.forall_mem_cons]
    exact ⟨keyedField_requiredText h.1.1, keyedField_string _, keyedField_optionalText h.1.2,
      keyedField_optionalText h.2, fun _ hin => nomatch hin⟩

theorem keyedItems_of_forall {items : List (Value ν)} (h : ∀ item ∈ items, item.Keyed) :
    keyedItems items := by
  induction items with
  | nil => trivial
  | cons item rest ih =>
    exact ⟨h item List.mem_cons_self, ih fun other hin => h other (List.mem_cons_of_mem _ hin)⟩

theorem keyedField_fileChanges (item : NativeItem ν) : KeyedField (fileChanges item) := by
  intro value h
  unfold fileChanges at h
  split at h
  · dsimp only at h
    split at h
    · rename_i hcheck
      cases h
      rw [Bool.and_eq_true, List.all_eq_true] at hcheck
      unfold Value.Keyed
      apply keyedItems_of_forall
      intro other hin
      obtain ⟨change, hchange, rfl⟩ := List.mem_map.mp hin
      exact keyed_fileChange (hcheck.1 change hchange)
    · exact nomatch h
  · exact nomatch h

theorem keyedField_toolOutcome {item : NativeItem ν} (h : keyedMembers item) :
    KeyedField (toolOutcome item) := by
  have houtput : KeyedField (toolOutput item) := by
    unfold toolOutput
    split <;> exact keyedField_field h _
  unfold toolOutcome
  dsimp only
  split
  · intro value heq
    cases heq
    apply keyed_members
    · show (["error", "output"].map Utf16.text).Nodup
      decide
    · simp only [List.forall_mem_cons]
      refine ⟨keyedField_field h _, ?_, fun _ hin => nomatch hin⟩
      split
      · exact houtput
      · exact keyedField_none
  · split
    · exact houtput
    · exact keyedField_none

/-! ## Values -/

def ValidPublisher (publish : Option (ContentPublisher ν)) : Prop :=
  ∀ publisher, publish = some publisher → ∀ value, contentReferenceSchema (publisher value) = true

theorem json_some (host : HistoryHost ν) {value : Value ν} (h : value.Keyed) :
    ∃ result, json host value = some result := by
  unfold json
  exact ⟨_, parse_stringify _ (printable_of_keyed host.numbers value h)⟩

theorem length_units (text : List Char) : (Utf16.units text).length ≤ 2 * text.length := by
  induction text with
  | nil => exact Nat.le_refl 0
  | cons c rest ih =>
    have hchar : (Utf16.ofChar c).length ≤ 2 := by
      unfold Utf16.ofChar
      dsimp only
      split <;> simp
    unfold Utf16.units at ih ⊢
    rw [List.flatMap_cons, List.length_append, List.length_cons]
    omega

theorem historyValue_some (host : HistoryHost ν) {publish : Option (ContentPublisher ν)}
    (hpublish : ValidPublisher publish) {input : Option (Value ν)} (h : KeyedField input) :
    ∃ value, historyValue host publish input = some value ∧ historyValueSchema value = true := by
  cases input with
  | none => exact ⟨_, rfl, rfl⟩
  | some input =>
    obtain ⟨result, hresult⟩ := json_some host (h input rfl)
    unfold historyValue
    dsimp only
    split
    · rw [hresult]
      exact ⟨_, rfl, rfl⟩
    · cases publish with
      | none => exact ⟨_, rfl, rfl⟩
      | some publisher =>
        dsimp only
        rw [hresult]
        refine ⟨_, rfl, ?_⟩
        have hlength := length_units
          ((stringify host.numbers.toNumerals input).take 4096)
        have htake := List.length_take_le 4096 (stringify host.numbers.toNumerals input)
        rw [historyValueSchema, hpublish publisher rfl, Bool.true_and, decide_eq_true_iff]
        omega

end HarnessControl.Harnesses
