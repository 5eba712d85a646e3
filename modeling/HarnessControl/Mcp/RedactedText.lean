import HarnessControl.Mcp.CredentialPatterns

/-!
# Redacted text

Neither pattern begins a match within what stands for a credential, so a redacted string holds no
scheme with a credential, and its assignments are replaced by themselves.
-/

namespace HarnessControl.Mcp

open HarnessControl.Library HarnessControl.LocalActions

variable {before other : Option UInt16} {text part rest scheme blank credential name : Text}
  {unit : UInt16} {pattern : Pattern UInt16}

/-! ## What stands for a credential -/

theorem authValuePattern_none
    (h : ∀ keyword ∈ authSchemes, part.length ≤ (Utf16.text keyword).length ∧
      (Utf16.text keyword).take part.length ≠ part.map lower) (before : Option UInt16)
    (rest : Text) : authValuePattern before (part ++ rest) = none := by
  unfold authValuePattern
  rw [keywordAt_none h]
  split
  · rfl
  · rfl

theorem assignmentValuePattern_none
    (h : ∀ keyword ∈ assignedNames, part.length ≤ (Utf16.text keyword).length ∧
      (Utf16.text keyword).take part.length ≠ part.map lower) (before : Option UInt16)
    (rest : Text) : assignmentValuePattern before (part ++ rest) = none := by
  unfold assignmentValuePattern
  rw [keywordAt_none h]
  split
  · rfl
  · rfl

theorem IsKeyword.differs {keywords others : List String} (h : IsKeyword keywords part)
    (hdiffer : ∀ keyword ∈ keywords, ∀ other ∈ others,
      1 ≤ (Utf16.text keyword).length ∧ 1 ≤ (Utf16.text other).length ∧
        (Utf16.text other).take 1 ≠ (Utf16.text keyword).take 1) :
    ∀ other ∈ others, (part.take 1).length ≤ (Utf16.text other).length ∧
      (Utf16.text other).take (part.take 1).length ≠ (part.take 1).map lower := by
  rcases h with ⟨keyword, hkeyword, hlower⟩
  intro other hother
  rcases hdiffer keyword hkeyword other hother with ⟨hlong, hotherLong, hne⟩
  have hlength : (part.take 1).length = 1 := by
    have hsame := congrArg List.length hlower
    rw [List.length_map] at hsame
    rw [List.length_take]
    omega
  rw [hlength]
  refine ⟨hotherLong, ?_⟩
  rw [List.map_take, hlower]
  exact hne

theorem quiet_of_none (hpattern : pattern.Anchored isWord isLetter)
    (hnone : pattern before (part ++ rest) = none)
    (hpart : ∀ unit ∈ part.dropLast, isWord unit = true) : pattern.Quiet before part rest := by
  cases part with
  | nil => trivial
  | cons unit part =>
    refine ⟨hnone, ?_⟩
    cases part with
    | nil => trivial
    | cons next part =>
      apply hpattern.quiet_word (fun other hother => hpart other (List.mem_cons_of_mem _ hother))
      exact hpart unit List.mem_cons_self

theorem name_quiet (h : IsKeyword assignedNames name) (before : Option UInt16) (rest : Text) :
    authValuePattern.Quiet before name rest := by
  apply quiet_of_none authValuePattern_anchored _ (h.words assignedNames_words)
  rw [← List.take_append_drop 1 name, List.append_assoc]
  exact authValuePattern_none (h.differs (by decide)) before _

theorem scheme_quiet (h : IsKeyword authSchemes scheme) (before : Option UInt16) (rest : Text) :
    assignmentValuePattern.Quiet before scheme rest := by
  apply quiet_of_none assignmentValuePattern_anchored
  · rw [← List.take_append_drop 1 scheme, List.append_assoc]
    exact assignmentValuePattern_none (h.differs (by decide)) before _
  · exact h.words fun keyword hkeyword unit hunit =>
      authSchemes_words keyword hkeyword unit (List.dropLast_subset _ hunit)

theorem redacted_quiet (hpattern : pattern.Anchored isWord isLetter)
    (hnone : ∀ before rest, pattern before (Utf16.text "redacted]" ++ rest) = none)
    (before : Option UInt16) (rest : Text) : pattern.Quiet before redacted rest := by
  have hsplit : redacted = [0x5B] ++ Utf16.text "redacted]" := by decide
  rw [hsplit, Pattern.quiet_append]
  constructor
  · exact ⟨hpattern.elsewhere (by decide) before _, trivial⟩
  · exact quiet_of_none hpattern (hnone _ _) (by decide)

theorem redacted_authQuiet (before : Option UInt16) (rest : Text) :
    authValuePattern.Quiet before redacted rest := by
  apply redacted_quiet authValuePattern_anchored
  intro before rest
  have hsplit : Utf16.text "redacted]" = Utf16.text "r" ++ Utf16.text "edacted]" := by decide
  rw [hsplit, List.append_assoc]
  exact authValuePattern_none (by decide) before _

theorem redacted_assignmentQuiet (before : Option UInt16) (rest : Text) :
    assignmentValuePattern.Quiet before redacted rest := by
  apply redacted_quiet assignmentValuePattern_anchored
  intro before rest
  have hsplit : Utf16.text "redacted]" = Utf16.text "red" ++ Utf16.text "acted]" := by decide
  rw [hsplit, List.append_assoc]
  exact assignmentValuePattern_none (by decide) before _

theorem space_quiet (hpattern : pattern.Anchored isWord isLetter) (before : Option UInt16)
    (rest : Text) : pattern.Quiet before (Utf16.text " ") rest :=
  ⟨hpattern.elsewhere (by decide) before _, trivial⟩

theorem redactedScheme_quiet (h : IsKeyword authSchemes scheme) (before : Option UInt16)
    (rest : Text) :
    authValuePattern.Quiet before (scheme ++ Utf16.text " " ++ redacted) rest := by
  rw [Pattern.quiet_append, Pattern.quiet_append]
  refine ⟨⟨?_, space_quiet authValuePattern_anchored _ _⟩, redacted_authQuiet _ _⟩
  apply quiet_of_none authValuePattern_anchored
  · unfold authValuePattern
    split
    · rfl
    · rw [keywordAt_keyword authSchemes_free h, Option.bind_some]
      dsimp only
      rw [List.drop_left]
      have hblank : ((Utf16.text " " ++ (redacted ++ rest)).takeWhile isWhitespace) =
          Utf16.text " " := by
        apply takeWhile_append (by decide)
        intro unit hunit
        rw [List.head?_append_of_ne_nil _ (by decide)] at hunit
        revert unit
        decide
      rw [hblank, List.drop_left, if_pos]
      right
      rfl
  · exact h.words fun keyword hkeyword unit hunit =>
      authSchemes_words keyword hkeyword unit (List.dropLast_subset _ hunit)

/-! ## Redacting twice -/

theorem authValue_quiet (before : Option UInt16) (text : Text) :
    authValuePattern.Quiet before (authValuePattern.replaceAll before text) [] := by
  induction before, text using authValuePattern_anchored.reading with
  | nil before => trivial
  | skip before unit rest hnone ih =>
    rw [Pattern.replaceAll_none hnone]
    refine ⟨?_, ih⟩
    rw [List.append_nil]
    exact auth_emerges authValuePattern_anchored hnone
  | found before taken rest found hfound hlength hne ih =>
    rw [Pattern.replaceAll_found hfound hlength hne]
    rcases authValue_of_found hfound with
      ⟨scheme, blank, credential, after, htext, hvalue, rfl⟩
    have htaken : taken = scheme ++ (blank ++ credential) ∧ rest = after := by
      rw [← List.append_assoc, ← List.append_assoc] at htext
      have hparts := List.append_inj htext (by
        rw [hlength, List.length_append, List.length_append])
      rw [hparts.1, hparts.2, List.append_assoc]
      exact ⟨rfl, rfl⟩
    rw [Pattern.quiet_append, List.append_nil]
    refine ⟨redactedScheme_quiet hvalue.keyword before _, ?_⟩
    apply authValuePattern_anchored.quiet_elsewhere _ ih
    rw [authValuePattern_anchored.head, htaken.2]
    exact hvalue.rest_plain

theorem assignment_quiet (before : Option UInt16) (text : Text)
    (h : authValuePattern.Quiet before text []) :
    authValuePattern.Quiet before (assignmentValuePattern.replaceAll before text) [] := by
  induction before, text using assignmentValuePattern_anchored.reading with
  | nil before => trivial
  | skip before unit rest hnone ih =>
    rw [Pattern.replaceAll_none hnone]
    refine ⟨?_, ih h.2⟩
    have hunit := h.1
    rw [List.append_nil] at hunit ⊢
    exact auth_emerges assignmentValuePattern_anchored hunit
  | found before taken rest found hfound hlength hne ih =>
    rw [Pattern.replaceAll_found hfound hlength hne]
    rcases assignedValue_of_found hfound with ⟨name, credential, after, htext, hvalue, rfl⟩
    have htaken : rest = after := by
      rw [← List.append_assoc] at htext
      exact (List.append_inj htext (by rw [hlength, List.length_append])).2
    rw [Pattern.quiet_append] at h
    rw [Pattern.quiet_append, Pattern.quiet_append, List.append_nil]
    refine ⟨⟨name_quiet hvalue.keyword before _, redacted_authQuiet _ _⟩, ?_⟩
    apply authValuePattern_anchored.quiet_elsewhere _ (ih h.2)
    rw [assignmentValuePattern_anchored.head, htaken]
    exact hvalue.rest_plain

theorem assignment_twice (before : Option UInt16) (text : Text) :
    assignmentValuePattern.replaceAll before (assignmentValuePattern.replaceAll before text) =
      assignmentValuePattern.replaceAll before text := by
  induction before, text using assignmentValuePattern_anchored.reading with
  | nil before => rfl
  | skip before unit rest hnone ih =>
    rw [Pattern.replaceAll_none hnone, Pattern.replaceAll_none
      (assignment_emerges assignmentValuePattern_anchored hnone), ih]
  | found before taken rest found hfound hlength hne ih =>
    rw [Pattern.replaceAll_found hfound hlength hne]
    rcases assignedValue_of_found hfound with ⟨name, credential, after, htext, hvalue, rfl⟩
    have htaken : rest = after := by
      rw [← List.append_assoc] at htext
      exact (List.append_inj htext (by rw [hlength, List.length_append])).2
    have hplain : ∀ unit ∈
        (assignmentValuePattern.replaceAll (Pattern.last before taken) rest).head?,
        isValue unit = false := by
      rw [assignmentValuePattern_anchored.head, htaken]
      exact hvalue.ends
    have hredacted : AssignedValue before name redacted
        (assignmentValuePattern.replaceAll (Pattern.last before taken) rest) :=
      ⟨hvalue.outside, hvalue.keyword, by decide, by decide, hplain⟩
    have hagain := hredacted.found
    rw [← List.append_assoc] at hagain
    dsimp only
    rw [Pattern.replaceAll_found hagain (List.length_append) (by
      intro hempty
      exact absurd (List.append_eq_nil_iff.mp hempty).2 (by decide))]
    dsimp only
    rw [assignmentValuePattern_anchored.replaceAll_elsewhere
      (fun unit hunit => isLetter_not_value (hplain unit hunit)) _ (Pattern.last before taken), ih]

theorem redactString_twice (text : Text) : redactString (redactString text) = redactString text := by
  have hquiet := assignment_quiet none _ (authValue_quiet none text)
  have hauth := hquiet.replaceAll
  rw [List.append_nil, Pattern.replaceAll_nil, List.append_nil] at hauth
  unfold redactString
  rw [hauth, assignment_twice]

end HarnessControl.Mcp
