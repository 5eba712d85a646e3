import HarnessControl.Mcp.RedactedText

/-!
# What redaction keeps secret

Two strings are alike when, read from the left, they differ only in credentials: in the token
characters after a scheme, and in the value after a name.  A keyword within a credential is a part
of it; but a scheme at the end of a value still introduces a credential.  Redaction does not tell
alike values apart.
-/

namespace HarnessControl.Mcp

open HarnessControl.Library HarnessControl.LocalActions

/-! ## Alike strings -/

def NoCredential (before : Option UInt16) (text : Text) : Prop :=
  authValuePattern before text = none ∧ assignmentValuePattern before text = none

/-- Alike from here on; before each string stands a unit that was read. -/
inductive AlikeFrom : Option UInt16 → Option UInt16 → Text → Text → Prop
  | nil {b c : Option UInt16} : AlikeFrom b c [] []
  | same {b c : Option UInt16} {unit : UInt16} {s t : Text}
    (hfirst : NoCredential b (unit :: s)) (hsecond : NoCredential c (unit :: t))
    (hrest : AlikeFrom (some unit) (some unit) s t) :
    AlikeFrom b c (unit :: s) (unit :: t)
  | auth {b c : Option UInt16} {scheme blank v w s t : Text}
    (hfirst : AuthValue b scheme blank v s) (hsecond : AuthValue c scheme blank w t)
    (hrest : AlikeFrom (Pattern.last b (scheme ++ (blank ++ v)))
      (Pattern.last c (scheme ++ (blank ++ w))) s t) :
    AlikeFrom b c (scheme ++ (blank ++ (v ++ s))) (scheme ++ (blank ++ (w ++ t)))
  /-- No scheme at the end of the values introduces a credential. -/
  | assignment {b c : Option UInt16} {name v w s t : Text}
    (hfirst : AssignedValue b name v s) (hsecond : AssignedValue c name w t)
    (hfirstQuiet : authValuePattern.Quiet (Pattern.last b name) v s)
    (hsecondQuiet : authValuePattern.Quiet (Pattern.last c name) w t)
    (hrest : AlikeFrom (Pattern.last b (name ++ v)) (Pattern.last c (name ++ w)) s t) :
    AlikeFrom b c (name ++ (v ++ s)) (name ++ (w ++ t))
  /-- The values end in schemes that introduce credentials. -/
  | nested {b c : Option UInt16} {name x y first second blank v w s t : Text}
    (hfirst : AssignedValue b name (x ++ first) (blank ++ (v ++ s)))
    (hsecond : AssignedValue c name (y ++ second) (blank ++ (w ++ t)))
    (hfirstQuiet : authValuePattern.Quiet (Pattern.last b name) x (first ++ (blank ++ (v ++ s))))
    (hsecondQuiet :
      authValuePattern.Quiet (Pattern.last c name) y (second ++ (blank ++ (w ++ t))))
    (hfirstAuth : AuthValue (Pattern.last b (name ++ x)) first blank v s)
    (hsecondAuth : AuthValue (Pattern.last c (name ++ y)) second blank w t)
    (hrest : AlikeFrom (Pattern.last b (name ++ (x ++ (first ++ (blank ++ v)))))
      (Pattern.last c (name ++ (y ++ (second ++ (blank ++ w))))) s t) :
    AlikeFrom b c (name ++ (x ++ (first ++ (blank ++ (v ++ s)))))
      (name ++ (y ++ (second ++ (blank ++ (w ++ t)))))

/-- The strings differ only in credentials. -/
def TextAlike (s t : Text) : Prop := AlikeFrom none none s t

variable {b c : Option UInt16} {s t part : Text}

/-! ## Strings without schemes -/

/-- Alike up to values after names, whatever schemes they hold. -/
inductive AssignedAlike : Option UInt16 → Option UInt16 → Text → Text → Prop
  | nil {b c : Option UInt16} : AssignedAlike b c [] []
  | same {b c : Option UInt16} {unit : UInt16} {s t : Text}
    (hfirst : assignmentValuePattern b (unit :: s) = none)
    (hsecond : assignmentValuePattern c (unit :: t) = none)
    (hrest : AssignedAlike (some unit) (some unit) s t) :
    AssignedAlike b c (unit :: s) (unit :: t)
  | assignment {b c : Option UInt16} {name v w s t : Text}
    (hfirst : AssignedValue b name v s) (hsecond : AssignedValue c name w t)
    (hrest : AssignedAlike (Pattern.last b (name ++ v)) (Pattern.last c (name ++ w)) s t) :
    AssignedAlike b c (name ++ (v ++ s)) (name ++ (w ++ t))

theorem AssignedValue.replaced {name v : Text} (h : AssignedValue b name v s) :
    assignmentValuePattern.replaceAll b (name ++ (v ++ s)) =
      name ++ redacted ++ assignmentValuePattern.replaceAll (Pattern.last b (name ++ v)) s := by
  have hfound := h.found
  rw [← List.append_assoc] at hfound ⊢
  rw [Pattern.replaceAll_found hfound List.length_append]
  intro hempty
  exact h.nonempty (List.append_eq_nil_iff.mp hempty).2

theorem AuthValue.replaced {scheme blank v : Text} (h : AuthValue b scheme blank v s) :
    authValuePattern.replaceAll b (scheme ++ (blank ++ (v ++ s))) =
      scheme ++ Utf16.text " " ++ redacted ++
        authValuePattern.replaceAll (Pattern.last b (scheme ++ (blank ++ v))) s := by
  have hfound := h.found
  have hassoc : scheme ++ (blank ++ (v ++ s)) = scheme ++ (blank ++ v) ++ s := by
    simp only [List.append_assoc]
  rw [hassoc] at hfound ⊢
  rw [Pattern.replaceAll_found hfound]
  · simp only [List.length_append]
    omega
  · intro hempty
    exact h.separated (List.append_eq_nil_iff.mp (List.append_eq_nil_iff.mp hempty).2).1

theorem AuthValue.nested_replaced {name x first blank v : Text} (hname : IsKeyword assignedNames name)
    (hquiet : authValuePattern.Quiet (Pattern.last b name) x (first ++ (blank ++ (v ++ s))))
    (h : AuthValue (Pattern.last b (name ++ x)) first blank v s) :
    authValuePattern.replaceAll b (name ++ (x ++ (first ++ (blank ++ (v ++ s))))) =
      name ++ ((x ++ first) ++ (Utf16.text " " ++ redacted ++
        authValuePattern.replaceAll
          (Pattern.last b (name ++ (x ++ (first ++ (blank ++ v))))) s)) := by
  have hreplaced := h.replaced
  rw [Pattern.last_append] at hreplaced
  rw [(name_quiet hname b _).replaceAll, hquiet.replaceAll, hreplaced,
    Pattern.last_append b name, Pattern.last_append (Pattern.last b name) x]
  simp only [List.append_assoc]

theorem AssignedAlike.replaced (h : AssignedAlike b c s t) :
    assignmentValuePattern.replaceAll b s = assignmentValuePattern.replaceAll c t := by
  induction h with
  | nil => rfl
  | same hfirst hsecond hrest ih =>
    rw [Pattern.replaceAll_none hfirst, Pattern.replaceAll_none hsecond, ih]
  | assignment hfirst hsecond hrest ih => rw [hfirst.replaced, hsecond.replaced, ih]

theorem AssignedAlike.prepend (hfirst : assignmentValuePattern.Quiet b part s)
    (hsecond : assignmentValuePattern.Quiet c part t)
    (h : AssignedAlike (Pattern.last b part) (Pattern.last c part) s t) :
    AssignedAlike b c (part ++ s) (part ++ t) := by
  induction part generalizing b c with
  | nil => exact h
  | cons unit part ih =>
    rw [Pattern.last_cons, Pattern.last_cons] at h
    exact AssignedAlike.same hfirst.1 hsecond.1 (ih hfirst.2 hsecond.2 h)

theorem AssignedAlike.elsewhere (h : AssignedAlike b c s t)
    (hplain : ∀ unit ∈ s.head?, isLetter unit = false) (d e : Option UInt16) :
    AssignedAlike d e s t := by
  cases h with
  | nil => exact AssignedAlike.nil
  | same hfirst hsecond hrest =>
    have hunit := hplain _ rfl
    exact AssignedAlike.same (assignmentValuePattern_anchored.elsewhere hunit d _)
      (assignmentValuePattern_anchored.elsewhere hunit e _) hrest
  | assignment hfirst hsecond hrest =>
    rcases hfirst.keyword.head assignedNames_letters with ⟨unit, tail, rfl, hletter⟩
    rw [hplain unit rfl] at hletter
    cases hletter

/-! ## Alike strings are redacted alike -/

theorem AlikeFrom.assigned (h : AlikeFrom b c s t) :
    AssignedAlike b c (authValuePattern.replaceAll b s) (authValuePattern.replaceAll c t) := by
  induction h with
  | nil => exact AssignedAlike.nil
  | same hfirst hsecond hrest ih =>
    rw [Pattern.replaceAll_none hfirst.1, Pattern.replaceAll_none hsecond.1]
    exact AssignedAlike.same (assignment_emerges authValuePattern_anchored hfirst.2)
      (assignment_emerges authValuePattern_anchored hsecond.2) ih
  | @auth b c scheme blank v w s t hfirst hsecond hrest ih =>
    rw [hfirst.replaced, hsecond.replaced]
    have hquiet : ∀ before rest,
        assignmentValuePattern.Quiet before (scheme ++ Utf16.text " " ++ redacted) rest := by
      intro before rest
      rw [Pattern.quiet_append, Pattern.quiet_append]
      exact ⟨⟨scheme_quiet hfirst.keyword _ _, space_quiet assignmentValuePattern_anchored _ _⟩,
        redacted_assignmentQuiet _ _⟩
    apply AssignedAlike.prepend (hquiet b _) (hquiet c _)
    apply ih.elsewhere
    rw [authValuePattern_anchored.head]
    exact hfirst.rest_plain
  | @assignment b c name v w s t hfirst hsecond hfirstQuiet hsecondQuiet hrest ih =>
    rw [((name_quiet hfirst.keyword b (v ++ s))).replaceAll, hfirstQuiet.replaceAll,
      ((name_quiet hfirst.keyword c (w ++ t))).replaceAll, hsecondQuiet.replaceAll,
      ← Pattern.last_append, ← Pattern.last_append]
    apply AssignedAlike.assignment _ _ ih
    · refine ⟨hfirst.outside, hfirst.keyword, hfirst.nonempty, hfirst.values, ?_⟩
      rw [authValuePattern_anchored.head]
      exact hfirst.ends
    · refine ⟨hsecond.outside, hsecond.keyword, hsecond.nonempty, hsecond.values, ?_⟩
      rw [authValuePattern_anchored.head]
      exact hsecond.ends
  | @nested b c name x y first second blank v w s t hfirst hsecond hfirstQuiet hsecondQuiet
    hfirstAuth hsecondAuth hrest ih =>
    have hspace : ∀ rest : Text, ∀ unit ∈ (Utf16.text " " ++ redacted ++ rest).head?,
        isValue unit = false := by
      intro rest unit hunit
      cases hunit
      decide
    have hquiet : ∀ before rest,
        assignmentValuePattern.Quiet before (Utf16.text " " ++ redacted) rest := by
      intro before rest
      rw [Pattern.quiet_append]
      exact ⟨space_quiet assignmentValuePattern_anchored _ _, redacted_assignmentQuiet _ _⟩
    rw [AuthValue.nested_replaced hfirst.keyword hfirstQuiet hfirstAuth,
      AuthValue.nested_replaced hsecond.keyword hsecondQuiet hsecondAuth]
    apply AssignedAlike.assignment
    · exact ⟨hfirst.outside, hfirst.keyword, hfirst.nonempty, hfirst.values, hspace _⟩
    · exact ⟨hsecond.outside, hsecond.keyword, hsecond.nonempty, hsecond.values, hspace _⟩
    · apply AssignedAlike.prepend (hquiet _ _) (hquiet _ _)
      apply ih.elsewhere
      rw [authValuePattern_anchored.head]
      exact hfirstAuth.rest_plain

theorem TextAlike.redacted (h : TextAlike s t) : redactString s = redactString t :=
  h.assigned.replaced

/-! ## Every string is like itself -/

theorem first_match {pattern : Pattern UInt16} {before : Option UInt16} {part rest : Text}
    (h : ¬pattern.Quiet before part rest) :
    ∃ x y, part = x ++ y ∧ y ≠ [] ∧ pattern.Quiet before x (y ++ rest) ∧
      pattern (Pattern.last before x) (y ++ rest) ≠ none := by
  induction part generalizing before with
  | nil => exact absurd trivial h
  | cons unit part ih =>
    by_cases hnone : pattern before (unit :: part ++ rest) = none
    · have htail : ¬pattern.Quiet (some unit) part rest := fun hquiet => h ⟨hnone, hquiet⟩
      rcases ih htail with ⟨x, y, rfl, hne, hquiet, hmatch⟩
      refine ⟨unit :: x, y, rfl, hne, ⟨?_, hquiet⟩, ?_⟩
      · rw [List.cons_append, List.append_assoc] at hnone
        exact hnone
      · rw [Pattern.last_cons]
        exact hmatch
    · exact ⟨[], unit :: part, rfl, List.cons_ne_nil _ _, trivial, hnone⟩

theorem scheme_ends_value {first blank v s y rest : Text} (hscheme : IsKeyword authSchemes first)
    (hblank : blank ≠ []) (hblanks : ∀ unit ∈ blank, isWhitespace unit = true)
    (hy : ∀ unit ∈ y, isValue unit = true) (hrest : ∀ unit ∈ rest.head?, isValue unit = false)
    (h : y ++ rest = first ++ (blank ++ (v ++ s))) :
    y = first ∧ rest = blank ++ (v ++ s) := by
  have hletters : ∀ unit ∈ first, isLetter unit = true := by
    rcases hscheme with ⟨keyword, hkeyword, hlower⟩
    have hall : ∀ keyword ∈ authSchemes, ∀ unit ∈ Utf16.text keyword, isLetter unit = true := by
      decide
    intro unit hunit
    apply isLetter_lower
    apply hall keyword hkeyword
    rw [← hlower]
    exact List.mem_map_of_mem hunit
  have htake : (y ++ rest).takeWhile isValue = y := takeWhile_append hy hrest
  have htakeScheme : (first ++ (blank ++ (v ++ s))).takeWhile isValue = first := by
    apply takeWhile_append fun unit hunit => isValue_letter (hletters unit hunit)
    intro unit hunit
    rw [List.head?_append_of_ne_nil _ hblank] at hunit
    unfold isValue
    rw [hblanks unit (List.mem_of_mem_head? hunit), Bool.not_true, Bool.and_false]
  have hsame : y = first := by rw [← htake, h, htakeScheme]
  subst hsame
  exact ⟨rfl, List.append_cancel_left h⟩

theorem AlikeFrom.refl (b : Option UInt16) (s : Text) : AlikeFrom b b s s := by
  induction hlength : s.length using Nat.strongRecOn generalizing b s with
  | ind n ih =>
    have hshorter : ∀ (b : Option UInt16) (part rest : Text), part ≠ [] → s = part ++ rest →
        AlikeFrom b b rest rest := by
      intro b part rest hne hsplit
      apply ih rest.length _ b rest rfl
      rw [← hlength, hsplit, List.length_append]
      have hpositive := List.length_pos_iff.mpr hne
      omega
    cases hauth : authValuePattern b s with
    | some found =>
      rcases authValue_of_found hauth with ⟨scheme, blank, v, rest, rfl, hvalue, -⟩
      apply AlikeFrom.auth hvalue hvalue
      apply hshorter _ (scheme ++ (blank ++ v)) rest
      · intro hempty
        exact hvalue.separated
          (List.append_eq_nil_iff.mp (List.append_eq_nil_iff.mp hempty).2).1
      · simp only [List.append_assoc]
    | none =>
      cases hassigned : assignmentValuePattern b s with
      | none =>
        cases s with
        | nil => exact AlikeFrom.nil
        | cons unit s =>
          apply AlikeFrom.same ⟨hauth, hassigned⟩ ⟨hauth, hassigned⟩
          exact hshorter _ [unit] s (List.cons_ne_nil _ _) rfl
      | some found =>
        rcases assignedValue_of_found hassigned with ⟨name, v, rest, rfl, hvalue, -⟩
        by_cases hquiet : authValuePattern.Quiet (Pattern.last b name) v rest
        · apply AlikeFrom.assignment hvalue hvalue hquiet hquiet
          apply hshorter _ (name ++ v) rest
          · intro hempty
            exact hvalue.nonempty (List.append_eq_nil_iff.mp hempty).2
          · rw [List.append_assoc]
        · rcases first_match hquiet with ⟨x, y, hsplit, -, hbefore, hmatch⟩
          rcases Option.ne_none_iff_exists'.mp hmatch with ⟨nested, hnested⟩
          rcases authValue_of_found hnested with
            ⟨scheme, blank, credential, after, htext, hscheme, -⟩
          have hends := scheme_ends_value hscheme.keyword hscheme.separated hscheme.blanks
            (fun unit hunit => hvalue.values unit (by
              rw [hsplit]
              exact List.mem_append_right _ hunit)) hvalue.ends htext
          rcases hends with ⟨rfl, rfl⟩
          rw [← Pattern.last_append] at hscheme
          subst hsplit
          have hwhole : name ++ (x ++ y ++ (blank ++ (credential ++ after))) =
              name ++ (x ++ (y ++ (blank ++ (credential ++ after)))) := by
            rw [List.append_assoc]
          rw [hwhole]
          apply AlikeFrom.nested hvalue hvalue hbefore hbefore hscheme hscheme
          apply hshorter _ (name ++ (x ++ (y ++ (blank ++ credential)))) after
          · intro hempty
            have hparts := List.append_eq_nil_iff.mp hempty
            have hname := hvalue.keyword.name_split
            rcases hname with ⟨first, word, sign, hname, -⟩
            rw [hname] at hparts
            cases hparts.1
          · simp only [List.append_assoc]

/-! ## Values -/

variable {α : Type}

mutual

/-- Values that differ only under sensitive keys and in the credentials of their strings. -/
inductive Value.Alike : Value α → Value α → Prop
  | other (value : α) : Value.Alike (.other value) (.other value)
  | string {s t : Text} (h : TextAlike s t) : Value.Alike (.string s) (.string t)
  | array {items others : Values α} (h : items.Alike others) :
    Value.Alike (.array items) (.array others)
  | record {fields others : Fields α} (h : fields.Alike others) :
    Value.Alike (.record fields) (.record others)

inductive Values.Alike : Values α → Values α → Prop
  | nil : Values.Alike .nil .nil
  | cons {item other : Value α} {rest others : Values α} (hitem : item.Alike other)
    (hrest : rest.Alike others) : Values.Alike (.cons item rest) (.cons other others)

inductive Fields.Alike : Fields α → Fields α → Prop
  | nil : Fields.Alike .nil .nil
  | sensitive {key : Text} {value other : Value α} {rest others : Fields α}
    (hkey : isSensitiveKey key = true) (hrest : rest.Alike others) :
    Fields.Alike (.cons key value rest) (.cons key other others)
  | cons {key : Text} {value other : Value α} {rest others : Fields α}
    (hvalue : value.Alike other) (hrest : rest.Alike others) :
    Fields.Alike (.cons key value rest) (.cons key other others)

end

mutual

theorem Value.Alike.refl : (value : Value α) → value.Alike value
  | .other value => .other value
  | .string text => .string (AlikeFrom.refl none text)
  | .array items => .array (Values.Alike.refl items)
  | .record fields => .record (Fields.Alike.refl fields)

theorem Values.Alike.refl : (items : Values α) → items.Alike items
  | .nil => .nil
  | .cons item rest => .cons (Value.Alike.refl item) (Values.Alike.refl rest)

theorem Fields.Alike.refl : (fields : Fields α) → fields.Alike fields
  | .nil => .nil
  | .cons _ value rest => .cons (Value.Alike.refl value) (Fields.Alike.refl rest)

end

mutual

theorem Value.Alike.redacted {value other : Value α} (h : value.Alike other) :
    redactValue value = redactValue other := by
  cases h with
  | other value => rfl
  | string h => exact congrArg Value.string h.redacted
  | array h => exact congrArg Value.array h.redacted
  | record h => exact congrArg Value.record h.redacted

theorem Values.Alike.redacted {items others : Values α} (h : items.Alike others) :
    redactItems items = redactItems others := by
  cases h with
  | nil => rfl
  | cons hitem hrest => rw [redactItems, redactItems, hitem.redacted, hrest.redacted]

theorem Fields.Alike.redacted {fields others : Fields α} (h : fields.Alike others) :
    redactFields fields = redactFields others := by
  cases h with
  | nil => rfl
  | sensitive hkey hrest =>
    rw [redactFields, redactFields, hrest.redacted, if_pos hkey, if_pos hkey]
  | cons hvalue hrest => rw [redactFields, redactFields, hvalue.redacted, hrest.redacted]

end

mutual

theorem redactValue_twice : (value : Value α) → redactValue (redactValue value) = redactValue value
  | .other _ => rfl
  | .string text => congrArg Value.string (redactString_twice text)
  | .array items => congrArg Value.array (redactItems_twice items)
  | .record fields => congrArg Value.record (redactFields_twice fields)

theorem redactItems_twice : (items : Values α) → redactItems (redactItems items) = redactItems items
  | .nil => rfl
  | .cons item rest => by
    rw [redactItems, redactItems, redactValue_twice item, redactItems_twice rest]

theorem redactFields_twice :
    (fields : Fields α) → redactFields (redactFields fields) = redactFields fields
  | .nil => rfl
  | .cons key value rest => by
    rw [redactFields]
    split
    · exact redactFields_twice rest
    · rename_i hkey
      rw [redactFields, if_neg hkey, redactFields_twice rest]
      split
      · rfl
      · rw [redactValue_twice value]

end

/-- Alike values are redacted alike, and redacting twice changes nothing more. -/
theorem redaction_keeps_secrets :
    (∀ value other : Value α, value.Alike other → redactValue value = redactValue other) ∧
      ∀ value : Value α, redactValue (redactValue value) = redactValue value :=
  ⟨fun _ _ h => h.redacted, redactValue_twice⟩

/-- What follows a scheme is shown where it begins with another character than a token's, and a value
that ends in a scheme hides what follows it. -/
theorem punctuated_credential_shown :
    (¬∀ scheme blank v w : Text, IsKeyword authSchemes scheme → blank ≠ [] →
      (∀ unit ∈ blank, isWhitespace unit = true) →
      v ≠ [] → (∀ unit ∈ v, isWhitespace unit = false) →
      w ≠ [] → (∀ unit ∈ w, isWhitespace unit = false) →
      redactString (scheme ++ (blank ++ v)) = redactString (scheme ++ (blank ++ w))) ∧
    ¬∀ name v w rest : Text, IsKeyword assignedNames name →
      v ≠ [] → (∀ unit ∈ v, isWhitespace unit = false) →
      w ≠ [] → (∀ unit ∈ w, isWhitespace unit = false) →
      redactString (name ++ (v ++ (Utf16.text " " ++ rest))) =
        redactString (name ++ (w ++ (Utf16.text " " ++ rest))) := by
  constructor
  · intro hall
    have hshown := hall (Utf16.text "Bearer") (Utf16.text " ") (Utf16.text "!a") (Utf16.text "!b")
      ⟨"bearer", by decide, by decide⟩ (by decide) (by decide) (by decide) (by decide) (by decide)
      (by decide)
    have hdiffer : redactString (Utf16.text "Bearer" ++ (Utf16.text " " ++ Utf16.text "!a")) ≠
        redactString (Utf16.text "Bearer" ++ (Utf16.text " " ++ Utf16.text "!b")) := by decide
    exact hdiffer hshown
  · intro hall
    have hshown := hall (Utf16.text "token=") (Utf16.text "Bearer") (Utf16.text "x")
      (Utf16.text "abc") ⟨"token=", by decide, by decide⟩ (by decide) (by decide) (by decide)
      (by decide)
    have hdiffer : redactString (Utf16.text "token=" ++
          (Utf16.text "Bearer" ++ (Utf16.text " " ++ Utf16.text "abc"))) ≠
        redactString (Utf16.text "token=" ++
          (Utf16.text "x" ++ (Utf16.text " " ++ Utf16.text "abc"))) := by decide
    exact hdiffer hshown

end HarnessControl.Mcp
