import HarnessControl.Mcp.Redaction
import Mathlib.Data.List.TakeWhile

/-!
# What the credential patterns match

A credential is a scheme, white space and token characters, or a name with `=` and a value.  Both
patterns begin with a word, and neither begins within what another replacement writes.
-/

namespace HarnessControl.Mcp

open HarnessControl.Library HarnessControl.LocalActions

variable {before : Option UInt16} {text part rest : Text} {unit : UInt16}

/-! ## Units -/

theorem isUpper_iff : isUpper unit = true ↔ 0x41 ≤ unit.toNat ∧ unit.toNat ≤ 0x5A := by
  unfold isUpper
  rw [Bool.and_eq_true, decide_eq_true_iff, decide_eq_true_iff]

theorem isLower_iff : isLower unit = true ↔ 0x61 ≤ unit.toNat ∧ unit.toNat ≤ 0x7A := by
  unfold isLower
  rw [Bool.and_eq_true, decide_eq_true_iff, decide_eq_true_iff]

theorem isLetter_iff :
    isLetter unit = true ↔ (0x41 ≤ unit.toNat ∧ unit.toNat ≤ 0x5A) ∨
      (0x61 ≤ unit.toNat ∧ unit.toNat ≤ 0x7A) := by
  unfold isLetter
  rw [Bool.or_eq_true, isUpper_iff, isLower_iff]

theorem isWhitespace_printable (hlow : 0x21 ≤ unit.toNat) (hhigh : unit.toNat ≤ 0x7E) :
    isWhitespace unit = false := by
  cases hspace : isWhitespace unit with
  | false => rfl
  | true =>
    unfold isWhitespace at hspace
    rw [Bool.or_eq_true, List.contains_iff_mem, Bool.and_eq_true, decide_eq_true_iff] at hspace
    simp only [List.mem_cons, List.not_mem_nil, or_false] at hspace
    rcases hspace with hone | hrange
    · rcases hone with rfl | rfl | rfl | rfl | rfl | rfl | rfl | rfl | rfl | rfl | rfl | rfl |
        rfl | rfl
      all_goals
        revert hlow hhigh
        decide
    · omega

theorem isToken_printable (h : isToken unit = true) : 0x21 ≤ unit.toNat ∧ unit.toNat ≤ 0x7E := by
  unfold isToken at h
  rw [Bool.or_eq_true, Bool.or_eq_true, isLetter_iff] at h
  rcases h with (hletter | hdigit) | hmark
  · omega
  · unfold isDigit at hdigit
    rw [Bool.and_eq_true, decide_eq_true_iff, decide_eq_true_iff] at hdigit
    omega
  · have hall : ∀ mark ∈ Utf16.text "._~+/=-", 0x21 ≤ mark.toNat ∧ mark.toNat ≤ 0x7E := by decide
    exact hall unit (List.contains_iff_mem.mp hmark)

theorem isToken_letter (h : isLetter unit = true) : isToken unit = true := by
  unfold isToken
  rw [h]
  rfl

theorem isValue_letter (h : isLetter unit = true) : isValue unit = true := by
  have hrange := isLetter_iff.mp h
  have hspace : isWhitespace unit = false := isWhitespace_printable (by omega) (by omega)
  have hne : unit ≠ 0x26 := by
    rintro rfl
    revert h
    decide
  unfold isValue
  rw [hspace, bne_iff_ne.mpr hne]
  rfl

theorem isWord_letter (h : isLetter unit = true) : isWord unit = true := by
  unfold isWord
  rw [h]
  rfl

theorem isLetter_whitespace (h : isWhitespace unit = true) : isLetter unit = false := by
  cases hletter : isLetter unit with
  | false => rfl
  | true =>
    have hrange := isLetter_iff.mp hletter
    rw [isWhitespace_printable (by omega) (by omega)] at h
    cases h

theorem isLetter_not_token (h : isToken unit = false) : isLetter unit = false := by
  cases hletter : isLetter unit with
  | false => rfl
  | true =>
    rw [isToken_letter hletter] at h
    cases h

theorem isLetter_not_value (h : isValue unit = false) : isLetter unit = false := by
  cases hletter : isLetter unit with
  | false => rfl
  | true =>
    rw [isValue_letter hletter] at h
    cases h

theorem isLetter_lower (h : isLetter (lower unit) = true) : isLetter unit = true := by
  unfold lower at h
  split at h
  · rename_i hupper
    unfold isLetter
    rw [hupper]
    rfl
  · exact h

theorem lower_word (h : isWord (lower unit) = true) : isWord unit = true := by
  unfold lower at h
  split at h
  · rename_i hupper
    apply isWord_letter
    unfold isLetter
    rw [hupper]
    rfl
  · exact h

/-! ## Keywords -/

/-- The part is one of the keywords, in any case. -/
def IsKeyword (keywords : List String) (part : Text) : Prop :=
  ∃ keyword ∈ keywords, part.map lower = Utf16.text keyword

variable {keywords : List String}

theorem keywordAt_some (h : keywordAt keywords text = some part) :
    IsKeyword keywords part ∧ ∃ rest, text = part ++ rest := by
  unfold keywordAt at h
  rw [Option.map_eq_some_iff] at h
  rcases h with ⟨keyword, hfind, rfl⟩
  have hmatch := List.find?_some hfind
  rw [beq_iff_eq] at hmatch
  exact ⟨⟨keyword, List.mem_of_find?_eq_some hfind, hmatch⟩,
    text.drop (Utf16.text keyword).length, (List.take_append_drop _ _).symm⟩

theorem keywordAt_keyword
    (hfree : ∀ first ∈ keywords, ∀ second ∈ keywords,
      Utf16.text first <+: Utf16.text second → first = second)
    (hpart : IsKeyword keywords part) (rest : Text) :
    keywordAt keywords (part ++ rest) = some part := by
  rcases hpart with ⟨keyword, hkeyword, hlower⟩
  have hlength : part.length = (Utf16.text keyword).length := by
    rw [← hlower, List.length_map]
  have hself : (part ++ rest).take (Utf16.text keyword).length = part := by
    rw [← hlength, List.take_left]
  cases hfind : keywords.find? fun keyword =>
      ((part ++ rest).take (Utf16.text keyword).length).map lower == Utf16.text keyword with
  | none =>
    have hnot := List.find?_eq_none.mp hfind keyword hkeyword
    rw [hself, hlower, beq_self_eq_true] at hnot
    exact absurd rfl hnot
  | some first =>
    have hmatch := List.find?_some hfind
    rw [beq_iff_eq] at hmatch
    have hfirst := List.mem_of_find?_eq_some hfind
    -- both stand at the front, so one begins with the other
    have hwhole : Utf16.text keyword <+: (part ++ rest).map lower := by
      rw [List.map_append, hlower]
      exact List.prefix_append _ _
    have hother : Utf16.text first <+: (part ++ rest).map lower := by
      rw [← hmatch]
      exact (List.take_prefix _ _).map lower
    have hsame : first = keyword := by
      rcases List.prefix_or_prefix_of_prefix hother hwhole with hle | hle
      · exact hfree first hfirst keyword hkeyword hle
      · exact (hfree keyword hkeyword first hfirst hle).symm
    unfold keywordAt
    rw [hfind, hsame, Option.map_some, hself]

theorem keywordAt_none
    (h : ∀ keyword ∈ keywords, part.length ≤ (Utf16.text keyword).length ∧
      (Utf16.text keyword).take part.length ≠ part.map lower) (rest : Text) :
    keywordAt keywords (part ++ rest) = none := by
  cases hfound : keywordAt keywords (part ++ rest) with
  | none => rfl
  | some found =>
    rcases keywordAt_some hfound with ⟨⟨keyword, hkeyword, hlower⟩, after, hafter⟩
    rcases h keyword hkeyword with ⟨hlength, hdiffer⟩
    have hfoundLength : part.length ≤ found.length := by
      have hsame := congrArg List.length hlower
      rw [List.length_map] at hsame
      rw [hsame]
      exact hlength
    have hpart : part = found.take part.length := by
      have htake := congrArg (List.take part.length) hafter
      rw [List.take_left, List.take_append_of_le_length hfoundLength] at htake
      exact htake
    refine absurd ?_ hdiffer
    rw [← hlower, ← List.map_take, ← hpart]

theorem IsKeyword.words {part : Text} (h : IsKeyword keywords part)
    (hwords : ∀ keyword ∈ keywords, ∀ unit ∈ (Utf16.text keyword).dropLast, isWord unit = true) :
    ∀ unit ∈ part.dropLast, isWord unit = true := by
  rcases h with ⟨keyword, hkeyword, hlower⟩
  intro unit hunit
  apply lower_word
  apply hwords keyword hkeyword
  rw [← hlower, ← List.map_dropLast]
  exact List.mem_map_of_mem hunit

/-! ## Credentials -/

/-- A scheme, white space and token characters, as many as there are. -/
structure AuthValue (before : Option UInt16) (scheme blank credential rest : Text) : Prop where
  outside : before.any isWord = false
  keyword : IsKeyword authSchemes scheme
  separated : blank ≠ []
  blanks : ∀ unit ∈ blank, isWhitespace unit = true
  nonempty : credential ≠ []
  tokens : ∀ unit ∈ credential, isToken unit = true
  ends : ∀ unit ∈ rest.head?, isToken unit = false

/-- A name with `=` and a value, up to `&`, white space or the end. -/
structure AssignedValue (before : Option UInt16) (name credential rest : Text) : Prop where
  outside : before.any isWord = false
  keyword : IsKeyword assignedNames name
  nonempty : credential ≠ []
  values : ∀ unit ∈ credential, isValue unit = true
  ends : ∀ unit ∈ rest.head?, isValue unit = false

theorem takeWhile_append {p : UInt16 → Bool} {part : Text} (hpart : ∀ unit ∈ part, p unit = true)
    (hrest : ∀ unit ∈ rest.head?, p unit = false) : (part ++ rest).takeWhile p = part := by
  rw [List.takeWhile_append_of_pos hpart]
  cases rest with
  | nil => exact List.append_nil _
  | cons unit rest =>
    rw [List.takeWhile_cons_of_neg, List.append_nil]
    rw [hrest unit rfl]
    exact Bool.false_ne_true

theorem takeWhile_ends (p : UInt16 → Bool) (text : Text) :
    ∀ unit ∈ (text.dropWhile p).head?, p unit = false := by
  intro unit hunit
  have hnot := List.head?_dropWhile_not p text
  rw [hunit] at hnot
  exact hnot

theorem takeWhile_rest (p : UInt16 → Bool) (text : Text) :
    text = text.takeWhile p ++ text.drop (text.takeWhile p).length ∧
      ∀ unit ∈ (text.drop (text.takeWhile p).length).head?, p unit = false := by
  have hdrop : text.drop (text.takeWhile p).length = text.dropWhile p := by
    have hwhole := List.takeWhile_append_dropWhile (p := p) (l := text)
    calc text.drop (text.takeWhile p).length
        = (text.takeWhile p ++ text.dropWhile p).drop (text.takeWhile p).length := by rw [hwhole]
      _ = text.dropWhile p := List.drop_left
  rw [hdrop]
  exact ⟨List.takeWhile_append_dropWhile.symm, takeWhile_ends p text⟩

theorem authSchemes_free : ∀ first ∈ authSchemes, ∀ second ∈ authSchemes,
    Utf16.text first <+: Utf16.text second → first = second := by decide

theorem assignedNames_free : ∀ first ∈ assignedNames, ∀ second ∈ assignedNames,
    Utf16.text first <+: Utf16.text second → first = second := by decide

variable {scheme blank credential name : Text}

theorem AuthValue.found (h : AuthValue before scheme blank credential rest) :
    authValuePattern before (scheme ++ (blank ++ (credential ++ rest))) =
      some ⟨scheme ++ Utf16.text " " ++ redacted,
        scheme.length + blank.length + credential.length⟩ := by
  have hblank : (blank ++ (credential ++ rest)).takeWhile isWhitespace = blank := by
    apply takeWhile_append h.blanks
    intro unit hunit
    rw [List.head?_append_of_ne_nil _ h.nonempty] at hunit
    have hrange := isToken_printable (h.tokens unit (List.mem_of_mem_head? hunit))
    exact isWhitespace_printable hrange.1 hrange.2
  have hcredential : (credential ++ rest).takeWhile isToken = credential :=
    takeWhile_append h.tokens h.ends
  unfold authValuePattern
  rw [h.outside, if_neg Bool.false_ne_true, keywordAt_keyword authSchemes_free h.keyword,
    Option.bind_some]
  dsimp only
  rw [List.drop_left, hblank, List.drop_left, hcredential, if_neg]
  rw [not_or]
  exact ⟨h.separated, h.nonempty⟩

theorem authValue_of_found {text : Text} {found : Found UInt16}
    (h : authValuePattern before text = some found) :
    ∃ scheme blank credential rest, text = scheme ++ (blank ++ (credential ++ rest)) ∧
      AuthValue before scheme blank credential rest ∧
      found = ⟨scheme ++ Utf16.text " " ++ redacted,
        scheme.length + blank.length + credential.length⟩ := by
  unfold authValuePattern at h
  split at h
  · cases h
  · rename_i houtside
    rw [Bool.not_eq_true] at houtside
    rw [Option.bind_eq_some_iff] at h
    rcases h with ⟨scheme, hscheme, hfound⟩
    rcases keywordAt_some hscheme with ⟨hkeyword, rest, rfl⟩
    dsimp only at hfound
    rw [List.drop_left] at hfound
    rcases takeWhile_rest isWhitespace rest with ⟨hrest, -⟩
    rcases takeWhile_rest isToken (rest.drop (rest.takeWhile isWhitespace).length) with
      ⟨htail, hends⟩
    split at hfound
    · cases hfound
    · rename_i hparts
      rw [not_or] at hparts
      refine ⟨scheme, rest.takeWhile isWhitespace,
        (rest.drop (rest.takeWhile isWhitespace).length).takeWhile isToken, _, ?_,
        ⟨houtside, hkeyword, hparts.1, ?_, hparts.2, ?_, hends⟩,
        (Option.some.inj hfound).symm⟩
      · rw [← htail, ← hrest]
      · exact fun unit hunit => List.mem_takeWhile_imp hunit
      · exact fun unit hunit => List.mem_takeWhile_imp hunit

theorem AssignedValue.found (h : AssignedValue before name credential rest) :
    assignmentValuePattern before (name ++ (credential ++ rest)) =
      some ⟨name ++ redacted, name.length + credential.length⟩ := by
  have hcredential : (credential ++ rest).takeWhile isValue = credential :=
    takeWhile_append h.values h.ends
  unfold assignmentValuePattern
  rw [h.outside, if_neg Bool.false_ne_true, keywordAt_keyword assignedNames_free h.keyword,
    Option.bind_some]
  dsimp only
  rw [List.drop_left, hcredential, if_neg h.nonempty]

theorem assignedValue_of_found {text : Text} {found : Found UInt16}
    (h : assignmentValuePattern before text = some found) :
    ∃ name credential rest, text = name ++ (credential ++ rest) ∧
      AssignedValue before name credential rest ∧
      found = ⟨name ++ redacted, name.length + credential.length⟩ := by
  unfold assignmentValuePattern at h
  split at h
  · cases h
  · rename_i houtside
    rw [Bool.not_eq_true] at houtside
    rw [Option.bind_eq_some_iff] at h
    rcases h with ⟨name, hname, hfound⟩
    rcases keywordAt_some hname with ⟨hkeyword, rest, rfl⟩
    dsimp only at hfound
    rw [List.drop_left] at hfound
    rcases takeWhile_rest isValue rest with ⟨hrest, hends⟩
    split at hfound
    · cases hfound
    · rename_i hcredential
      refine ⟨name, rest.takeWhile isValue, _, ?_, ⟨houtside, hkeyword, hcredential, ?_, hends⟩,
        (Option.some.inj hfound).symm⟩
      · rw [← hrest]
      · exact fun unit hunit => List.mem_takeWhile_imp hunit

/-! ## Where a match begins -/

theorem IsKeyword.head (h : IsKeyword keywords part)
    (hletters : ∀ keyword ∈ keywords, (Utf16.text keyword).head?.any isLetter = true) :
    ∃ first tail, part = first :: tail ∧ isLetter first = true := by
  rcases h with ⟨keyword, hkeyword, hlower⟩
  have hfirst := hletters keyword hkeyword
  rw [← hlower] at hfirst
  cases part with
  | nil => cases hfirst
  | cons first tail => exact ⟨first, tail, rfl, isLetter_lower hfirst⟩

theorem authSchemes_letters : ∀ keyword ∈ authSchemes,
    (Utf16.text keyword).head?.any isLetter = true := by decide

theorem assignedNames_letters : ∀ keyword ∈ assignedNames,
    (Utf16.text keyword).head?.any isLetter = true := by decide

theorem authSchemes_words : ∀ keyword ∈ authSchemes, ∀ unit ∈ Utf16.text keyword,
    isWord unit = true := by decide

theorem assignedNames_words : ∀ keyword ∈ assignedNames,
    ∀ unit ∈ (Utf16.text keyword).dropLast, isWord unit = true := by decide

theorem authValuePattern_anchored : authValuePattern.Anchored isWord isLetter where
  outside := by
    intro before text found h
    rcases authValue_of_found h with ⟨scheme, blank, credential, rest, -, hvalue, -⟩
    exact hvalue.outside
  taken := by
    intro before text found h
    rcases authValue_of_found h with ⟨scheme, blank, credential, rest, rfl, hvalue, rfl⟩
    rcases hvalue.keyword.head authSchemes_letters with ⟨first, tail, rfl, hletter⟩
    refine ⟨first, tail ++ (blank ++ credential), rest, ?_, ?_, hletter, rfl⟩
    · rw [List.cons_append, List.cons_append, List.append_assoc, List.append_assoc]
    · simp only [List.length_cons, List.length_append]
      omega

theorem assignmentValuePattern_anchored : assignmentValuePattern.Anchored isWord isLetter where
  outside := by
    intro before text found h
    rcases assignedValue_of_found h with ⟨name, credential, rest, -, hvalue, -⟩
    exact hvalue.outside
  taken := by
    intro before text found h
    rcases assignedValue_of_found h with ⟨name, credential, rest, rfl, hvalue, rfl⟩
    rcases hvalue.keyword.head assignedNames_letters with ⟨first, tail, rfl, hletter⟩
    refine ⟨first, tail ++ credential, rest, ?_, ?_, hletter, rfl⟩
    · rw [List.cons_append, List.cons_append, List.append_assoc]
    · simp only [List.length_cons, List.length_append]
      omega

theorem AuthValue.rest_plain (h : AuthValue before scheme blank credential rest) :
    ∀ unit ∈ rest.head?, isLetter unit = false :=
  fun unit hunit => isLetter_not_token (h.ends unit hunit)

theorem AssignedValue.rest_plain (h : AssignedValue before name credential rest) :
    ∀ unit ∈ rest.head?, isLetter unit = false :=
  fun unit hunit => isLetter_not_value (h.ends unit hunit)

/-! ## Matches that a replacement leaves or makes -/

variable {pattern : Pattern UInt16}

theorem run_at {p : UInt16 → Bool} {text : Text} (h : text.head?.any p = true) :
    ∃ part rest, text = part ++ rest ∧ part ≠ [] ∧ (∀ unit ∈ part, p unit = true) ∧
      ∀ unit ∈ rest.head?, p unit = false := by
  rcases takeWhile_rest p text with ⟨hsplit, hends⟩
  refine ⟨text.takeWhile p, _, hsplit, ?_, fun _ hmem => List.mem_takeWhile_imp hmem, hends⟩
  intro hempty
  cases text with
  | nil => cases h
  | cons unit text =>
    have hunit : p unit = true := h
    rw [List.takeWhile_cons_of_pos hunit] at hempty
    cases hempty

theorem head_any {p : UInt16 → Bool} {part : Text} (hne : part ≠ [])
    (hpart : ∀ unit ∈ part, p unit = true) (rest : Text) :
    (part ++ rest).head?.any p = true := by
  cases part with
  | nil => exact absurd rfl hne
  | cons unit part => exact hpart unit List.mem_cons_self

theorem keyword_copied (hpattern : pattern.Anchored isWord isLetter) {word after : Text}
    (hword : ∀ other ∈ unit :: word, isWord other = true)
    (h : pattern.replaceAll (some unit) rest = word ++ after) :
    ∃ tail, rest = word ++ tail ∧ pattern.replaceAll (Pattern.last (some unit) word) tail = after ∧
      (Pattern.last (some unit) word).any isWord = true := by
  have hunit : (some unit).any isWord = true := hword unit List.mem_cons_self
  rcases hpattern.word_copied (fun other hother => hword other (List.mem_cons_of_mem _ hother))
    hunit ⟨after, h.symm⟩ with ⟨tail, htail, hcopied⟩
  rw [h] at hcopied
  exact ⟨tail, htail, (List.append_cancel_left hcopied).symm, Pattern.last_any hword⟩

theorem IsKeyword.name_split (h : IsKeyword assignedNames name) :
    ∃ first word sign, name = first :: word ++ [sign] ∧
      ∀ unit ∈ first :: word, isWord unit = true := by
  have hwords := h.words assignedNames_words
  rcases h with ⟨keyword, hkeyword, hlower⟩
  have hlong : 2 ≤ name.length := by
    have hall : ∀ keyword ∈ assignedNames, 2 ≤ (Utf16.text keyword).length := by decide
    have hlength := congrArg List.length hlower
    rw [List.length_map] at hlength
    rw [hlength]
    exact hall keyword hkeyword
  cases name with
  | nil => cases hlong
  | cons first tail =>
    have htail : tail ≠ [] := by
      rintro rfl
      rw [List.length_singleton] at hlong
      omega
    rw [List.dropLast_cons_of_ne_nil htail] at hwords
    exact ⟨first, tail.dropLast, tail.getLast htail,
      congrArg _ (List.dropLast_append_getLast htail).symm, hwords⟩

theorem assignment_emerges (hpattern : pattern.Anchored isWord isLetter)
    (h : assignmentValuePattern before (unit :: rest) = none) :
    assignmentValuePattern before (unit :: pattern.replaceAll (some unit) rest) = none := by
  cases hfound : assignmentValuePattern before (unit :: pattern.replaceAll (some unit) rest) with
  | none => rfl
  | some found =>
    rcases assignedValue_of_found hfound with ⟨name, credential, after, htext, hvalue, -⟩
    rcases hvalue.keyword.name_split with ⟨first, word, last, hname, hwords⟩
    rw [hname, List.cons_append, List.cons_append, List.cons.injEq, List.append_assoc] at htext
    rcases htext with ⟨rfl, htail⟩
    rcases keyword_copied hpattern hwords htail with ⟨tail, hrest, hafter, hlast⟩
    have hhead := hpattern.head (Pattern.last (some unit) word) tail
    rw [hafter] at hhead
    cases tail with
    | nil => cases hhead
    | cons sign values =>
      have hsign : last = sign := Option.some.inj hhead
      subst hsign
      rw [Pattern.replaceAll_none (hpattern.within hlast _), List.singleton_append,
        List.cons.injEq] at hafter
      have hvalues : values.head?.any isValue = true := by
        rw [← hpattern.head (some last) values, hafter.2]
        exact head_any hvalue.nonempty hvalue.values after
      rcases run_at hvalues with ⟨part, others, hsplit, hne, hall, hends⟩
      have hmatch : AssignedValue before name part others :=
        ⟨hvalue.outside, hvalue.keyword, hne, hall, hends⟩
      have hnone := hmatch.found
      rw [← hsplit, hname, List.append_assoc, List.cons_append, List.singleton_append,
        ← hrest, h] at hnone
      cases hnone

theorem auth_emerges (hpattern : pattern.Anchored isWord isLetter)
    (h : authValuePattern before (unit :: rest) = none) :
    authValuePattern before (unit :: pattern.replaceAll (some unit) rest) = none := by
  cases hfound : authValuePattern before (unit :: pattern.replaceAll (some unit) rest) with
  | none => rfl
  | some found =>
    rcases authValue_of_found hfound with
      ⟨scheme, blank, credential, after, htext, hvalue, -⟩
    rcases hvalue.keyword.head authSchemes_letters with ⟨first, word, hscheme, -⟩
    have hwords : ∀ other ∈ first :: word, isWord other = true := by
      rcases hvalue.keyword with ⟨keyword, hkeyword, hlower⟩
      intro other hother
      apply lower_word
      apply authSchemes_words keyword hkeyword
      rw [← hlower, hscheme]
      exact List.mem_map_of_mem hother
    rw [hscheme, List.cons_append, List.cons.injEq] at htext
    rcases htext with ⟨rfl, htail⟩
    rcases keyword_copied hpattern hwords htail with ⟨tail, hrest, hafter, -⟩
    rcases hpattern.plain_copied (fun other hother => isLetter_whitespace
      (hvalue.blanks other hother)) ⟨credential ++ after, hafter.symm⟩ with
      ⟨values, hvaluesRest, hcopied⟩
    rw [hafter] at hcopied
    have hvalues : values.head?.any isToken = true := by
      rw [← hpattern.head _ values, ← List.append_cancel_left hcopied]
      exact head_any hvalue.nonempty hvalue.tokens after
    rcases run_at hvalues with ⟨part, others, hsplit, hne, hall, hends⟩
    have hmatch : AuthValue before scheme blank part others :=
      ⟨hvalue.outside, hvalue.keyword, hvalue.separated, hvalue.blanks, hne, hall, hends⟩
    have hnone := hmatch.found
    rw [← hsplit, ← hvaluesRest, hscheme, List.cons_append, ← hrest, h] at hnone
    cases hnone

end HarnessControl.Mcp
