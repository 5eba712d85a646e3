import HarnessControl.LocalActions.FilePatches

/-!
# The lines of a file as text

The bytes of a line are decoded by themselves, whatever they are, for no sequence of UTF-8 goes on after
a line end.  Of the text of a line only what stands after its last separator is kept.
-/

namespace HarnessControl.LocalActions

open HarnessControl.Library

/-! ## Lines of bytes -/

def PlainBytes (content : Bytes) : Prop := ∀ byte ∈ content, byte ≠ 10 ∧ byte ≠ 13

/-- The line ends before what follows them. -/
inductive EndOf (rest : Bytes) : Bytes → Prop where
  | lf : EndOf rest [10]
  | crlf : EndOf rest [13, 10]
  | cr : rest.head? ≠ some 10 → EndOf rest [13]

inductive ByteText : Bytes → List Bytes → Prop where
  | empty : ByteText [] []
  | last {content : Bytes} : PlainBytes content → content ≠ [] → ByteText content [content]
  | line {content ending rest : Bytes} {lines : List Bytes} : PlainBytes content →
    EndOf rest ending → ByteText rest lines →
    ByteText (content ++ (ending ++ rest)) ((content ++ ending) :: lines)

theorem byteLinesFrom_text {line : Bytes} (hline : PlainBytes line) (bytes : Bytes) :
    ByteText (line ++ bytes) (byteLinesFrom line bytes) := by
  have hnil : PlainBytes [] := fun _ h => absurd h List.not_mem_nil
  fun_induction byteLinesFrom line bytes with
  | case1 => exact .empty
  | case2 line hne =>
    rw [List.append_nil]
    exact .last hline hne
  | case3 line rest ih => exact .line hline .lf (ih hnil)
  | case4 line _ => exact .line hline (.cr (by simp)) .empty
  | case5 line _ others ih => exact .line hline .crlf (ih hnil)
  | case6 line next others hnext _ ih =>
    exact .line hline (.cr (by simpa using hnext)) (ih hnil)
  | case7 line byte rest hfeed hreturn ih =>
    have hmore : PlainBytes (line ++ [byte]) := by
      intro other hother
      obtain hold | hnew := List.mem_append.mp hother
      · exact hline other hold
      · exact List.mem_singleton.mp hnew ▸ ⟨hfeed, hreturn⟩
    have h := ih hmore
    rwa [List.append_assoc, List.singleton_append] at h

theorem byteLines_text (bytes : Bytes) : ByteText bytes (byteLines bytes) :=
  byteLinesFrom_text (fun _ h => absurd h List.not_mem_nil) bytes

variable {bytes : Bytes} {lines : List Bytes}

theorem ByteText.flatten (h : ByteText bytes lines) :
    lines.flatten = bytes := by
  induction h with
  | empty => rfl
  | last _ _ => exact List.append_nil _
  | line _ _ _ ih => rw [List.flatten_cons, ih, List.append_assoc]

theorem ByteText.between (h : ByteText bytes lines) :
    lines.Pairwise fun line _ => Utf8.after [] line = [] := by
  induction h with
  | empty => exact .nil
  | last _ _ => exact List.pairwise_singleton _ _
  | @line content ending rest lines hcontent hending hrest ih =>
    refine .cons (fun _ _ => ?_) ih
    cases hending with
    | lf => exact Utf8.after_ascii [] content (by decide)
    | crlf =>
      rw [show content ++ [13, 10] = (content ++ [13]) ++ [10] by simp]
      exact Utf8.after_ascii [] _ (by decide)
    | cr _ => exact Utf8.after_ascii [] content (by decide)

/-! ## The text of a line -/

def codeLine (line : Bytes) : Line := lastPart [] (Utf16.ofUtf8 line)

theorem plain_units {text : List Char} (h : ∀ c ∈ text, c ≠ '\n' ∧ c ≠ '\r') :
    Plain (Utf16.units text) := by
  intro unit hunit
  obtain ⟨c, hc, hunit⟩ := List.mem_flatMap.mp hunit
  have hshape := Utf16.shape c
  generalize Utf16.ofChar c = units at hunit hshape
  cases hshape with
  | one _ _ hchar =>
    rw [List.mem_singleton.mp hunit]
    constructor
    · rintro rfl
      exact (h c hc).1 (hchar.symm.trans (by decide))
    · rintro rfl
      exact (h c hc).2 (hchar.symm.trans (by decide))
  | two hhigh hlow _ =>
    simp only [List.mem_cons, List.not_mem_nil, or_false] at hunit
    obtain rfl | rfl := hunit
    · constructor
      · rintro rfl
        exact absurd hhigh (by decide)
      · rintro rfl
        exact absurd hhigh (by decide)
    · constructor
      · rintro rfl
        exact absurd hlow (by decide)
      · rintro rfl
        exact absurd hlow (by decide)

theorem plain_ofUtf8 {content : Bytes} (h : PlainBytes content) :
    Plain (Utf16.ofUtf8 content) := by
  apply plain_units
  intro c hc
  have hbytes := Utf8.mem_decode hc
  constructor
  · rintro rfl
    obtain hreplacement | hin := hbytes
    · exact absurd hreplacement (by decide)
    · exact (h 10 (hin 10 (by decide))).1 rfl
  · rintro rfl
    obtain hreplacement | hin := hbytes
    · exact absurd hreplacement (by decide)
    · exact (h 13 (hin 13 (by decide))).2 rfl

theorem ofUtf8_ascii {byte : UInt8} (content rest : Bytes) (hascii : byte.toNat ≤ 0x7F) :
    Utf16.ofUtf8 (content ++ byte :: rest) =
      Utf16.ofUtf8 content ++ Utf16.ofUtf8 (byte :: rest) := by
  have hsplits : ¬ Utf8.Splits content (byte :: rest) := by
    rintro ⟨-, first, others, hcons, hcontinues⟩
    cases hcons
    rw [Utf8.continues_ascii _ hascii] at hcontinues
    cases hcontinues
  unfold Utf16.ofUtf8
  rw [Utf8.decode_append_of_not_splits hsplits]
  exact List.flatMap_append

theorem ofUtf8_lineFeed (rest : Bytes) :
    Utf16.ofUtf8 (10 :: rest) = lineFeed :: Utf16.ofUtf8 rest := by
  have hread := ((Utf8.Sequence.one (show Utf8.sequenceLength 10 = 1 by decide)).reads rest).1
  unfold Utf16.ofUtf8
  rw [← List.singleton_append, hread]
  rfl

theorem ofUtf8_carriageReturn (rest : Bytes) :
    Utf16.ofUtf8 (13 :: rest) = carriageReturn :: Utf16.ofUtf8 rest := by
  have hread := ((Utf8.Sequence.one (show Utf8.sequenceLength 13 = 1 by decide)).reads rest).1
  unfold Utf16.ofUtf8
  rw [← List.singleton_append, hread]
  rfl

theorem ofUtf8_ne_nil (h : bytes ≠ []) : Utf16.ofUtf8 bytes ≠ [] := by
  intro hempty
  have hlength := Utf8.length_decode bytes
  cases hdecode : Utf8.decode bytes with
  | nil =>
    rw [hdecode] at hlength
    exact h (List.length_eq_zero_iff.mp (Nat.le_zero.mp hlength))
  | cons c others =>
    unfold Utf16.ofUtf8 at hempty
    rw [hdecode] at hempty
    have hshape := Utf16.shape c
    change Utf16.ofChar c ++ Utf16.units others = [] at hempty
    rw [(List.append_eq_nil_iff.mp hempty).1] at hshape
    cases hshape

theorem ByteText.not_lineFeed (h : ByteText bytes lines)
    (hbytes : bytes.head? ≠ some 10) : (Utf16.ofUtf8 bytes).head? ≠ some lineFeed := by
  have hplain : ∀ (content : Bytes) (rest : List UInt16), PlainBytes content → content ≠ [] →
      (Utf16.ofUtf8 content ++ rest).head? ≠ some lineFeed := by
    intro content rest hcontent hne
    cases hunits : Utf16.ofUtf8 content with
    | nil => exact absurd hunits (ofUtf8_ne_nil hne)
    | cons unit others =>
      intro hhead
      have hunit := (plain_ofUtf8 hcontent unit (by rw [hunits]; exact List.mem_cons_self)).1
      exact hunit (Option.some.inj hhead)
  cases h with
  | empty => exact nofun
  | last hcontent hne =>
    have hhead := hplain bytes [] hcontent hne
    rwa [List.append_nil] at hhead
  | @line content ending rest lines hcontent hending hrest =>
    by_cases hne : content = []
    · subst hne
      rw [List.nil_append] at hbytes ⊢
      cases hending with
      | lf => exact absurd rfl hbytes
      | crlf =>
        rw [show [13, 10] ++ rest = 13 :: (10 :: rest) from rfl, ofUtf8_carriageReturn]
        exact fun h => absurd (Option.some.inj h) (by decide)
      | cr _ =>
        rw [show [13] ++ rest = 13 :: rest from rfl, ofUtf8_carriageReturn]
        exact fun h => absurd (Option.some.inj h) (by decide)
    · obtain ⟨byte, others, hascii, hcons⟩ : ∃ (byte : UInt8) (others : Bytes),
          byte.toNat ≤ 0x7F ∧ ending ++ rest = byte :: others := by
        cases hending with
        | lf => exact ⟨10, rest, by decide, rfl⟩
        | crlf => exact ⟨13, 10 :: rest, by decide, rfl⟩
        | cr _ => exact ⟨13, rest, by decide, rfl⟩
      rw [hcons, ofUtf8_ascii content others hascii]
      exact hplain content _ hcontent hne

theorem lastPart_append (line first second : List UInt16) :
    lastPart line (first ++ second) = lastPart (lastPart line first) second := by
  unfold lastPart
  rw [List.foldl_append]

theorem ByteText.splitLines (h : ByteText bytes lines) :
    ∃ extra : List Line, lines.map codeLine =
      splitLinesPreservingEndings (Utf16.ofUtf8 bytes) ++ extra ∧ extra.flatten = [] := by
  induction h with
  | empty => exact ⟨[], rfl, rfl⟩
  | @last content hcontent hne =>
    have hsplit : splitLinesPreservingEndings (Utf16.ofUtf8 content) =
        splitLinesFrom (codeLine content) [] := by
      have h := splitLinesFrom_plain (plain_ofUtf8 hcontent) [] []
      rwa [List.append_nil] at h
    rw [hsplit]
    unfold splitLinesFrom
    by_cases hempty : codeLine content = []
    · rw [if_pos hempty]
      refine ⟨[codeLine content], rfl, ?_⟩
      rw [hempty]
      rfl
    · rw [if_neg hempty]
      exact ⟨[], rfl, rfl⟩
  | @line content ending rest lines hcontent hending hrest ih =>
    obtain ⟨extra, hlines, hextra⟩ := ih
    refine ⟨extra, ?_, hextra⟩
    unfold splitLinesPreservingEndings at hlines ⊢
    rw [List.map_cons, hlines]
    have hplain := splitLinesFrom_plain (plain_ofUtf8 hcontent) []
    cases hending with
    | lf =>
      have hline : codeLine (content ++ [10]) = codeLine content ++ [lineFeed] := by
        unfold codeLine
        rw [ofUtf8_ascii content [] (by decide), lastPart_append]
        rfl
      rw [hline, show [10] ++ rest = 10 :: rest from rfl, ofUtf8_ascii content rest (by decide),
        ofUtf8_lineFeed, hplain]
      conv_rhs => unfold splitLinesFrom
      rw [if_pos rfl]
      rfl
    | crlf =>
      have hline : codeLine (content ++ [13, 10]) =
          codeLine content ++ [carriageReturn, lineFeed] := by
        unfold codeLine
        rw [ofUtf8_ascii content [10] (by decide), lastPart_append]
        exact List.append_assoc _ [carriageReturn] [lineFeed]
      rw [hline, show [13, 10] ++ rest = 13 :: (10 :: rest) from rfl,
        ofUtf8_ascii content (10 :: rest) (by decide), ofUtf8_carriageReturn, ofUtf8_lineFeed,
        hplain]
      conv_rhs => unfold splitLinesFrom
      rw [if_neg (by decide), if_pos rfl]
      dsimp only
      rw [if_pos rfl]
      rfl
    | cr hnext =>
      have hline : codeLine (content ++ [13]) = codeLine content ++ [carriageReturn] := by
        unfold codeLine
        rw [ofUtf8_ascii content [] (by decide), lastPart_append]
        rfl
      have hhead := hrest.not_lineFeed hnext
      rw [hline, show [13] ++ rest = 13 :: rest from rfl, ofUtf8_ascii content rest (by decide),
        ofUtf8_carriageReturn, hplain]
      conv_rhs => unfold splitLinesFrom
      rw [if_neg (by decide), if_pos rfl]
      cases hunits : Utf16.ofUtf8 rest with
      | nil => rfl
      | cons unit others =>
        rw [hunits] at hhead
        dsimp only
        rw [if_neg fun hunit => hhead (congrArg some hunit)]
        rfl

/-! ## What is written for a line -/

def isSeparatorChar (c : Char) : Bool := c == '\u2028' || c == '\u2029'

def lastCharacters (part text : List Char) : List Char :=
  text.foldl (fun part c => if isSeparatorChar c then [] else part ++ [c]) part

theorem lastPart_ofChar (part : List Char) (c : Char) :
    lastPart (Utf16.units part) (Utf16.ofChar c) =
      if isSeparatorChar c then [] else Utf16.units (part ++ [c]) := by
  have hunits : Utf16.units (part ++ [c]) = Utf16.units part ++ Utf16.ofChar c := by
    unfold Utf16.units
    rw [List.flatMap_append, List.flatMap_singleton]
  have hone : ∀ unit : UInt16, isSeparator unit = true →
      lastPart (Utf16.units part) [unit] = [] := by
    intro unit hunit
    unfold lastPart
    rw [List.foldl_cons, List.foldl_nil, if_pos hunit]
  rw [hunits]
  by_cases hseparator : isSeparatorChar c = true
  · rw [if_pos hseparator]
    unfold isSeparatorChar at hseparator
    rw [Bool.or_eq_true, beq_iff_eq, beq_iff_eq] at hseparator
    obtain rfl | rfl := hseparator
    · rw [show Utf16.ofChar '\u2028' = [0x2028] by decide]
      exact hone 0x2028 (by decide)
    · rw [show Utf16.ofChar '\u2029' = [0x2029] by decide]
      exact hone 0x2029 (by decide)
  · rw [if_neg hseparator]
    have hshape := Utf16.shape c
    generalize Utf16.ofChar c = units at hshape
    have hsurrogate : ∀ unit : UInt16, 0xD800 ≤ unit.toNat ∧ unit.toNat ≤ 0xDFFF →
        isSeparator unit = false := by
      intro unit hunit
      unfold isSeparator
      rw [Bool.or_eq_false_iff, beq_eq_false_iff_ne, beq_eq_false_iff_ne]
      constructor
      · rintro rfl
        exact absurd hunit.1 (by decide)
      · rintro rfl
        exact absurd hunit.1 (by decide)
    cases hshape with
    | @one unit hhigh hlow hc =>
      have hunit : ¬ isSeparator unit = true := by
        intro hunit
        apply hseparator
        unfold isSeparator at hunit
        rw [Bool.or_eq_true, beq_iff_eq, beq_iff_eq] at hunit
        rw [← hc]
        obtain rfl | rfl := hunit
        · decide
        · decide
      exact if_neg hunit
    | @two high low hhigh hlow hc =>
      rw [Utf16.isHigh_iff] at hhigh
      rw [Utf16.isLow_iff] at hlow
      unfold lastPart
      rw [List.foldl_cons, List.foldl_cons, List.foldl_nil, hsurrogate high (by omega),
        hsurrogate low (by omega), if_neg Bool.false_ne_true, if_neg Bool.false_ne_true,
        List.append_assoc]
      rfl

theorem lastPart_units (part text : List Char) :
    lastPart (Utf16.units part) (Utf16.units text) = Utf16.units (lastCharacters part text) := by
  induction text generalizing part with
  | nil => rfl
  | cons c others ih =>
    show lastPart (Utf16.units part) (Utf16.ofChar c ++ Utf16.units others) = _
    rw [lastPart_append, lastPart_ofChar]
    unfold lastCharacters
    rw [List.foldl_cons]
    by_cases hseparator : isSeparatorChar c = true
    · rw [if_pos hseparator, if_pos hseparator]
      exact ih []
    · rw [if_neg hseparator, if_neg hseparator]
      exact ih (part ++ [c])

def written (line : Bytes) : Bytes := Utf8.encode (lastCharacters [] (Utf8.decode line))

theorem codeLine_units (line : Bytes) :
    codeLine line = Utf16.units (lastCharacters [] (Utf8.decode line)) :=
  lastPart_units [] (Utf8.decode line)

theorem toUtf8_codeLine (line : Bytes) : Utf16.toUtf8 (codeLine line) = written line := by
  rw [codeLine_units, Utf16.toUtf8_units]
  rfl

theorem lastCharacters_suffix (part text : List Char) (hpart : ∀ c ∈ part, isSeparatorChar c = false) :
    lastCharacters part text <:+ part ++ text ∧
      ∀ c ∈ lastCharacters part text, isSeparatorChar c = false := by
  induction text generalizing part with
  | nil => exact ⟨by rw [List.append_nil]; exact List.suffix_refl part, hpart⟩
  | cons c others ih =>
    unfold lastCharacters
    rw [List.foldl_cons]
    by_cases hseparator : isSeparatorChar c = true
    · rw [if_pos hseparator]
      obtain ⟨hsuffix, hclean⟩ := ih [] fun _ h => absurd h List.not_mem_nil
      refine ⟨hsuffix.trans ?_, hclean⟩
      exact ⟨part ++ [c], by simp⟩
    · rw [if_neg hseparator]
      have hmore : ∀ other ∈ part ++ [c], isSeparatorChar other = false := by
        intro other hother
        obtain hold | hnew := List.mem_append.mp hother
        · exact hpart other hold
        · exact List.mem_singleton.mp hnew ▸ Bool.eq_false_iff.mpr hseparator
      obtain ⟨hsuffix, hclean⟩ := ih (part ++ [c]) hmore
      rw [List.append_assoc, List.singleton_append] at hsuffix
      exact ⟨hsuffix, hclean⟩

theorem lastCharacters_eq {text : List Char} (h : ∀ c ∈ text, isSeparatorChar c = false)
    (part : List Char) : lastCharacters part text = part ++ text := by
  induction text generalizing part with
  | nil => exact (List.append_nil part).symm
  | cons c others ih =>
    unfold lastCharacters
    rw [List.foldl_cons, h c List.mem_cons_self, if_neg Bool.false_ne_true]
    have hothers := ih (fun other hother => h other (List.mem_cons_of_mem c hother)) (part ++ [c])
    rw [List.append_assoc, List.singleton_append] at hothers
    exact hothers

theorem written_eq {line : Bytes} : written line = line ↔ FaithfulLine line := by
  have hchar : ∀ c : Char, isSeparatorChar c = false ↔ c ≠ '\u2028' ∧ c ≠ '\u2029' := by
    intro c
    unfold isSeparatorChar
    rw [Bool.or_eq_false_iff, beq_eq_false_iff_ne, beq_eq_false_iff_ne]
  unfold FaithfulLine written
  constructor
  · intro h
    have hclean := (lastCharacters_suffix [] (Utf8.decode line)
      fun _ h => absurd h List.not_mem_nil).2
    generalize lastCharacters [] (Utf8.decode line) = text at h hclean
    rw [← h]
    refine ⟨Utf8.valid_encode text, ?_⟩
    rw [Utf8.decode_encode]
    exact fun c hc => (hchar c).mp (hclean c hc)
  · rintro ⟨hvalid, hclean⟩
    rw [lastCharacters_eq fun c hc => (hchar c).mpr (hclean c hc)]
    exact Utf8.encode_decode hvalid

theorem written_suffix {line : Bytes} (h : Utf8.valid line = true) : written line <:+ line := by
  obtain ⟨before, hsuffix⟩ := (lastCharacters_suffix [] (Utf8.decode line)
    fun _ h => absurd h List.not_mem_nil).1
  refine ⟨Utf8.encode before, ?_⟩
  unfold written
  rw [← Utf8.encode_append, hsuffix]
  exact Utf8.encode_decode h

end HarnessControl.LocalActions
