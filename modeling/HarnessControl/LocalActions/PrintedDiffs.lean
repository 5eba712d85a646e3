import HarnessControl.LocalActions.DiffScripts

/-!
# Printed diffs as they are read

A diff whose lines are kept is read as the script that was printed, and its hunks are placed where
they belong, but for those without a line of the old text: these come one line too early.
-/

namespace HarnessControl.LocalActions

open HarnessControl.Library

/-! ## Conditions -/

def NoSeparator (units : List UInt16) : Prop := ∀ unit ∈ units, isSeparator unit = false

namespace Diff

/-- No separator is in the header of a hunk, and what is kept of a header of a file does not look
like one. -/
def HeadersKept (diff : Diff) : Prop :=
  (∀ header ∈ diff.preamble, startsWith "@@" (lastPart [] header.content) = false) ∧
    ∀ hunk ∈ diff.hunks, NoSeparator hunk.heading

def LinesKept (diff : Diff) : Prop :=
  (∀ line ∈ diff.old, NoSeparator line.content) ∧ ∀ line ∈ diff.new, NoSeparator line.content

def HunksTerminated (diff : Diff) : Prop :=
  ∀ hunk ∈ diff.hunks, ∀ line ∈ hunk.lines, line.line.ending ≠ .missing

/-- A hunk without lines of the old text, that is not at the start, inserts only copies of the line
before it. -/
def InsertsRepeat (diff : Diff) : Prop :=
  ∀ hunk ∈ diff.hunks, hunk.old = [] → ∀ before ∈ hunk.gap.getLast?, ∀ line ∈ hunk.new,
    line.units = before.units

end Diff

/-! ## Reading what is printed -/

theorem lastPart_noSeparator {content : List UInt16} (h : NoSeparator content) (line : Line) :
    lastPart line content = line ++ content := by
  induction content generalizing line with
  | nil => exact (List.append_nil line).symm
  | cons unit others ih =>
    have hunit := h unit List.mem_cons_self
    unfold lastPart
    rw [List.foldl_cons, hunit, if_neg Bool.false_ne_true]
    rw [show others.foldl _ (line ++ [unit]) = lastPart (line ++ [unit]) others from rfl,
      ih fun other hother => h other (List.mem_cons_of_mem unit hother), List.append_assoc]
    rfl

theorem TextLine.kept_eq {line : TextLine} (h : NoSeparator line.content) :
    line.kept = line.units := by
  unfold TextLine.kept TextLine.units
  rw [lastPart_noSeparator h, List.nil_append]

theorem after?_append (mark : String) (line : Line) :
    after? mark (Utf16.text mark ++ line) = some line := by
  unfold after? startsWith
  rw [if_pos (List.isPrefixOf_iff_prefix.mpr (List.prefix_append _ _)), List.drop_left]

theorem digits?_decimal (n : Nat) {line : Line}
    (h : ∀ unit, line.head? = some unit → isDigit unit = false) :
    digits? (decimal n ++ line) = some (decimal n, line) := by
  obtain ⟨hne, hdigits, -⟩ := decimal_digits n
  have htake : (decimal n ++ line).takeWhile isDigit = decimal n := by
    rw [List.takeWhile_append_of_pos hdigits]
    cases line with
    | nil => exact List.append_nil _
    | cons unit others =>
      rw [List.takeWhile_cons_of_neg (by rw [h unit rfl]; exact Bool.false_ne_true)]
      exact List.append_nil _
  have hdrop : (decimal n ++ line).dropWhile isDigit = line := by
    rw [List.dropWhile_append_of_pos hdigits]
    cases line with
    | nil => rfl
    | cons unit others =>
      exact List.dropWhile_cons_of_neg (by rw [h unit rfl]; exact Bool.false_ne_true)
  unfold digits?
  rw [htake, hdrop, if_neg hne]

theorem range_read (index count : Nat) {rest : Line} (h : rest.head? = some 0x20) :
    ∃ others, digits? (range index count ++ rest) =
        some (decimal (if count = 0 then index else index + 1), others) ∧
      skipCount others = rest := by
  have hrest : ∀ unit, rest.head? = some unit → isDigit unit = false := by
    intro unit hunit
    rw [h] at hunit
    rw [← Option.some.inj hunit]
    decide
  have hcomma : Utf16.text "," = [0x2C] := by decide
  unfold range
  by_cases hone : count = 1
  · refine ⟨rest, ?_, ?_⟩
    · rw [if_pos hone, List.append_nil]
      exact digits?_decimal _ hrest
    · have hnone : after? "," rest = none := by
        unfold after? startsWith
        rw [hcomma]
        obtain ⟨others, rfl⟩ : ∃ others, rest = 0x20 :: others := by
          cases rest with
          | nil => cases h
          | cons unit others =>
            cases h
            exact ⟨others, rfl⟩
        rfl
      unfold skipCount
      rw [hnone]
      rfl
  · refine ⟨Utf16.text "," ++ (decimal count ++ rest), ?_, ?_⟩
    · rw [if_neg hone, List.append_assoc, List.append_assoc]
      apply digits?_decimal
      intro unit hunit
      rw [hcomma] at hunit
      rw [← Option.some.inj hunit]
      decide
    · unfold skipCount
      rw [after?_append, Option.bind_some, digits?_decimal count hrest]

theorem header_read (oldIndex newIndex : Nat) (hunk : DiffHunk) (rest : Line) :
    parseUnifiedDiffHunkHeader ((hunkHeader oldIndex newIndex hunk).content ++ rest) =
      .ok (if hunk.old.length = 0 then oldIndex else oldIndex + 1) := by
  have hplus : Utf16.text " +" = [0x20, 0x2B] := by decide
  have hclose : Utf16.text " @@" = [0x20, 0x40, 0x40] := by decide
  obtain ⟨afterNew, hnew, hskipNew⟩ := @range_read newIndex hunk.new.length
    (Utf16.text " @@" ++ (hunk.heading ++ rest)) (by rw [hclose]; rfl)
  obtain ⟨afterOld, hold, hskipOld⟩ := @range_read oldIndex hunk.old.length
    (Utf16.text " +" ++ (range newIndex hunk.new.length ++
      (Utf16.text " @@" ++ (hunk.heading ++ rest)))) (by rw [hplus]; rfl)
  have hcontent : (hunkHeader oldIndex newIndex hunk).content ++ rest =
      Utf16.text "@@ -" ++ (range oldIndex hunk.old.length ++ (Utf16.text " +" ++
        (range newIndex hunk.new.length ++ (Utf16.text " @@" ++ (hunk.heading ++ rest))))) := by
    simp [hunkHeader]
  have hbare : isBareHeader ((hunkHeader oldIndex newIndex hunk).content ++ rest) = false := by
    unfold isBareHeader
    rw [hcontent, show Utf16.text "@@ -" = Utf16.text "@@" ++ Utf16.text " -" by decide,
      List.append_assoc, after?_append]
    rfl
  have hrange : rangeHeader? ((hunkHeader oldIndex newIndex hunk).content ++ rest) =
      some (if hunk.old.length = 0 then oldIndex else oldIndex + 1) := by
    unfold rangeHeader?
    simp only [Option.bind_eq_bind]
    rw [hcontent, after?_append, Option.bind_some, hold, Option.bind_some]
    dsimp only
    rw [hskipOld, after?_append, Option.bind_some, hnew, Option.bind_some]
    dsimp only
    rw [hskipNew, after?_append, Option.bind_some, (decimal_digits _).2.2]
  unfold parseUnifiedDiffHunkHeader
  rw [hbare, if_neg Bool.false_ne_true, hrange]

/-! ## The hunks of a diff -/

def DiffLine.readAs (body : Line) : DiffLine → HunkLine
  | .context _ => .context body
  | .delete _ => .delete body
  | .insert _ => .insert body

/-- A line without a line end is read as one that has a line end. -/
def DiffLine.reads (line : DiffLine) : List HunkLine :=
  line.readAs line.line.closed.units :: if line.line.ending = .missing then [.note] else []

/-- The hunks as they are read, with the starts that are printed. -/
def readOf (oldIndex : Nat) : List DiffHunk → List Hunk
  | [] => []
  | hunk :: others =>
    ⟨if hunk.old.length = 0 then oldIndex + hunk.gap.length else oldIndex + hunk.gap.length + 1,
      hunk.lines.flatMap DiffLine.reads⟩ ::
      readOf (oldIndex + hunk.gap.length + hunk.old.length) others

theorem noSeparator_append {first second : List UInt16} (hfirst : NoSeparator first)
    (hsecond : NoSeparator second) : NoSeparator (first ++ second) := by
  intro unit hunit
  obtain hold | hnew := List.mem_append.mp hunit
  · exact hfirst unit hold
  · exact hsecond unit hnew

theorem noSeparator_decimal (n : Nat) : NoSeparator (decimal n) := by
  intro unit hunit
  have hdigit := (decimal_digits n).2.1 unit hunit
  unfold isDigit at hdigit
  rw [Bool.and_eq_true, decide_eq_true_iff, decide_eq_true_iff] at hdigit
  unfold isSeparator
  rw [Bool.or_eq_false_iff, beq_eq_false_iff_ne, beq_eq_false_iff_ne]
  constructor
  · rintro rfl
    exact absurd hdigit.2 (by decide)
  · rintro rfl
    exact absurd hdigit.2 (by decide)

theorem noSeparator_range (index count : Nat) : NoSeparator (range index count) := by
  unfold range
  apply noSeparator_append (noSeparator_decimal _)
  split
  · exact fun unit hunit => absurd hunit List.not_mem_nil
  · exact noSeparator_append (by unfold NoSeparator; decide) (noSeparator_decimal count)

theorem noSeparator_header {hunk : DiffHunk} (h : NoSeparator hunk.heading)
    (oldIndex newIndex : Nat) : NoSeparator (hunkHeader oldIndex newIndex hunk).content := by
  have hopen : NoSeparator (Utf16.text "@@ -") := by unfold NoSeparator; decide
  have hplus : NoSeparator (Utf16.text " +") := by unfold NoSeparator; decide
  have hclose : NoSeparator (Utf16.text " @@") := by unfold NoSeparator; decide
  exact noSeparator_append hopen (noSeparator_append (noSeparator_range _ _)
    (noSeparator_append hplus (noSeparator_append (noSeparator_range _ _)
      (noSeparator_append hclose h))))

theorem header_kept {hunk : DiffHunk} (h : NoSeparator hunk.heading) (oldIndex newIndex : Nat) :
    startsWith "@@" (hunkHeader oldIndex newIndex hunk).kept = true ∧
      parseUnifiedDiffHunkHeader (hunkHeader oldIndex newIndex hunk).kept =
        .ok (if hunk.old.length = 0 then oldIndex else oldIndex + 1) := by
  rw [TextLine.kept_eq (noSeparator_header h oldIndex newIndex)]
  refine ⟨?_, header_read oldIndex newIndex hunk [lineFeed]⟩
  rw [startsWith_iff]
  unfold TextLine.units hunkHeader
  dsimp only
  rw [List.append_assoc]
  exact List.IsPrefix.trans (by decide) (List.prefix_append _ _)

theorem noNewline_read : startsWith "@@" noNewline.kept = false ∧
    readHunkLine noNewline.kept = some .note := by
  constructor
  · decide
  · decide

theorem printLine_read {line : DiffLine} (h : NoSeparator line.line.content) {rest : List Line}
    {lines : List HunkLine} {hunks : List Hunk} (hrest : readHunkLines rest = some (lines, hunks)) :
    readHunkLines ((printLine line).map TextLine.kept ++ rest) =
      some (line.reads ++ lines, hunks) := by
  have hmark : isSeparator line.mark = false := by
    cases line with
    | context _ => rfl
    | delete _ => rfl
    | insert _ => rfl
  have hkept : TextLine.kept ⟨line.mark :: line.line.content, line.line.ending.closed,
      line.plain⟩ = line.mark :: line.line.closed.units := by
    rw [TextLine.kept_eq]
    · rfl
    · intro unit hunit
      obtain rfl | hcontent := List.mem_cons.mp hunit
      · exact hmark
      · exact h unit hcontent
  have hat : Utf16.text "@@" = [0x40, 0x40] := by decide
  have hnote : Utf16.text "\\ " = [0x5C, 0x20] := by decide
  have hspace : Utf16.text " " = [0x20] := by decide
  have hminus : Utf16.text "-" = [0x2D] := by decide
  have hplus : Utf16.text "+" = [0x2B] := by decide
  have hheader : startsWith "@@" (line.mark :: line.line.closed.units) = false := by
    unfold startsWith
    rw [hat]
    cases line with
    | context _ => rfl
    | delete _ => rfl
    | insert _ => rfl
  have hread : readHunkLine (line.mark :: line.line.closed.units) =
      some (line.readAs line.line.closed.units) := by
    unfold readHunkLine startsWith
    rw [hnote, hspace, hminus, hplus]
    cases line with
    | context _ => rfl
    | delete _ => rfl
    | insert _ => rfl
  have hnotes : readHunkLines
      ((if line.line.ending = .missing then [noNewline] else []).map TextLine.kept ++ rest) =
        some ((if line.line.ending = .missing then [HunkLine.note] else []) ++ lines, hunks) := by
    split
    · show readHunkLines (noNewline.kept :: rest) = _
      unfold readHunkLines
      rw [noNewline_read.1, if_neg Bool.false_ne_true, noNewline_read.2, Option.bind_some, hrest]
      rfl
    · exact hrest
  unfold printLine DiffLine.reads
  rw [List.map_cons, List.cons_append, hkept]
  unfold readHunkLines
  rw [hheader, if_neg Bool.false_ne_true, hread, Option.bind_some, hnotes]
  rfl

theorem readHunkLines_lines {lines : List DiffLine}
    (hseparator : ∀ line ∈ lines, NoSeparator line.line.content) {rest : List Line}
    {hunks : List Hunk} (hrest : readHunkLines rest = some ([], hunks)) :
    readHunkLines ((lines.flatMap printLine).map TextLine.kept ++ rest) =
      some (lines.flatMap DiffLine.reads, hunks) := by
  induction lines with
  | nil => exact hrest
  | cons line others ih =>
    have hothers := ih fun other hother => hseparator other (List.mem_cons_of_mem line hother)
    rw [List.flatMap_cons, List.map_append, List.append_assoc,
      printLine_read (hseparator line List.mem_cons_self) hothers]
    rfl

theorem readHunkLines_printed (oldIndex newIndex : Nat) {hunks : List DiffHunk}
    (hheading : ∀ hunk ∈ hunks, NoSeparator hunk.heading)
    (hseparator : ∀ hunk ∈ hunks, ∀ line ∈ hunk.lines, NoSeparator line.line.content) :
    readHunkLines ((printHunks oldIndex newIndex hunks).map TextLine.kept) =
      some ([], readOf oldIndex hunks) := by
  induction hunks generalizing oldIndex newIndex with
  | nil => rfl
  | cons hunk others ih =>
    have hothers := ih (oldIndex + hunk.gap.length + hunk.old.length)
      (newIndex + hunk.gap.length + hunk.new.length)
      (fun other hother => hheading other (List.mem_cons_of_mem hunk hother))
      (fun other hother => hseparator other (List.mem_cons_of_mem hunk hother))
    obtain ⟨hheader, hparse⟩ := header_kept (hheading hunk List.mem_cons_self)
      (oldIndex + hunk.gap.length) (newIndex + hunk.gap.length)
    have hlines := readHunkLines_lines (hseparator hunk List.mem_cons_self) hothers
    unfold printHunks
    rw [List.map_cons, List.map_append]
    unfold readHunkLines
    rw [hheader, if_pos rfl, hparse, hlines]
    rfl

theorem dropWhile_printed (oldIndex newIndex : Nat) {hunks : List DiffHunk}
    (hheading : ∀ hunk ∈ hunks, NoSeparator hunk.heading) :
    ((printHunks oldIndex newIndex hunks).map TextLine.kept).dropWhile
      (fun line => !startsWith "@@" line) =
        (printHunks oldIndex newIndex hunks).map TextLine.kept := by
  cases hunks with
  | nil => rfl
  | cons hunk others =>
    unfold printHunks
    rw [List.map_cons]
    apply List.dropWhile_cons_of_neg
    rw [(header_kept (hheading hunk List.mem_cons_self) _ _).1]
    decide

theorem Diff.preamble_kept {diff : Diff} (h : diff.HeadersKept) :
    ∀ line ∈ (diff.preamble.map fun header =>
      (⟨header.content, .lf, header.plain⟩ : TextLine)).map TextLine.kept,
      (!startsWith "@@" line) = true := by
  intro line hline
  obtain ⟨printed, hprinted, rfl⟩ := List.mem_map.mp hline
  obtain ⟨header, hheader, rfl⟩ := List.mem_map.mp hprinted
  have hno := h.1 header hheader
  show (!startsWith "@@" (lastPart [] header.content ++ [lineFeed])) = true
  generalize lastPart [] header.content = kept at hno
  rw [Bool.not_eq_true', ← Bool.not_eq_true]
  rw [← Bool.not_eq_true] at hno
  intro hstart
  apply hno
  rw [startsWith_iff, show Utf16.text "@@" = [0x40, 0x40] by decide] at hstart ⊢
  match kept with
  | [] => exact absurd hstart (by decide)
  | [unit] =>
    obtain ⟨rest, hrest⟩ := hstart
    cases hrest
  | first :: second :: others =>
    obtain ⟨rest, hrest⟩ := hstart
    cases hrest
    exact List.prefix_append [0x40, 0x40] others

theorem Diff.from_first (diff : Diff) (h : diff.HeadersKept) :
    (splitLinesPreservingEndings diff.text).dropWhile (fun line => !startsWith "@@" line) =
      (printHunks 0 0 diff.hunks).map TextLine.kept := by
  rw [diff.splitLines]
  unfold Diff.lines
  rw [List.map_append, List.dropWhile_append_of_pos (Diff.preamble_kept h),
    dropWhile_printed 0 0 h.2]

theorem Diff.readHunks (diff : Diff) (hheaders : diff.HeadersKept) (hlines : diff.LinesKept) :
    LocalActions.readHunks (splitLinesPreservingEndings diff.text) =
      some (readOf 0 diff.hunks) := by
  have hseparator : ∀ hunk ∈ diff.hunks, ∀ line ∈ hunk.lines, NoSeparator line.line.content := by
    intro hunk hhunk line hline
    cases line with
    | context text =>
      apply hlines.1
      exact List.mem_append_left _ (List.mem_flatMap.mpr ⟨hunk, hhunk, List.mem_append_right _
        (List.mem_flatMap.mpr ⟨_, hline, List.mem_singleton_self _⟩)⟩)
    | delete text =>
      apply hlines.1
      exact List.mem_append_left _ (List.mem_flatMap.mpr ⟨hunk, hhunk, List.mem_append_right _
        (List.mem_flatMap.mpr ⟨_, hline, List.mem_singleton_self _⟩)⟩)
    | insert text =>
      apply hlines.2
      exact List.mem_append_left _ (List.mem_flatMap.mpr ⟨hunk, hhunk, List.mem_append_right _
        (List.mem_flatMap.mpr ⟨_, hline, List.mem_singleton_self _⟩)⟩)
  unfold LocalActions.readHunks
  rw [diff.from_first hheaders, readHunkLines_printed 0 0 hheaders.2 hseparator]
  rfl

/-! ## The placement of a diff -/

theorem reads_old (lines : List DiffLine) :
    (lines.flatMap DiffLine.reads).flatMap HunkLine.old =
      (lines.flatMap DiffLine.old).map fun line => line.closed.units := by
  induction lines with
  | nil => rfl
  | cons line others ih =>
    have hline : line.reads.flatMap HunkLine.old =
        line.old.map fun line => line.closed.units := by
      unfold DiffLine.reads
      cases line <;> split <;> rfl
    rw [List.flatMap_cons, List.flatMap_append, hline, ih, List.flatMap_cons, List.map_append]

theorem reads_new (lines : List DiffLine) :
    (lines.flatMap DiffLine.reads).flatMap HunkLine.new =
      (lines.flatMap DiffLine.new).map fun line => line.closed.units := by
  induction lines with
  | nil => rfl
  | cons line others ih =>
    have hline : line.reads.flatMap HunkLine.new =
        line.new.map fun line => line.closed.units := by
      unfold DiffLine.reads
      cases line <;> split <;> rfl
    rw [List.flatMap_cons, List.flatMap_append, hline, ih, List.flatMap_cons, List.map_append]

theorem TextLine.closed_units {line : TextLine} :
    line.closed.units = line.units ↔ line.ending ≠ .missing := by
  show line.content ++ line.ending.closed.units = line.content ++ line.ending.units ↔ _
  rw [List.append_right_inj]
  cases line.ending with
  | lf => exact ⟨fun _ => nofun, fun _ => rfl⟩
  | crlf => exact ⟨fun _ => nofun, fun _ => rfl⟩
  | missing => exact ⟨fun h => absurd h (by decide), fun h => absurd rfl h⟩

theorem closed_match {lines : List TextLine} {later rest : List Line} :
    (lines.map fun line => line.closed.units) ++ later = lines.map TextLine.units ++ rest ↔
      (∀ line ∈ lines, line.ending ≠ .missing) ∧ later = rest := by
  induction lines with
  | nil => simp
  | cons line others ih =>
    rw [List.map_cons, List.map_cons, List.cons_append, List.cons_append, List.cons_eq_cons,
      TextLine.closed_units, ih, List.forall_mem_cons, and_assoc]

/-- The output of the hunks: `owed` is a line of the gap before a hunk that only inserts, which the
cursor has not passed. -/
def outputOf (owed : List TextLine) : List DiffHunk → List TextLine
  | [] => owed
  | hunk :: others =>
    if hunk.old = [] then
      (owed ++ hunk.gap).dropLast ++ (hunk.new.map TextLine.closed ++
        outputOf (owed ++ hunk.gap).getLast?.toList others)
    else owed ++ hunk.gap ++ (hunk.new.map TextLine.closed ++ outputOf [] others)

theorem placed_at {index : Nat} {gap block output : List Line} {hunk : Hunk} {others : List Hunk}
    (hgap : gap.length = (hunk.oldStart - 1) - index) :
    Placed index (gap ++ block) (hunk :: others) output ↔ ∃ rest later,
      hunk.old ++ rest = block ∧ output = gap ++ (hunk.new ++ later) ∧
        Placed (index + gap.length + hunk.old.length) rest others later := by
  rw [placed_cons]
  constructor
  · rintro ⟨gap', rest, later, hsplit, hlength, houtput, hlater⟩
    obtain ⟨rfl, hblock⟩ := List.append_inj hsplit (hgap.trans hlength.symm)
    exact ⟨rest, later, hblock.symm, houtput, hlater⟩
  · rintro ⟨rest, later, rfl, houtput, hlater⟩
    exact ⟨gap, rest, later, rfl, hgap, houtput, hlater⟩

theorem dropLast_getLast? {α : Type} (list : List α) :
    list.dropLast ++ list.getLast?.toList = list := by
  cases hlast : list.getLast? with
  | none =>
    rw [List.getLast?_eq_none_iff.mp hlast]
    rfl
  | some last => exact List.dropLast_append_getLast? last hlast

theorem placed_printed {index : Nat} {owed rest : List TextLine} {hunks : List DiffHunk}
    {output : List Line} (howed : owed.length ≤ index) :
    Placed (index - owed.length) ((owed ++ oldOf hunks rest).map TextLine.units)
      (readOf index hunks) output ↔
      (∀ hunk ∈ hunks, ∀ line ∈ hunk.old, line.ending ≠ .missing) ∧
        output = (outputOf owed hunks ++ rest).map TextLine.units := by
  induction hunks generalizing index owed output with
  | nil =>
    show Placed _ _ [] _ ↔ _
    rw [placed_nil]
    exact ⟨fun h => ⟨fun _ h => absurd h List.not_mem_nil, h⟩, fun h => h.2⟩
  | cons hunk others ih =>
    have hold : oldOf (hunk :: others) rest = hunk.gap ++ (hunk.old ++ oldOf others rest) := by
      unfold oldOf
      rw [List.flatMap_cons, List.append_assoc, List.append_assoc]
    have hnew : ∀ start, Hunk.new ⟨start, hunk.lines.flatMap DiffLine.reads⟩ =
        (hunk.new.map TextLine.closed).map TextLine.units := by
      intro start
      rw [List.map_map]
      exact reads_new hunk.lines
    unfold readOf outputOf
    rw [hold, ← List.append_assoc, List.forall_mem_cons]
    by_cases hnone : hunk.old = []
    · -- the line before the hunk is owed
      have hgap : ((owed ++ hunk.gap).dropLast.map TextLine.units).length =
          (index + hunk.gap.length - 1) - (index - owed.length) := by
        rw [List.length_map, List.length_dropLast, List.length_append]
        omega
      have hcut := congrArg List.length (dropLast_getLast? (owed ++ hunk.gap))
      rw [List.length_append, List.length_append, List.length_dropLast, List.length_append] at hcut
      have hlater : ∀ later, _ := fun later => @ih (index + hunk.gap.length)
        (owed ++ hunk.gap).getLast?.toList later (by omega)
      have hcursor : index - owed.length + ((owed ++ hunk.gap).dropLast.map
          TextLine.units).length + 0 =
            index + hunk.gap.length - (owed ++ hunk.gap).getLast?.toList.length := by
        rw [hgap]
        omega
      have hempty : ∀ start, Hunk.old ⟨start, hunk.lines.flatMap DiffLine.reads⟩ = [] := by
        intro start
        show (hunk.lines.flatMap DiffLine.reads).flatMap HunkLine.old = []
        rw [reads_old, show hunk.lines.flatMap DiffLine.old = [] from hnone]
        rfl
      have hblock : (owed ++ hunk.gap ++ oldOf others rest).map TextLine.units =
          (owed ++ hunk.gap).dropLast.map TextLine.units ++
            ((owed ++ hunk.gap).getLast?.toList ++ oldOf others rest).map TextLine.units := by
        rw [← List.map_append, ← List.append_assoc, dropLast_getLast?]
      rw [if_pos hnone, hnone, List.nil_append, List.length_nil, if_pos rfl, hblock,
        placed_at hgap, hnew, hempty, List.length_nil, hcursor]
      constructor
      · rintro ⟨rest, later, rfl, houtput, hplaced⟩
        obtain ⟨hothers, rfl⟩ := (hlater later).mp hplaced
        refine ⟨⟨fun _ h => absurd h List.not_mem_nil, hothers⟩, ?_⟩
        rw [houtput]
        simp only [List.map_append, List.append_assoc]
      · rintro ⟨⟨-, hothers⟩, houtput⟩
        refine ⟨_, _, rfl, ?_, (hlater _).mpr ⟨hothers, rfl⟩⟩
        rw [houtput]
        simp only [List.map_append, List.append_assoc]
    · have hlength : hunk.old.length ≠ 0 := fun h => hnone (List.length_eq_zero_iff.mp h)
      have hgap : ((owed ++ hunk.gap).map TextLine.units).length =
          (index + hunk.gap.length + 1 - 1) - (index - owed.length) := by
        rw [List.length_map, List.length_append]
        omega
      have hread : ∀ start, Hunk.old ⟨start, hunk.lines.flatMap DiffLine.reads⟩ =
          hunk.old.map fun line => line.closed.units := fun _ => reads_old hunk.lines
      have hcursor : index - owed.length + ((owed ++ hunk.gap).map TextLine.units).length +
          (hunk.old.map fun line => line.closed.units).length =
            index + hunk.gap.length + hunk.old.length := by
        rw [hgap, List.length_map]
        omega
      have hlater : ∀ later, _ := fun later =>
        @ih (index + hunk.gap.length + hunk.old.length) [] later (Nat.zero_le _)
      rw [if_neg hnone, if_neg hlength, ← List.append_assoc, List.append_assoc,
        List.map_append, placed_at hgap, hnew, hread, hcursor, List.map_append]
      constructor
      · rintro ⟨rest, later, hmatch, houtput, hplaced⟩
        obtain ⟨hold, rfl⟩ := closed_match.mp hmatch
        obtain ⟨hothers, rfl⟩ := (hlater later).mp hplaced
        refine ⟨⟨hold, hothers⟩, ?_⟩
        rw [houtput]
        simp only [List.map_append, List.append_assoc]
      · rintro ⟨⟨hold, hothers⟩, houtput⟩
        refine ⟨_, _, closed_match.mpr ⟨hold, rfl⟩, ?_, (hlater _).mpr ⟨hothers, rfl⟩⟩
        rw [houtput]
        simp only [List.map_append, List.append_assoc]

/-! ## Lines that are inserted too early -/

theorem commute_iff {α : Type} {line : α} {lines first second : List α} :
    lines ++ first = line :: (lines ++ second) ↔
      (∀ other ∈ lines, other = line) ∧ first = line :: second := by
  induction lines generalizing line with
  | nil => simp
  | cons other others ih =>
    rw [List.cons_append, List.cons_append, List.cons_eq_cons, List.forall_mem_cons, and_assoc]
    constructor
    · rintro ⟨rfl, hrest⟩
      exact ⟨rfl, ih.mp hrest⟩
    · rintro ⟨rfl, hrest⟩
      exact ⟨rfl, ih.mpr hrest⟩

theorem closed_map {lines : List TextLine} (h : ∀ line ∈ lines, line.ending ≠ .missing) :
    (lines.map TextLine.closed).map TextLine.units = lines.map TextLine.units := by
  rw [List.map_map]
  exact List.map_congr_left fun line hline => TextLine.closed_units.mpr (h line hline)

theorem outputOf_iff {owed : List TextLine} {hunks : List DiffHunk}
    (hending : ∀ hunk ∈ hunks, ∀ line ∈ hunk.new, line.ending ≠ .missing)
    (hgaps : ∀ hunk ∈ hunks.tail, hunk.gap ≠ [])
    (hfirst : owed = [] ∨ ∀ hunk ∈ hunks.head?, hunk.gap ≠ []) :
    (outputOf owed hunks).map TextLine.units =
        (owed ++ hunks.flatMap fun hunk => hunk.gap ++ hunk.new).map TextLine.units ↔
      ∀ hunk ∈ hunks, hunk.old = [] → ∀ before ∈ hunk.gap.getLast?, ∀ line ∈ hunk.new,
        line.units = before.units := by
  induction hunks generalizing owed with
  | nil => simp [outputOf]
  | cons hunk others ih =>
    have hnew := closed_map (hending hunk List.mem_cons_self)
    have hlater : ∀ owed, _ := fun owed => @ih owed
      (fun other hother => hending other (List.mem_cons_of_mem hunk hother))
      (fun other hother => hgaps other (List.mem_of_mem_tail hother))
      (Or.inr fun other hother => hgaps other (List.mem_of_mem_head? hother))
    have hshape : owed ++ (hunk :: others).flatMap (fun hunk => hunk.gap ++ hunk.new) =
        (owed ++ hunk.gap) ++ (hunk.new ++ others.flatMap fun hunk => hunk.gap ++ hunk.new) := by
      rw [List.flatMap_cons, List.append_assoc, List.append_assoc]
    unfold outputOf
    rw [hshape, List.forall_mem_cons]
    by_cases hnone : hunk.old = []
    · rw [if_pos hnone]
      cases hlast : hunk.gap.getLast? with
      | none =>
        have hempty : hunk.gap = [] := List.getLast?_eq_none_iff.mp hlast
        have howed : owed = [] := hfirst.resolve_right fun h => h hunk rfl hempty
        rw [howed, hempty]
        show (hunk.new.map TextLine.closed ++ outputOf [] others).map _ =
          (hunk.new ++ _).map _ ↔ _
        simp only [List.map_append, hnew, List.append_right_inj]
        constructor
        · intro h
          exact ⟨fun _ _ hbefore => absurd hbefore (by simp), (hlater []).mp h⟩
        · intro h
          exact (hlater []).mpr h.2
      | some last =>
        -- the last line of the gap comes after what is inserted
        have hlastOf : (owed ++ hunk.gap).getLast? = some last := by
          rw [List.getLast?_append, hlast]
          rfl
        have hcut := dropLast_getLast? (owed ++ hunk.gap)
        rw [hlastOf] at hcut ⊢
        generalize (owed ++ hunk.gap).dropLast = before at hcut ⊢
        rw [← hcut]
        show (before ++ (hunk.new.map TextLine.closed ++ outputOf [last] others)).map _ =
          (before ++ [last] ++ (hunk.new ++ _)).map _ ↔ _
        simp only [List.map_append, List.append_assoc, hnew, List.append_right_inj]
        rw [List.map_singleton, List.singleton_append, commute_iff, List.forall_mem_map]
        constructor
        · rintro ⟨hcopies, hrest⟩
          refine ⟨fun _ other hother => ?_, (hlater [last]).mp hrest⟩
          rw [← Option.some.inj hother]
          exact hcopies
        · rintro ⟨hcopies, hothers⟩
          exact ⟨hcopies hnone last rfl, (hlater [last]).mpr hothers⟩
    · rw [if_neg hnone]
      simp only [List.map_append, List.append_assoc, hnew, List.append_right_inj]
      constructor
      · intro h
        exact ⟨fun h => absurd h hnone, (hlater []).mp h⟩
      · intro h
        exact (hlater []).mpr h.2

end HarnessControl.LocalActions
