import HarnessControl.LocalActions.PatchPlacement

/-!
# Diffs of two texts

A diff of two texts as a script: lines that both have, and between them hunks of context, deleted and
added lines.  Its text is what `diff -u` or `git diff` prints.
-/

namespace HarnessControl.LocalActions

open HarnessControl.Library

/-! ## Texts -/

inductive LineEnd where
  | lf
  | crlf
  /-- Of the last line of a text without a final newline. -/
  | missing
deriving DecidableEq

def LineEnd.units : LineEnd → List UInt16
  | .lf => [lineFeed]
  | .crlf => [carriageReturn, lineFeed]
  | .missing => []

def LineEnd.closed : LineEnd → LineEnd
  | .missing => .lf
  | ending => ending

structure TextLine where
  content : List UInt16
  ending : LineEnd
  plain : Plain content

def TextLine.units (line : TextLine) : List UInt16 := line.content ++ line.ending.units

def TextLine.closed (line : TextLine) : TextLine :=
  ⟨line.content, line.ending.closed, line.plain⟩

def textOf (lines : List TextLine) : List UInt16 := lines.flatMap TextLine.units

/-- Only the last line may have no line end, and it is not empty. -/
def EndsLast (lines : List TextLine) : Prop :=
  ∀ before line after, lines = before ++ line :: after → line.ending = .missing →
    after = [] ∧ line.content ≠ []

/-! ## Scripts -/

inductive DiffLine where
  | context (line : TextLine)
  | delete (line : TextLine)
  | insert (line : TextLine)

namespace DiffLine

def line : DiffLine → TextLine
  | .context line | .delete line | .insert line => line

def old : DiffLine → List TextLine
  | .context line | .delete line => [line]
  | .insert _ => []

def new : DiffLine → List TextLine
  | .context line | .insert line => [line]
  | .delete _ => []

def mark : DiffLine → UInt16
  | .context _ => 0x20
  | .delete _ => 0x2D
  | .insert _ => 0x2B

end DiffLine

structure DiffHunk where
  /-- The lines of both texts after the hunk before. -/
  gap : List TextLine
  /-- What follows the ranges in the header. -/
  heading : List UInt16
  heading_plain : Plain heading
  lines : List DiffLine

namespace DiffHunk

def old (hunk : DiffHunk) : List TextLine := hunk.lines.flatMap DiffLine.old

def new (hunk : DiffHunk) : List TextLine := hunk.lines.flatMap DiffLine.new

end DiffHunk

def oldOf (hunks : List DiffHunk) (rest : List TextLine) : List TextLine :=
  hunks.flatMap (fun hunk => hunk.gap ++ hunk.old) ++ rest

def newOf (hunks : List DiffHunk) (rest : List TextLine) : List TextLine :=
  hunks.flatMap (fun hunk => hunk.gap ++ hunk.new) ++ rest

structure FileHeader where
  content : List UInt16
  plain : Plain content
  no_hunk : startsWith "@@" content = false

structure Diff where
  preamble : List FileHeader
  hunks : List DiffHunk
  rest : List TextLine
  old_ends : EndsLast (oldOf hunks rest)
  new_ends : EndsLast (newOf hunks rest)
  filled : ∀ hunk ∈ hunks, hunk.lines ≠ []
  /-- Hunks that touch are one hunk. -/
  apart : ∀ hunk ∈ hunks.tail, hunk.gap ≠ []

namespace Diff

def old (diff : Diff) : List TextLine := oldOf diff.hunks diff.rest

def new (diff : Diff) : List TextLine := newOf diff.hunks diff.rest

end Diff

/-! ## The text of a diff -/

def decimal (n : Nat) : List UInt16 := Utf16.units (Nat.toDigits 10 n)

/-- The start and the count of a range: a range of no lines states the line before it, and a count
of one line is left out. -/
def range (index count : Nat) : List UInt16 :=
  decimal (if count = 0 then index else index + 1) ++
    if count = 1 then [] else Utf16.text "," ++ decimal count

theorem decimal_step {n : Nat} (h : 10 ≤ n) :
    decimal n = decimal (n / 10) ++ decimal (n % 10) := by
  unfold decimal Utf16.units
  rw [Nat.toDigits_of_base_le (by decide) h, List.flatMap_append,
    Nat.toDigits_of_lt_base (Nat.mod_lt n (by decide))]

theorem decimal_digits (n : Nat) :
    decimal n ≠ [] ∧ (∀ unit ∈ decimal n, isDigit unit = true) ∧ parseDecimal (decimal n) = n := by
  induction n using Nat.strongRecOn with
  | ind n ih =>
    have hsmall : ∀ d < 10, decimal d ≠ [] ∧ (∀ unit ∈ decimal d, isDigit unit = true) ∧
        parseDecimal (decimal d) = d ∧ (decimal d).length = 1 := by decide
    by_cases hn : n < 10
    · exact ⟨(hsmall n hn).1, (hsmall n hn).2.1, (hsmall n hn).2.2.1⟩
    · obtain ⟨hne, hdigits, hvalue⟩ := ih (n / 10) (by omega)
      obtain ⟨-, hlast, hdigit, hlength⟩ := hsmall (n % 10) (Nat.mod_lt n (by decide))
      obtain ⟨unit, hunit⟩ := List.length_eq_one_iff.mp hlength
      rw [decimal_step (by omega), hunit]
      rw [hunit] at hlast hdigit
      refine ⟨by simp, ?_, ?_⟩
      · intro other hother
        obtain hold | hnew := List.mem_append.mp hother
        · exact hdigits other hold
        · exact hlast other hnew
      · unfold parseDecimal at hvalue hdigit ⊢
        rw [List.foldl_append, hvalue]
        simp only [List.foldl_cons, List.foldl_nil] at hdigit ⊢
        omega

theorem plain_append {first second : List UInt16} (hfirst : Plain first) (hsecond : Plain second) :
    Plain (first ++ second) := by
  intro unit hunit
  obtain hold | hnew := List.mem_append.mp hunit
  · exact hfirst unit hold
  · exact hsecond unit hnew

theorem plain_decimal (n : Nat) : Plain (decimal n) := by
  intro unit hunit
  have hdigit := (decimal_digits n).2.1 unit hunit
  constructor
  · rintro rfl
    exact absurd hdigit (by decide)
  · rintro rfl
    exact absurd hdigit (by decide)

theorem plain_range (index count : Nat) : Plain (range index count) := by
  unfold range
  apply plain_append (plain_decimal _)
  split
  · exact fun unit hunit => absurd hunit List.not_mem_nil
  · exact plain_append (by unfold Plain; decide) (plain_decimal count)

def hunkHeader (oldIndex newIndex : Nat) (hunk : DiffHunk) : TextLine where
  content := Utf16.text "@@ -" ++ (range oldIndex hunk.old.length ++ (Utf16.text " +" ++
    (range newIndex hunk.new.length ++ (Utf16.text " @@" ++ hunk.heading))))
  ending := .lf
  plain := by
    have hopen : Plain (Utf16.text "@@ -") := by unfold Plain; decide
    have hplus : Plain (Utf16.text " +") := by unfold Plain; decide
    have hclose : Plain (Utf16.text " @@") := by unfold Plain; decide
    exact plain_append hopen (plain_append (plain_range _ _) (plain_append hplus
      (plain_append (plain_range _ _) (plain_append hclose hunk.heading_plain))))

def noNewline : TextLine where
  content := Utf16.text "\\ No newline at end of file"
  ending := .lf
  plain := by unfold Plain; decide

theorem DiffLine.plain (line : DiffLine) : Plain (line.mark :: line.line.content) := by
  intro unit hunit
  obtain hmark | hcontent := List.mem_cons.mp hunit
  · rw [hmark]
    have hmarks : ∀ mark ∈ ([0x20, 0x2D, 0x2B] : List UInt16),
        mark ≠ lineFeed ∧ mark ≠ carriageReturn := by decide
    cases line with
    | context _ => exact hmarks 0x20 (by decide)
    | delete _ => exact hmarks 0x2D (by decide)
    | insert _ => exact hmarks 0x2B (by decide)
  · exact line.line.plain unit hcontent

def printLine (line : DiffLine) : List TextLine :=
  ⟨line.mark :: line.line.content, line.line.ending.closed, line.plain⟩ ::
    if line.line.ending = .missing then [noNewline] else []

def printHunks (oldIndex newIndex : Nat) : List DiffHunk → List TextLine
  | [] => []
  | hunk :: others =>
    hunkHeader (oldIndex + hunk.gap.length) (newIndex + hunk.gap.length) hunk ::
      (hunk.lines.flatMap printLine ++
        printHunks (oldIndex + hunk.gap.length + hunk.old.length)
          (newIndex + hunk.gap.length + hunk.new.length) others)

namespace Diff

def lines (diff : Diff) : List TextLine :=
  diff.preamble.map (fun header => ⟨header.content, .lf, header.plain⟩) ++
    printHunks 0 0 diff.hunks

def text (diff : Diff) : List UInt16 := textOf diff.lines

end Diff

/-! ## Splitting texts -/

def TextLine.kept (line : TextLine) : Line := lastPart [] line.content ++ line.ending.units

theorem splitLinesFrom_line {line : TextLine} (h : line.ending ≠ .missing) (rest : List UInt16) :
    splitLinesFrom [] (line.units ++ rest) = line.kept :: splitLinesFrom [] rest := by
  unfold TextLine.units TextLine.kept
  rw [List.append_assoc, splitLinesFrom_plain line.plain]
  cases hending : line.ending with
  | lf =>
    show splitLinesFrom _ (lineFeed :: rest) = _
    conv_lhs => unfold splitLinesFrom
    rw [if_pos rfl]
    rfl
  | crlf =>
    show splitLinesFrom _ (carriageReturn :: lineFeed :: rest) = _
    conv_lhs => unfold splitLinesFrom
    rw [if_neg (by decide), if_pos rfl]
    dsimp only
    rw [if_pos rfl]
    rfl
  | missing => exact absurd hending h

theorem splitLines_terminated {lines : List TextLine}
    (h : ∀ line ∈ lines, line.ending ≠ .missing) (rest : List UInt16) :
    splitLinesFrom [] (textOf lines ++ rest) =
      lines.map TextLine.kept ++ splitLinesFrom [] rest := by
  induction lines with
  | nil => rfl
  | cons line others ih =>
    show splitLinesFrom [] ((line.units ++ textOf others) ++ rest) = _
    rw [List.append_assoc, splitLinesFrom_line (h line List.mem_cons_self),
      ih fun other hother => h other (List.mem_cons_of_mem line hother)]
    rfl

theorem LineEnd.closed_terminated (ending : LineEnd) : ending.closed ≠ .missing := by
  cases ending with
  | lf => exact nofun
  | crlf => exact nofun
  | missing => exact nofun

theorem printLine_terminated (line : DiffLine) :
    ∀ printed ∈ printLine line, printed.ending ≠ .missing := by
  intro printed hprinted
  obtain rfl | hnote := List.mem_cons.mp hprinted
  · exact LineEnd.closed_terminated _
  · split at hnote
    · rw [List.mem_singleton.mp hnote]
      exact nofun
    · exact absurd hnote List.not_mem_nil

theorem printHunks_terminated (oldIndex newIndex : Nat) (hunks : List DiffHunk) :
    ∀ printed ∈ printHunks oldIndex newIndex hunks, printed.ending ≠ .missing := by
  induction hunks generalizing oldIndex newIndex with
  | nil => exact fun _ h => absurd h List.not_mem_nil
  | cons hunk others ih =>
    intro printed hprinted
    obtain rfl | hprinted := List.mem_cons.mp hprinted
    · exact nofun
    · obtain hline | hlater := List.mem_append.mp hprinted
      · obtain ⟨line, -, hline⟩ := List.mem_flatMap.mp hline
        exact printLine_terminated line printed hline
      · exact ih _ _ printed hlater

theorem Diff.lines_terminated (diff : Diff) : ∀ line ∈ diff.lines, line.ending ≠ .missing := by
  intro line hline
  obtain hpreamble | hhunks := List.mem_append.mp hline
  · obtain ⟨header, -, rfl⟩ := List.mem_map.mp hpreamble
    exact nofun
  · exact printHunks_terminated 0 0 diff.hunks line hhunks

theorem Diff.splitLines (diff : Diff) :
    splitLinesPreservingEndings diff.text = diff.lines.map TextLine.kept := by
  have h := splitLines_terminated diff.lines_terminated []
  rw [List.append_nil] at h
  unfold Diff.text splitLinesPreservingEndings
  rw [h]
  exact List.append_nil _

theorem splitLines_text {lines : List TextLine} (h : EndsLast lines) :
    splitLinesPreservingEndings (textOf lines) =
      (lines.map TextLine.kept).filter (· ≠ []) := by
  have hterminated : ∀ line : TextLine, line.ending ≠ .missing → line.kept ≠ [] := by
    intro line hline hempty
    unfold TextLine.kept at hempty
    rw [List.append_eq_nil_iff] at hempty
    cases hending : line.ending with
    | lf => rw [hending] at hempty; cases hempty.2
    | crlf => rw [hending] at hempty; cases hempty.2
    | missing => exact hline hending
  induction lines with
  | nil => rfl
  | cons line others ih =>
    have hothers : EndsLast others := by
      intro before other after hsplit
      exact h (line :: before) other after (congrArg (line :: ·) hsplit)
    show splitLinesFrom [] (line.units ++ textOf others) = _
    by_cases hmissing : line.ending = .missing
    · obtain ⟨rfl, -⟩ := h [] line others rfl hmissing
      have hunits : line.units = line.content ++ [] := by
        unfold TextLine.units
        rw [hmissing]
        rfl
      have hkept : line.kept = lastPart [] line.content := by
        unfold TextLine.kept
        rw [hmissing]
        exact List.append_nil _
      show splitLinesFrom [] (line.units ++ []) = _
      rw [List.append_nil, hunits, splitLinesFrom_plain line.plain, ← hkept]
      unfold splitLinesFrom
      by_cases hempty : line.kept = []
      · simp [hempty]
      · simp [hempty]
    · rw [splitLinesFrom_line hmissing, List.map_cons,
        List.filter_cons_of_pos (by simp [hterminated line hmissing])]
      rw [show splitLinesFrom [] (textOf others) = _ from ih hothers]

end HarnessControl.LocalActions
