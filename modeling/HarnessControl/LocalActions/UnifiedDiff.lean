import HarnessControl.Library.Utf16

/-!
# Unified diffs

A patch is read line by line.  A cursor into the lines of the original only moves forwards: a hunk
header moves it to the line that it states, and each line of the hunk checks or skips a line of the
original, or adds one.
-/

namespace HarnessControl.LocalActions

open HarnessControl.Library

abbrev Line := List UInt16

/-! ## Lines -/

def lineFeed : UInt16 := 10

def carriageReturn : UInt16 := 13

/-- The line separator and the paragraph separator: `.` matches no line end, and neither do the
alternatives after it match these two. -/
def isSeparator (unit : UInt16) : Bool := unit == 0x2028 || unit == 0x2029

/-- The matches of `/.*(?:\r\n|\n|\r|$)/g` that are not empty, with the units that the present match
has taken.  At a separator the match fails, and the search goes on after it. -/
def splitLinesFrom : Line → List UInt16 → List Line
  | line, [] => if line = [] then [] else [line]
  | line, unit :: rest =>
    if unit = lineFeed then (line ++ [lineFeed]) :: splitLinesFrom [] rest
    else if unit = carriageReturn then
      match rest with
      | [] => [line ++ [carriageReturn]]
      | next :: others =>
        if next = lineFeed then
          (line ++ [carriageReturn, lineFeed]) :: splitLinesFrom [] others
        else (line ++ [carriageReturn]) :: splitLinesFrom [] (next :: others)
    else if isSeparator unit then splitLinesFrom [] rest
    else splitLinesFrom (line ++ [unit]) rest

def splitLinesPreservingEndings (content : List UInt16) : List Line := splitLinesFrom [] content

/-! ## Hunk headers -/

def startsWith (mark : String) (line : Line) : Bool := (Utf16.text mark).isPrefixOf line

/-- `\s`. -/
def isWhitespace (unit : UInt16) : Bool :=
  [0x09, 0x0A, 0x0B, 0x0C, 0x0D, 0x20, 0xA0, 0x1680, 0x2028, 0x2029, 0x202F, 0x205F, 0x3000,
    0xFEFF].contains unit ||
  (decide (0x2000 ≤ unit.toNat) && decide (unit.toNat ≤ 0x200A))

def trimEnd (line : Line) : Line := (line.reverse.dropWhile isWhitespace).reverse

def isDigit (unit : UInt16) : Bool := decide (0x30 ≤ unit.toNat) && decide (unit.toNat ≤ 0x39)

/-- `Number.parseInt(digits, 10)`. -/
def parseDecimal (digits : List UInt16) : Nat :=
  digits.foldl (fun value digit => 10 * value + (digit.toNat - 0x30)) 0

/-- What follows `mark`. -/
def after? (mark : String) (line : Line) : Option Line :=
  if startsWith mark line then some (line.drop (Utf16.text mark).length) else none

/-- What follows `\d+`, and the digits. -/
def digits? (line : Line) : Option (List UInt16 × Line) :=
  if line.takeWhile isDigit = [] then none
  else some (line.takeWhile isDigit, line.dropWhile isDigit)

/-- What follows `(?:,\d+)?`. -/
def skipCount (line : Line) : Line :=
  match (after? "," line).bind digits? with
  | some (_, rest) => rest
  | none => line

/-- `/^@@ -(?<oldStart>\d+)(?:,\d+)? \+\d+(?:,\d+)? @@/`. -/
def rangeHeader? (header : Line) : Option Nat := do
  let line ← after? "@@ -" header
  let (oldStart, line) ← digits? line
  let line ← after? " +" (skipCount line)
  let (_, line) ← digits? line
  let _ ← after? " @@" (skipCount line)
  some (parseDecimal oldStart)

/-- `/^@@\s*$/`. -/
def isBareHeader (header : Line) : Bool :=
  match after? "@@" header with
  | some rest => rest.all isWhitespace
  | none => false

/-! ## Errors -/

inductive PatchError where
  | startsBeyondEnd
  | invalidHeader (header : Line)
  | contextMismatch
  | unsupportedLine (line : Line)
deriving DecidableEq

def PatchError.code (_ : PatchError) : String := "local_capability_action_failed"

def PatchError.message : PatchError → List UInt16
  | .startsBeyondEnd => Utf16.text "Unified diff hunk starts beyond the end of the file."
  | .invalidHeader header =>
    Utf16.text "Invalid unified diff hunk header '" ++ trimEnd header ++ Utf16.text "'."
  | .contextMismatch => Utf16.text "Unified diff context did not match the current file."
  | .unsupportedLine line =>
    Utf16.text "Unsupported unified diff line '" ++ trimEnd line ++ Utf16.text "'."

def parseUnifiedDiffHunkHeader (header : Line) : Except PatchError Nat :=
  if isBareHeader header then .ok 1
  else
    match rangeHeader? header with
    | some oldStart => .ok oldStart
    | none => .error (.invalidHeader header)

/-! ## The cursor -/

structure PatchState where
  originalIndex : Nat
  /-- The lines of the original from `originalIndex` on. -/
  remaining : List Line
  outputLines : List Line
  changed : Bool

namespace PatchState

/-- Copies as many lines, or throws at the end of the original. -/
def copy : Nat → PatchState → Except PatchError PatchState
  | 0, state => .ok state
  | count + 1, state =>
    match state.remaining with
    | [] => .error .startsBeyondEnd
    | line :: rest =>
      copy count { state with
        originalIndex := state.originalIndex + 1
        remaining := rest
        outputLines := state.outputLines ++ [line] }

/-- `while (originalIndex < hunk.oldStart - 1)`. -/
def copyTo (oldStart : Nat) (state : PatchState) : Except PatchError PatchState :=
  state.copy ((oldStart - 1) - state.originalIndex)

/-- `assertPatchLineMatches`, and past the line. -/
def pass (body : Line) (state : PatchState) : Except PatchError PatchState :=
  match state.remaining with
  | [] => .error .contextMismatch
  | line :: rest =>
    if line = body then
      .ok { state with originalIndex := state.originalIndex + 1, remaining := rest }
    else .error .contextMismatch

def push (body : Line) (state : PatchState) : PatchState :=
  { state with outputLines := state.outputLines ++ [body] }

def change (state : PatchState) : PatchState := { state with changed := true }

end PatchState

/-- The two loops over the lines of a patch: before a hunk lines are passed over, and in a hunk they
are applied. -/
def applyPatchLines (inHunk : Bool) (lines : List Line) (state : PatchState) :
    Except PatchError PatchState :=
  match lines with
  | [] => .ok state
  | line :: rest =>
    if startsWith "@@" line then
      (parseUnifiedDiffHunkHeader line).bind fun oldStart =>
        (state.copyTo oldStart).bind fun state => applyPatchLines true rest state
    else if !inHunk then applyPatchLines false rest state
    else if startsWith "\\ " line then applyPatchLines true rest state
    else
      let body := line.tail
      if startsWith " " line then
        (state.pass body).bind fun state => applyPatchLines true rest (state.push body)
      else if startsWith "-" line then
        (state.pass body).bind fun state => applyPatchLines true rest state.change
      else if startsWith "+" line then
        applyPatchLines true rest (state.push body).change
      -- the `break` comes after the tests of the first unit, so it is never reached
      else if startsWith "--- " line || startsWith "+++ " line then
        applyPatchLines false rest state
      else .error (.unsupportedLine line)

structure TextPatchResult where
  content : List UInt16
  changed : Bool
deriving DecidableEq

def applyUnifiedDiff (originalContent patchContent : List UInt16) :
    Except PatchError TextPatchResult :=
  let originalLines := splitLinesPreservingEndings originalContent
  let patchLines := splitLinesPreservingEndings patchContent
  (applyPatchLines false patchLines ⟨0, originalLines, [], false⟩).map fun state =>
    ⟨(state.outputLines ++ state.remaining).flatten, state.changed⟩

/-! ## Splitting a line off -/

/-- No unit is part of a line end. -/
def Plain (content : List UInt16) : Prop :=
  ∀ unit ∈ content, unit ≠ lineFeed ∧ unit ≠ carriageReturn

/-- What the splitter keeps of the units of a line: those after the last separator. -/
def lastPart (line : Line) (content : List UInt16) : Line :=
  content.foldl (fun part unit => if isSeparator unit then [] else part ++ [unit]) line

theorem splitLinesFrom_plain {content : List UInt16} (h : Plain content) (line : Line)
    (rest : List UInt16) :
    splitLinesFrom line (content ++ rest) = splitLinesFrom (lastPart line content) rest := by
  induction content generalizing line with
  | nil => rfl
  | cons unit others ih =>
    have hunit := h unit List.mem_cons_self
    have hothers : Plain others := fun other hother => h other (List.mem_cons_of_mem unit hother)
    rw [List.cons_append]
    conv_lhs => unfold splitLinesFrom
    rw [if_neg hunit.1, if_neg hunit.2]
    by_cases hseparator : isSeparator unit = true
    · rw [if_pos hseparator, ih hothers]
      unfold lastPart
      rw [List.foldl_cons, if_pos hseparator]
    · rw [if_neg hseparator, ih hothers]
      unfold lastPart
      rw [List.foldl_cons, if_neg hseparator]

end HarnessControl.LocalActions
