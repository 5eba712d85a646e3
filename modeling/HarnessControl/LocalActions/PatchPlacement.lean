import HarnessControl.Library.Fallible
import HarnessControl.LocalActions.UnifiedDiff

/-!
# Where hunks are applied

A patch that is accepted replaces, for each of its hunks in their order, a block of lines of the
original: the block at the line that the header states, or after the block before it where the header
states an earlier line.
-/

namespace HarnessControl.LocalActions

open HarnessControl.Library

/-! ## Hunks -/

inductive HunkLine where
  | context (body : Line)
  | delete (body : Line)
  | insert (body : Line)
  /-- `\ No newline at end of file`. -/
  | note
deriving DecidableEq

namespace HunkLine

def old : HunkLine → List Line
  | .context body | .delete body => [body]
  | .insert _ | .note => []

def new : HunkLine → List Line
  | .context body | .insert body => [body]
  | .delete _ | .note => []

def changes : HunkLine → Bool
  | .delete _ | .insert _ => true
  | .context _ | .note => false

end HunkLine

structure Hunk where
  oldStart : Nat
  lines : List HunkLine
deriving DecidableEq

namespace Hunk

def old (hunk : Hunk) : List Line := hunk.lines.flatMap HunkLine.old

def new (hunk : Hunk) : List Line := hunk.lines.flatMap HunkLine.new

def changes (hunk : Hunk) : Bool := hunk.lines.any HunkLine.changes

end Hunk

def readHunkLine (line : Line) : Option HunkLine :=
  if startsWith "\\ " line then some .note
  else if startsWith " " line then some (.context line.tail)
  else if startsWith "-" line then some (.delete line.tail)
  else if startsWith "+" line then some (.insert line.tail)
  else none

/-- The lines of the hunk that goes on, and the hunks after it. -/
def readHunkLines : List Line → Option (List HunkLine × List Hunk)
  | [] => some ([], [])
  | line :: rest =>
    if startsWith "@@" line then
      (parseUnifiedDiffHunkHeader line).toOption.bind fun oldStart =>
        (readHunkLines rest).map fun read => ([], ⟨oldStart, read.1⟩ :: read.2)
    else
      (readHunkLine line).bind fun hunkLine =>
        (readHunkLines rest).map fun read => (hunkLine :: read.1, read.2)

/-- The hunks of a patch; lines before the first header are passed over. -/
def readHunks (lines : List Line) : Option (List Hunk) :=
  (readHunkLines (lines.dropWhile fun line => !startsWith "@@" line)).map Prod.snd

def sideOf (side : HunkLine → List Line) (line : Line) : List Line :=
  if startsWith "@@" line then [] else (readHunkLine line).elim [] side

def Readable (line : Line) : Prop :=
  startsWith "@@" line = true ∨ ∃ hunkLine, readHunkLine line = some hunkLine

variable {lines : List Line}

theorem readHunkLines_sides {read : List HunkLine × List Hunk}
    (h : readHunkLines lines = some read) :
    (∀ line ∈ lines, Readable line) ∧ ∀ side : HunkLine → List Line,
      read.1.flatMap side ++ read.2.flatMap (fun hunk => hunk.lines.flatMap side) =
        lines.flatMap (sideOf side) := by
  induction lines generalizing read with
  | nil =>
    cases h
    exact ⟨fun _ h => absurd h List.not_mem_nil, fun _ => rfl⟩
  | cons line others ih =>
    unfold readHunkLines at h
    by_cases hheader : startsWith "@@" line = true
    · rw [if_pos hheader] at h
      obtain ⟨oldStart, -, h⟩ := Option.bind_eq_some_iff.mp h
      obtain ⟨later, hlater, rfl⟩ := Option.map_eq_some_iff.mp h
      obtain ⟨hreadable, hsides⟩ := ih hlater
      refine ⟨List.forall_mem_cons.mpr ⟨Or.inl hheader, hreadable⟩, fun side => ?_⟩
      have hside : sideOf side line = [] := if_pos hheader
      show _ = sideOf side line ++ others.flatMap (sideOf side)
      rw [hside, ← hsides side]
      rfl
    · rw [if_neg hheader] at h
      obtain ⟨hunkLine, hline, h⟩ := Option.bind_eq_some_iff.mp h
      obtain ⟨later, hlater, rfl⟩ := Option.map_eq_some_iff.mp h
      obtain ⟨hreadable, hsides⟩ := ih hlater
      refine ⟨List.forall_mem_cons.mpr ⟨Or.inr ⟨hunkLine, hline⟩, hreadable⟩, fun side => ?_⟩
      have hside : sideOf side line = side hunkLine := by
        unfold sideOf
        rw [if_neg hheader, hline]
        rfl
      show (side hunkLine ++ later.1.flatMap side) ++ _ =
        sideOf side line ++ others.flatMap (sideOf side)
      rw [hside, ← hsides side, List.append_assoc]

/-! ## Placement -/

/-- The output for the lines of the original from an index on: before each hunk come the lines up to
the one that it states, and the lines of the hunk replace those that it names. -/
inductive Placed : Nat → List Line → List Hunk → List Line → Prop where
  | done (index : Nat) (original : List Line) : Placed index original [] original
  | hunk {index : Nat} {gap rest output : List Line} {hunk : Hunk} {others : List Hunk} :
    gap.length = (hunk.oldStart - 1) - index →
    Placed (index + gap.length + hunk.old.length) rest others output →
    Placed index (gap ++ (hunk.old ++ rest)) (hunk :: others) (gap ++ (hunk.new ++ output))

theorem placed_cons {index : Nat} {original output : List Line} {hunk : Hunk}
    {others : List Hunk} :
    Placed index original (hunk :: others) output ↔ ∃ gap rest later,
      original = gap ++ (hunk.old ++ rest) ∧ gap.length = (hunk.oldStart - 1) - index ∧
        output = gap ++ (hunk.new ++ later) ∧
          Placed (index + gap.length + hunk.old.length) rest others later := by
  constructor
  · intro h
    cases h with
    | hunk hlength hlater => exact ⟨_, _, _, rfl, hlength, rfl, hlater⟩
  · rintro ⟨gap, rest, later, rfl, hlength, rfl, hlater⟩
    exact .hunk hlength hlater

theorem placed_nil {index : Nat} {original output : List Line} :
    Placed index original [] output ↔ output = original := by
  constructor
  · intro h
    cases h
    rfl
  · rintro rfl
    exact .done _ _

theorem Placed.unique {index : Nat} {original first second : List Line} {hunks : List Hunk}
    (hfirst : Placed index original hunks first) (hsecond : Placed index original hunks second) :
    first = second := by
  induction hunks generalizing index original first second with
  | nil =>
    cases hfirst
    cases hsecond
    rfl
  | cons hunk others ih =>
    obtain ⟨gap, rest, later, hsplit, hlength, rfl, hlater⟩ := placed_cons.mp hfirst
    obtain ⟨gap', rest', later', hsplit', hlength', rfl, hlater'⟩ := placed_cons.mp hsecond
    rw [hsplit] at hsplit'
    obtain ⟨rfl, hblock⟩ := List.append_inj hsplit' (hlength.trans hlength'.symm)
    rw [List.append_cancel_left hblock] at hlater
    rw [ih hlater hlater']

/-! ## The cursor -/

namespace PatchState

/-- The state after lines of the original are consumed and lines of the output are added. -/
def advance (consumed added : List Line) (changes : Bool) (rest : List Line) (state : PatchState) :
    PatchState :=
  ⟨state.originalIndex + consumed.length, rest, state.outputLines ++ added,
    state.changed || changes⟩

theorem copy_ok {count : Nat} {state next : PatchState} :
    state.copy count = .ok next ↔ ∃ gap rest, state.remaining = gap ++ rest ∧
      gap.length = count ∧ next = state.advance gap gap false rest := by
  induction count generalizing state with
  | zero =>
    constructor
    · intro h
      obtain rfl := Except.ok.inj h
      exact ⟨[], state.remaining, rfl, rfl, by simp [advance]⟩
    · rintro ⟨gap, rest, hremaining, hlength, rfl⟩
      have hgap : gap = [] := List.length_eq_zero_iff.mp hlength
      subst hgap
      rw [List.nil_append] at hremaining
      simp [copy, advance, ← hremaining]
  | succ count ih =>
    unfold copy
    cases hremaining : state.remaining with
    | nil =>
      constructor
      · intro h
        cases h
      · rintro ⟨gap, rest, hnil, hlength, -⟩
        rw [List.nil_eq_append_iff] at hnil
        rw [hnil.1] at hlength
        cases hlength
    | cons line others =>
      dsimp only
      rw [ih]
      constructor
      · rintro ⟨gap, rest, hothers, hlength, rfl⟩
        refine ⟨line :: gap, rest, ?_, by simp [hlength], ?_⟩
        · rw [List.cons_append, ← hothers]
        · simp [advance]
          omega
      · rintro ⟨gap, rest, hothers, hlength, rfl⟩
        cases gap with
        | nil => cases hlength
        | cons first gap =>
          cases hothers
          refine ⟨gap, rest, rfl, Nat.succ.inj hlength, ?_⟩
          simp [advance]
          omega

theorem pass_ok {body : Line} {state next : PatchState} :
    state.pass body = .ok next ↔ ∃ rest, state.remaining = body :: rest ∧
      next = state.advance [body] [] false rest := by
  unfold pass
  cases hremaining : state.remaining with
  | nil =>
    constructor
    · intro h
      cases h
    · rintro ⟨rest, hnil, -⟩
      cases hnil
  | cons line others =>
    dsimp only
    constructor
    · intro h
      split at h
      · rename_i hline
        cases h
        exact ⟨others, by rw [hline], by simp [advance]⟩
      · cases h
    · rintro ⟨rest, hcons, rfl⟩
      cases hcons
      rw [if_pos rfl]
      simp [advance]

end PatchState

/-! ## The loops -/

theorem startsWith_iff {mark : String} {line : Line} :
    startsWith mark line = true ↔ Utf16.text mark <+: line := List.isPrefixOf_iff_prefix

def applyHunkLine (hunkLine : HunkLine) (state : PatchState) : Except PatchError PatchState :=
  match hunkLine with
  | .context body => (state.pass body).map (PatchState.push body)
  | .delete body => (state.pass body).map PatchState.change
  | .insert body => .ok (state.push body).change
  | .note => .ok state

theorem applyHunkLine_ok {hunkLine : HunkLine} {state next : PatchState} :
    applyHunkLine hunkLine state = .ok next ↔ ∃ rest,
      state.remaining = hunkLine.old ++ rest ∧
        next = state.advance hunkLine.old hunkLine.new hunkLine.changes rest := by
  have hmap : ∀ (body : Line) (f : PatchState → PatchState),
      (state.pass body).map f = .ok next ↔ ∃ rest, state.remaining = body :: rest ∧
        next = f (state.advance [body] [] false rest) := by
    intro body f
    rw [map_ok]
    constructor
    · rintro ⟨passed, hpass, hnext⟩
      obtain ⟨rest, hremaining, rfl⟩ := PatchState.pass_ok.mp hpass
      exact ⟨rest, hremaining, hnext.symm⟩
    · rintro ⟨rest, hremaining, rfl⟩
      exact ⟨_, PatchState.pass_ok.mpr ⟨rest, hremaining, rfl⟩, rfl⟩
  cases hunkLine with
  | context body =>
    show (state.pass body).map _ = _ ↔ _
    rw [hmap]
    simp [PatchState.push, PatchState.advance, HunkLine.old, HunkLine.new, HunkLine.changes]
  | delete body =>
    show (state.pass body).map _ = _ ↔ _
    rw [hmap]
    simp [PatchState.change, PatchState.advance, HunkLine.old, HunkLine.new, HunkLine.changes]
  | insert body =>
    simp [applyHunkLine, PatchState.push, PatchState.change, PatchState.advance, HunkLine.old,
      HunkLine.new, HunkLine.changes, eq_comm]
  | note =>
    simp only [applyHunkLine, PatchState.advance, HunkLine.old, HunkLine.new, HunkLine.changes,
      List.nil_append, List.append_nil, List.length_nil, Nat.add_zero, Bool.or_false,
      Except.ok.injEq, exists_eq_left']
    exact eq_comm

theorem applyPatchLines_cons (line : Line) (rest : List Line) (state : PatchState) :
    applyPatchLines true (line :: rest) state =
      if startsWith "@@" line then
        (parseUnifiedDiffHunkHeader line).bind fun oldStart =>
          (state.copyTo oldStart).bind fun state => applyPatchLines true rest state
      else
        match readHunkLine line with
        | some hunkLine =>
          (applyHunkLine hunkLine state).bind fun state => applyPatchLines true rest state
        | none => .error (.unsupportedLine line) := by
  conv_lhs => unfold applyPatchLines
  by_cases hheader : startsWith "@@" line = true
  · rw [if_pos hheader, if_pos hheader]
  · rw [if_neg hheader, if_neg hheader, if_neg (by decide)]
    unfold readHunkLine
    by_cases hnote : startsWith "\\ " line = true
    · rw [if_pos hnote, if_pos hnote]
      rfl
    rw [if_neg hnote, if_neg hnote]
    dsimp only
    by_cases hcontext : startsWith " " line = true
    · rw [if_pos hcontext, if_pos hcontext]
      show _ = ((state.pass line.tail).map _).bind _
      cases state.pass line.tail with
      | error failure => rfl
      | ok passed => rfl
    rw [if_neg hcontext, if_neg hcontext]
    by_cases hdelete : startsWith "-" line = true
    · rw [if_pos hdelete, if_pos hdelete]
      show _ = ((state.pass line.tail).map _).bind _
      cases state.pass line.tail with
      | error failure => rfl
      | ok passed => rfl
    rw [if_neg hdelete, if_neg hdelete]
    by_cases hinsert : startsWith "+" line = true
    · rw [if_pos hinsert, if_pos hinsert]
      rfl
    rw [if_neg hinsert, if_neg hinsert]
    -- a file header starts like a line of the hunk
    have hbreak : (startsWith "--- " line || startsWith "+++ " line) = false := by
      rw [Bool.or_eq_false_iff, ← Bool.not_eq_true, ← Bool.not_eq_true]
      constructor
      · intro hfile
        apply hdelete
        rw [startsWith_iff] at hfile ⊢
        exact List.IsPrefix.trans (by decide) hfile
      · intro hfile
        apply hinsert
        rw [startsWith_iff] at hfile ⊢
        exact List.IsPrefix.trans (by decide) hfile
    rw [hbreak]
    rfl

/-- What the loops leave: the lines of the output with those of the original that remain. -/
def PatchState.output (state : PatchState) : List Line := state.outputLines ++ state.remaining

theorem applyPatchLines_hunk {state final : PatchState} :
    applyPatchLines true lines state = .ok final →
    ∃ hunkLines hunks rest tail, readHunkLines lines = some (hunkLines, hunks) ∧
      state.remaining = hunkLines.flatMap HunkLine.old ++ rest ∧
      Placed (state.originalIndex + (hunkLines.flatMap HunkLine.old).length) rest hunks tail ∧
      final.output = state.outputLines ++ (hunkLines.flatMap HunkLine.new ++ tail) ∧
      final.changed = (state.changed || hunkLines.any HunkLine.changes ||
        hunks.any Hunk.changes) := by
  induction lines generalizing state with
  | nil =>
    intro h
    obtain rfl := Except.ok.inj h
    exact ⟨[], [], state.remaining, state.remaining, rfl, rfl, .done _ _, rfl, by simp⟩
  | cons line others ih =>
    intro h
    rw [applyPatchLines_cons] at h
    unfold readHunkLines
    by_cases hheader : startsWith "@@" line = true
    · rw [if_pos hheader] at h ⊢
      obtain ⟨oldStart, hstart, h⟩ := bind_ok.mp h
      obtain ⟨moved, hcopy, h⟩ := bind_ok.mp h
      obtain ⟨gap, rest, hgap, hlength, rfl⟩ := PatchState.copy_ok.mp hcopy
      obtain ⟨hunkLines, hunks, after, tail, hread, hremaining, hplaced, houtput, hchanged⟩ := ih h
      rw [hstart, hread]
      refine ⟨[], ⟨oldStart, hunkLines⟩ :: hunks, state.remaining,
        gap ++ (hunkLines.flatMap HunkLine.new ++ tail), rfl, rfl, ?_, ?_, ?_⟩
      · change rest = _ at hremaining
        rw [hgap, hremaining]
        show Placed _ (gap ++ (Hunk.old ⟨oldStart, hunkLines⟩ ++ after)) _
          (gap ++ (Hunk.new ⟨oldStart, hunkLines⟩ ++ tail))
        apply Placed.hunk
        · rw [hlength]
          rfl
        · exact hplaced
      · rw [houtput]
        simp [PatchState.advance]
      · rw [hchanged]
        simp [PatchState.advance, Hunk.changes, Bool.or_assoc]
    · rw [if_neg hheader] at h ⊢
      cases hline : readHunkLine line with
      | none =>
        rw [hline] at h
        cases h
      | some hunkLine =>
        rw [hline] at h
        obtain ⟨next, happly, h⟩ := bind_ok.mp h
        obtain ⟨rest, hfirst, rfl⟩ := applyHunkLine_ok.mp happly
        obtain ⟨hunkLines, hunks, after, tail, hread, hremaining, hplaced, houtput, hchanged⟩ :=
          ih h
        rw [hread]
        change rest = _ at hremaining
        refine ⟨hunkLine :: hunkLines, hunks, after, tail, rfl, ?_, ?_, ?_, ?_⟩
        · rw [hfirst, hremaining, List.flatMap_cons, List.append_assoc]
        · rw [List.flatMap_cons, List.length_append, ← Nat.add_assoc]
          exact hplaced
        · rw [houtput]
          simp [PatchState.advance]
        · rw [hchanged]
          simp [PatchState.advance, Bool.or_assoc]

theorem applyPatchLines_placed {state : PatchState}
    {hunkLines : List HunkLine} {hunks : List Hunk} {rest tail : List Line} :
    readHunkLines lines = some (hunkLines, hunks) →
    state.remaining = hunkLines.flatMap HunkLine.old ++ rest →
    Placed (state.originalIndex + (hunkLines.flatMap HunkLine.old).length) rest hunks tail →
    ∃ final, applyPatchLines true lines state = .ok final := by
  induction lines generalizing state hunkLines hunks rest tail with
  | nil => exact fun _ _ _ => ⟨state, rfl⟩
  | cons line others ih =>
    intro hread hremaining hplaced
    rw [applyPatchLines_cons]
    unfold readHunkLines at hread
    by_cases hheader : startsWith "@@" line = true
    · rw [if_pos hheader] at hread ⊢
      cases hstart : parseUnifiedDiffHunkHeader line with
      | error failure =>
        rw [hstart] at hread
        cases hread
      | ok oldStart =>
        rw [hstart] at hread
        cases hothers : readHunkLines others with
        | none =>
          rw [hothers] at hread
          cases hread
        | some read =>
          rw [hothers] at hread
          cases hread
          cases hplaced with
          | hunk hlength hlater =>
            rename_i gap rest tail
            have hmoved : state.copyTo oldStart =
                .ok (state.advance gap gap false (read.1.flatMap HunkLine.old ++ rest)) :=
              PatchState.copy_ok.mpr ⟨gap, _, hremaining, hlength, rfl⟩
            show ∃ final, (state.copyTo oldStart).bind _ = _
            rw [hmoved]
            exact ih hothers rfl hlater
    · rw [if_neg hheader] at hread ⊢
      cases hline : readHunkLine line with
      | none =>
        rw [hline] at hread
        cases hread
      | some hunkLine =>
        rw [hline] at hread
        cases hothers : readHunkLines others with
        | none =>
          rw [hothers] at hread
          cases hread
        | some read =>
          rw [hothers] at hread
          cases hread
          rw [List.flatMap_cons, List.append_assoc] at hremaining
          rw [List.flatMap_cons, List.length_append, ← Nat.add_assoc] at hplaced
          dsimp only
          rw [applyHunkLine_ok.mpr ⟨_, hremaining, rfl⟩]
          exact ih hothers rfl hplaced

theorem applyPatchLines_preamble (lines : List Line) (state : PatchState) :
    applyPatchLines false lines state =
      applyPatchLines true (lines.dropWhile fun line => !startsWith "@@" line) state := by
  induction lines with
  | nil => rfl
  | cons line others ih =>
    by_cases hheader : startsWith "@@" line = true
    · rw [List.dropWhile_cons_of_neg (by rw [hheader]; decide)]
      unfold applyPatchLines
      rw [if_pos hheader, if_pos hheader]
    · rw [List.dropWhile_cons_of_pos (by rw [Bool.not_eq_true] at hheader; rw [hheader]; rfl)]
      rw [← ih]
      conv_lhs => unfold applyPatchLines
      rw [if_neg hheader, if_pos (by decide)]

theorem readHunks_eq {hunks : List Hunk} :
    readHunks lines = some hunks ↔
      readHunkLines (lines.dropWhile fun line => !startsWith "@@" line) = some ([], hunks) := by
  unfold readHunks
  cases hlines : lines.dropWhile fun line => !startsWith "@@" line with
  | nil => simp [readHunkLines]
  | cons line others =>
    have hheader : startsWith "@@" line = true := by
      have hhead := List.head?_dropWhile_not (fun line => !startsWith "@@" line) lines
      rw [hlines] at hhead
      simpa using hhead
    unfold readHunkLines
    rw [if_pos hheader]
    cases (parseUnifiedDiffHunkHeader line).toOption with
    | none => simp
    | some oldStart =>
      cases readHunkLines others with
      | none => simp
      | some read => simp

theorem applied_placed {originalContent patchContent : List UInt16} {result : TextPatchResult}
    (h : applyUnifiedDiff originalContent patchContent = .ok result) :
    ∃ hunks output, readHunks (splitLinesPreservingEndings patchContent) = some hunks ∧
      Placed 0 (splitLinesPreservingEndings originalContent) hunks output ∧
      result = ⟨output.flatten, hunks.any Hunk.changes⟩ := by
  unfold applyUnifiedDiff at h
  dsimp only at h
  rw [applyPatchLines_preamble] at h
  generalize splitLinesPreservingEndings originalContent = original at h ⊢
  generalize splitLinesPreservingEndings patchContent = lines at h ⊢
  cases happly : applyPatchLines true (lines.dropWhile fun line => !startsWith "@@" line)
      ⟨0, original, [], false⟩ with
  | error failure =>
    rw [happly] at h
    cases h
  | ok final =>
    rw [happly] at h
    have hresult := Except.ok.inj h
    obtain ⟨hunkLines, hunks, rest, tail, hread, hremaining, hplaced, houtput, hchanged⟩ :=
      applyPatchLines_hunk happly
    have hhunks : readHunks lines = some hunks := by
      unfold readHunks
      rw [hread]
      rfl
    have hsame := readHunks_eq.mp hhunks
    rw [hread] at hsame
    cases hsame
    refine ⟨hunks, tail, hhunks, ?_, ?_⟩
    · rw [show original = rest from hremaining]
      exact hplaced
    · rw [← hresult, ← show final.output = tail from houtput,
        ← show final.changed = hunks.any Hunk.changes by rw [hchanged]; rfl]
      rfl

theorem placed_applied {originalContent patchContent : List UInt16} {hunks : List Hunk}
    {output : List Line} (hread : readHunks (splitLinesPreservingEndings patchContent) = some hunks)
    (hplaced : Placed 0 (splitLinesPreservingEndings originalContent) hunks output) :
    applyUnifiedDiff originalContent patchContent =
      .ok ⟨output.flatten, hunks.any Hunk.changes⟩ := by
  unfold applyUnifiedDiff
  dsimp only
  rw [applyPatchLines_preamble]
  generalize splitLinesPreservingEndings originalContent = original at hplaced ⊢
  generalize splitLinesPreservingEndings patchContent = lines at hread ⊢
  have hlines := readHunks_eq.mp hread
  obtain ⟨final, happly⟩ := @applyPatchLines_placed _ ⟨0, original, [], false⟩ _ _ _ _ hlines
    rfl hplaced
  obtain ⟨hunkLines, others, rest, tail, hread', hremaining, hplaced', houtput, hchanged⟩ :=
    applyPatchLines_hunk happly
  rw [hlines] at hread'
  cases hread'
  rw [show original = rest from hremaining] at hplaced
  have hsame : output = tail := hplaced.unique hplaced'
  rw [happly, hsame, ← show final.output = tail from houtput,
    ← show final.changed = hunks.any Hunk.changes by rw [hchanged]; rfl]
  rfl

/-! ## Hunks at their stated lines -/

/-- The number of lines in front of the hunk.  A hunk that names no line of the original states the
line that it follows. -/
def Hunk.place (hunk : Hunk) : Nat := if hunk.old = [] then hunk.oldStart else hunk.oldStart - 1

/-- The placement where each hunk stands at the line that its header states. -/
inductive Stated : Nat → List Line → List Hunk → List Line → Prop where
  | done (index : Nat) (original : List Line) : Stated index original [] original
  | hunk {index : Nat} {gap rest output : List Line} {hunk : Hunk} {others : List Hunk} :
    index + gap.length = hunk.place →
    Stated (index + gap.length + hunk.old.length) rest others output →
    Stated index (gap ++ (hunk.old ++ rest)) (hunk :: others) (gap ++ (hunk.new ++ output))

/-- No hunk states a line before the end of the hunk in front of it, and only a hunk at the start of
the file names no line of it. -/
def InOrder : Nat → List Hunk → Prop
  | _, [] => True
  | index, hunk :: others =>
    (hunk.old = [] ↔ hunk.oldStart = 0) ∧ index ≤ hunk.place ∧
      InOrder (hunk.place + hunk.old.length) others

instance : (index : Nat) → (hunks : List Hunk) → Decidable (InOrder index hunks)
  | _, [] => isTrue trivial
  | _, _ :: others =>
    @instDecidableAnd _ _ inferInstance
      (@instDecidableAnd _ _ inferInstance (instDecidableInOrder _ others))

theorem placed_iff_stated {index : Nat} {original output : List Line} {hunks : List Hunk}
    (horder : InOrder index hunks) :
    Placed index original hunks output ↔ Stated index original hunks output := by
  induction hunks generalizing index original output with
  | nil =>
    rw [placed_nil]
    constructor
    · rintro rfl
      exact .done _ _
    · intro h
      cases h
      rfl
  | cons hunk others ih =>
    obtain ⟨hempty, hindex, hlater⟩ := horder
    have hplace : hunk.oldStart - 1 = hunk.place := by
      unfold Hunk.place
      split
      · rename_i hnone
        rw [hempty.mp hnone]
      · rfl
    constructor
    · intro h
      obtain ⟨gap, rest, later, rfl, hlength, rfl, hrest⟩ := placed_cons.mp h
      have hgap : index + gap.length = hunk.place := by omega
      rw [hgap] at hrest
      refine .hunk hgap ?_
      rw [hgap]
      exact (ih hlater).mp hrest
    · intro h
      cases h with
      | hunk hgap hrest =>
        rw [hgap] at hrest
        refine .hunk (by omega) ?_
        rw [hgap]
        exact (ih hlater).mpr hrest

/-- A patch that cannot be read is refused.  One whose hunks are in order is accepted exactly if the
original has the old lines of each at the line that its header states, and the result has the new
lines instead of them and the other lines as they are. -/
theorem unified_diff_applied (originalContent patchContent : List UInt16)
    (result : TextPatchResult) :
    (readHunks (splitLinesPreservingEndings patchContent) = none →
      applyUnifiedDiff originalContent patchContent ≠ .ok result) ∧
    ∀ hunks, readHunks (splitLinesPreservingEndings patchContent) = some hunks →
      InOrder 0 hunks →
      (applyUnifiedDiff originalContent patchContent = .ok result ↔
        ∃ output, Stated 0 (splitLinesPreservingEndings originalContent) hunks output ∧
          result = ⟨output.flatten, hunks.any Hunk.changes⟩) := by
  constructor
  · intro hnone happlied
    obtain ⟨hunks, output, hread, -⟩ := applied_placed happlied
    rw [hnone] at hread
    cases hread
  · intro hunks hread horder
    constructor
    · intro happlied
      obtain ⟨others, output, hread', hplaced, rfl⟩ := applied_placed happlied
      rw [hread] at hread'
      cases hread'
      exact ⟨output, (placed_iff_stated horder).mp hplaced, rfl⟩
    · rintro ⟨output, hstated, rfl⟩
      exact placed_applied hread ((placed_iff_stated horder).mpr hstated)

/-- The first and the third line are replaced. -/
def forwardPatch : List UInt16 :=
  Utf16.text "@@ -1,1 +1,1 @@\n-a\n+b\n@@ -3,1 +3,1 @@\n-c\n+d\n"

theorem unified_diff_applied_forward : ∃ hunks output,
    readHunks (splitLinesPreservingEndings forwardPatch) = some hunks ∧
      Stated 0 (splitLinesPreservingEndings (Utf16.text "a\nb\nc\n")) hunks output ∧
      output.flatten = Utf16.text "b\nb\nd\n" := by
  have hread : readHunks (splitLinesPreservingEndings forwardPatch) =
      some [⟨1, [.delete (Utf16.text "a\n"), .insert (Utf16.text "b\n")]⟩,
        ⟨3, [.delete (Utf16.text "c\n"), .insert (Utf16.text "d\n")]⟩] := by decide +kernel
  have happlied : applyUnifiedDiff (Utf16.text "a\nb\nc\n") forwardPatch =
      .ok ⟨Utf16.text "b\nb\nd\n", true⟩ := by decide +kernel
  obtain ⟨output, hstated, hresult⟩ :=
    ((unified_diff_applied (Utf16.text "a\nb\nc\n") forwardPatch _).2 _ hread (by decide)).mp happlied
  exact ⟨_, output, hread, hstated, (congrArg TextPatchResult.content hresult).symm⟩

/-! ## Hunks that state an earlier line -/

/-- The second of these hunks states the first line. -/
def backwardPatch : List UInt16 :=
  Utf16.text "@@ -2,1 +2,1 @@\n-b\n+c\n@@ -1,1 +1,1 @@\n-b\n+d\n"

/-- A hunk that states an earlier line is applied to a later one, and counts are not compared. -/
theorem backward_hunk_applied :
    applyUnifiedDiff (Utf16.text "a\nb\nb\n") backwardPatch = .ok ⟨Utf16.text "a\nc\nd\n", true⟩ ∧
    (¬ ∃ hunks output, readHunks (splitLinesPreservingEndings backwardPatch) = some hunks ∧
      Stated 0 (splitLinesPreservingEndings (Utf16.text "a\nb\nb\n")) hunks output) ∧
    applyUnifiedDiff (Utf16.text "a\n") (Utf16.text "@@ -1,9 +1,9 @@\n-a\n+b\n") =
      .ok ⟨Utf16.text "b\n", true⟩ := by
  refine ⟨by decide +kernel, ?_, by decide +kernel⟩
  rintro ⟨hunks, output, hread, hstated⟩
  have hhunks : readHunks (splitLinesPreservingEndings backwardPatch) =
      some [⟨2, [.delete (Utf16.text "b\n"), .insert (Utf16.text "c\n")]⟩,
        ⟨1, [.delete (Utf16.text "b\n"), .insert (Utf16.text "d\n")]⟩] := by decide +kernel
  rw [hhunks] at hread
  cases hread
  generalize splitLinesPreservingEndings _ = original at hstated
  cases hstated with
  | hunk hfirst hlater =>
    cases hlater with
    | hunk hsecond _ =>
      change _ + 1 + _ = 0 at hsecond
      omega

end HarnessControl.LocalActions
