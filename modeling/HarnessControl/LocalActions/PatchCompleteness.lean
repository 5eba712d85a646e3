import Mathlib
import HarnessControl.LocalActions.SplitLines

/-!
# When the diff of two texts makes one of the other

A diff is applied to the old text as it was printed, and the result is the new text, unless a
separator is lost, a line without a line end is in a hunk, or lines are inserted one line too early.
That a lost separator is never made up for is a matter of weight: whatever the rest of a deleted line
is read as, it takes less away than the line that it was.
-/

namespace HarnessControl.LocalActions

open HarnessControl.Library

/-! ## The weight of a text -/

/-- A line feed weighs less, so that a line that is misread weighs more than a line feed that is
added. -/
def weigh (units : List UInt16) : Nat :=
  (units.map fun unit => if unit = lineFeed then 1 else 2).sum

@[simp] theorem weigh_nil : weigh [] = 0 := rfl

@[simp] theorem weigh_append (first second : List UInt16) :
    weigh (first ++ second) = weigh first + weigh second := by
  unfold weigh
  rw [List.map_append, List.sum_append]

theorem weigh_cons {unit : UInt16} (h : unit ≠ lineFeed) (units : List UInt16) :
    weigh (unit :: units) = 2 + weigh units := by
  unfold weigh
  rw [List.map_cons, List.sum_cons, if_neg h]

theorem Placed.weigh {index : Nat} {original output : List Line} {hunks : List Hunk}
    (h : Placed index original hunks output) :
    LocalActions.weigh output.flatten + LocalActions.weigh (hunks.flatMap Hunk.old).flatten =
      LocalActions.weigh original.flatten +
        LocalActions.weigh (hunks.flatMap Hunk.new).flatten := by
  induction h with
  | done index original => simp
  | hunk hlength hlater ih =>
    simp only [List.flatMap_cons, List.flatten_append, weigh_append]
    omega

theorem sideOf_old_weigh {line : Line} (h : Readable line) :
    weigh (sideOf HunkLine.old line).flatten + 2 ≤ weigh line := by
  have hmark : ∀ mark : String, ∀ unit : UInt16, (Utf16.text mark).head? = some unit →
      unit ≠ lineFeed → startsWith mark line = true → weigh line = 2 + weigh line.tail := by
    intro mark unit hhead hunit hstart
    obtain ⟨rest, rfl⟩ := startsWith_iff.mp hstart
    cases htext : Utf16.text mark with
    | nil =>
      rw [htext] at hhead
      cases hhead
    | cons first others =>
      rw [htext] at hhead
      obtain rfl := Option.some.inj hhead
      exact weigh_cons hunit _
  unfold sideOf
  by_cases hheader : startsWith "@@" line = true
  · rw [if_pos hheader]
    have hweigh := hmark "@@" 0x40 (by decide) (by decide) hheader
    show 0 + 2 ≤ _
    omega
  · rw [if_neg hheader]
    obtain ⟨hunkLine, hread⟩ := h.resolve_left hheader
    rw [hread]
    unfold readHunkLine at hread
    split at hread
    · rename_i hnote
      have hweigh := hmark "\\ " 0x5C (by decide) (by decide) hnote
      cases hread
      show 0 + 2 ≤ _
      omega
    split at hread
    · rename_i hcontext
      have hweigh := hmark " " 0x20 (by decide) (by decide) hcontext
      cases hread
      show weigh [line.tail].flatten + 2 ≤ _
      rw [List.flatten_singleton]
      omega
    split at hread
    · rename_i hdelete
      have hweigh := hmark "-" 0x2D (by decide) (by decide) hdelete
      cases hread
      show weigh [line.tail].flatten + 2 ≤ _
      rw [List.flatten_singleton]
      omega
    split at hread
    · rename_i hinsert
      have hweigh := hmark "+" 0x2B (by decide) (by decide) hinsert
      cases hread
      show 0 + 2 ≤ _
      omega
    · cases hread

/-- What a line adds to the output beyond what it should. -/
def DiffLine.excess : DiffLine → Nat
  | .context _ => 0
  | .delete line => if line.content.any isSeparator then 2 else 0
  | .insert line => if line.ending = .missing then 1 else 0

def DiffLine.deficit : DiffLine → Nat
  | .delete line => if line.ending = .missing then 1 else 0
  | .context _ | .insert _ => 0

theorem lastPart_any {content : List UInt16} (h : content.any isSeparator = true)
    (first second : Line) : lastPart first content = lastPart second content := by
  induction content generalizing first second with
  | nil => cases h
  | cons unit others ih =>
    unfold lastPart
    rw [List.foldl_cons, List.foldl_cons]
    by_cases hunit : isSeparator unit = true
    · rw [if_pos hunit, if_pos hunit]
    · rw [if_neg hunit, if_neg hunit]
      rw [List.any_cons, Bool.or_eq_true] at h
      exact ih (h.resolve_left hunit) _ _

theorem closed_weigh (line : TextLine) :
    weigh line.closed.units = weigh line.units + if line.ending = .missing then 1 else 0 := by
  show weigh (line.content ++ line.ending.closed.units) = weigh (line.content ++ line.ending.units) + _
  rw [weigh_append, weigh_append]
  cases line.ending with
  | lf => rfl
  | crlf => rfl
  | missing => rfl

/-- What the lines of a diff, as they are printed, add to the output and take away from it, against
what they should. -/
def Balance (old new : List TextLine) (printed : List Line) (lines : List DiffLine) : Prop :=
  weigh (textOf new) + weigh (printed.flatMap (sideOf HunkLine.old)).flatten +
      (lines.map DiffLine.excess).sum ≤
    weigh (old.map TextLine.kept).flatten +
      weigh (printed.flatMap (sideOf HunkLine.new)).flatten + (lines.map DiffLine.deficit).sum

theorem Balance.append {old old' new new' : List TextLine} {printed printed' : List Line}
    {lines lines' : List DiffLine} (hfirst : Balance old new printed lines)
    (hsecond : Balance old' new' printed' lines') :
    Balance (old ++ old') (new ++ new') (printed ++ printed') (lines ++ lines') := by
  unfold Balance textOf at hfirst hsecond ⊢
  simp only [List.flatMap_append, List.map_append, List.flatten_append, weigh_append,
    List.sum_append]
  omega

theorem Balance.same {lines : List TextLine} (h : ∀ line ∈ lines, NoSeparator line.content) :
    Balance lines lines [] [] := by
  have hkept : lines.map TextLine.kept = lines.map TextLine.units :=
    List.map_congr_left fun line hline => TextLine.kept_eq (h line hline)
  unfold Balance textOf
  rw [hkept, List.flatMap_def]
  simp

theorem Balance.line {line : DiffLine} (hnew : ∀ text ∈ line.new, NoSeparator text.content)
    (hread : ∀ printed ∈ (printLine line).map TextLine.kept, Readable printed) :
    Balance line.old line.new ((printLine line).map TextLine.kept) [line] := by
  unfold Balance
  rw [List.map_singleton, List.map_singleton, List.sum_singleton, List.sum_singleton]
  by_cases hseparator : NoSeparator line.line.content
  · -- the line is read as it is
    have hsides := (readHunkLines_sides (printLine_read hseparator
      (show readHunkLines [] = some ([], []) from rfl))).2
    simp only [List.append_nil, List.flatMap_nil] at hsides
    have hold : ((printLine line).map TextLine.kept).flatMap (sideOf HunkLine.old) =
        line.old.map fun text => text.closed.units := by
      rw [← hsides]
      have h := reads_old [line]
      rwa [List.flatMap_singleton, List.flatMap_singleton] at h
    have hnews : ((printLine line).map TextLine.kept).flatMap (sideOf HunkLine.new) =
        line.new.map fun text => text.closed.units := by
      rw [← hsides]
      have h := reads_new [line]
      rwa [List.flatMap_singleton, List.flatMap_singleton] at h
    have hkept := TextLine.kept_eq hseparator
    have hany : line.line.content.any isSeparator = false := by
      rw [List.any_eq_false]
      exact fun unit hunit => Bool.eq_false_iff.mp (hseparator unit hunit)
    rw [hold, hnews]
    cases line with
    | context text =>
      change text.kept = text.units at hkept
      simp [textOf, DiffLine.new, DiffLine.old, DiffLine.excess, DiffLine.deficit, hkept]
    | delete text =>
      change text.kept = text.units at hkept
      change text.content.any isSeparator = false at hany
      simp [textOf, DiffLine.new, DiffLine.old, DiffLine.excess, DiffLine.deficit, hkept, hany,
        closed_weigh]
    | insert text =>
      simp [textOf, DiffLine.new, DiffLine.old, DiffLine.excess, DiffLine.deficit, closed_weigh]
  · cases line with
    | context text => exact absurd (hnew text (List.mem_singleton_self text)) hseparator
    | insert text => exact absurd (hnew text (List.mem_singleton_self text)) hseparator
    | delete text =>
      -- whatever it is read as, it takes away less than the line that was there
      have hany : text.content.any isSeparator = true := by
        rw [← Bool.not_eq_false, List.any_eq_false]
        exact fun h => hseparator fun unit hunit => Bool.eq_false_iff.mpr (h unit hunit)
      generalize hprinted : TextLine.kept ⟨_, text.ending.closed,
        (DiffLine.delete text).plain⟩ = printed
      have hlines : (printLine (.delete text)).map TextLine.kept = printed ::
          (if text.ending = .missing then [noNewline] else []).map TextLine.kept :=
        congrArg (· :: _) hprinted
      rw [hlines] at hread ⊢
      have hnotes : ∀ side : HunkLine → List Line, side .note = [] →
          ((if text.ending = .missing then [noNewline] else []).map TextLine.kept).flatMap
            (sideOf side) = [] := by
        intro side hside
        split
        · show sideOf side noNewline.kept ++ [] = []
          unfold sideOf
          rw [noNewline_read.1, noNewline_read.2, List.append_nil]
          exact hside
        · rfl
      have hold := sideOf_old_weigh (hread printed List.mem_cons_self)
      have hweigh : weigh printed = weigh text.kept + DiffLine.deficit (.delete text) := by
        have hpart : lastPart [] ((DiffLine.delete text).mark :: text.content) =
            lastPart [] text.content := lastPart_any hany _ _
        have hclosed := closed_weigh text
        change weigh (text.content ++ text.ending.closed.units) =
          weigh (text.content ++ text.ending.units) + DiffLine.deficit (.delete text) at hclosed
        rw [weigh_append, weigh_append] at hclosed
        rw [← hprinted]
        show weigh (lastPart [] ((DiffLine.delete text).mark :: text.content) ++
          text.ending.closed.units) = weigh (lastPart [] text.content ++ text.ending.units) + _
        rw [hpart, weigh_append, weigh_append]
        omega
      rw [List.flatMap_cons, List.flatMap_cons, hnotes HunkLine.old rfl, hnotes HunkLine.new rfl,
        List.append_nil, List.append_nil]
      show 0 + _ + (if text.content.any isSeparator then 2 else 0) ≤ weigh (text.kept ++ []) + _ + _
      rw [hany, if_pos rfl, List.append_nil]
      omega

theorem Balance.lines {lines : List DiffLine}
    (hnew : ∀ text ∈ lines.flatMap DiffLine.new, NoSeparator text.content)
    (hread : ∀ printed ∈ (lines.flatMap printLine).map TextLine.kept, Readable printed) :
    Balance (lines.flatMap DiffLine.old) (lines.flatMap DiffLine.new)
      ((lines.flatMap printLine).map TextLine.kept) lines := by
  induction lines with
  | nil => exact Nat.le_refl _
  | cons line others ih =>
    rw [List.flatMap_cons] at hnew hread
    rw [List.map_append] at hread
    obtain ⟨hline, hothers⟩ := List.forall_mem_append.mp hnew
    obtain ⟨hprinted, hrest⟩ := List.forall_mem_append.mp hread
    rw [List.flatMap_cons, List.flatMap_cons, List.flatMap_cons, List.map_append]
    exact (Balance.line hline hprinted).append (ih hothers hrest)

theorem Balance.hunks {hunks : List DiffHunk} {rest : List TextLine}
    (hheading : ∀ hunk ∈ hunks, NoSeparator hunk.heading)
    (hnew : ∀ text ∈ newOf hunks rest, NoSeparator text.content) (oldIndex newIndex : Nat)
    (hread : ∀ printed ∈ (printHunks oldIndex newIndex hunks).map TextLine.kept,
      Readable printed) :
    Balance (oldOf hunks rest) (newOf hunks rest)
      ((printHunks oldIndex newIndex hunks).map TextLine.kept)
      (hunks.flatMap DiffHunk.lines) := by
  induction hunks generalizing oldIndex newIndex with
  | nil => exact Balance.same hnew
  | cons hunk others ih =>
    have hold : oldOf (hunk :: others) rest = hunk.gap ++ (hunk.old ++ oldOf others rest) := by
      unfold oldOf
      rw [List.flatMap_cons, List.append_assoc, List.append_assoc]
    have hnews : newOf (hunk :: others) rest = hunk.gap ++ (hunk.new ++ newOf others rest) := by
      unfold newOf
      rw [List.flatMap_cons, List.append_assoc, List.append_assoc]
    rw [hnews] at hnew
    obtain ⟨hgap, hblock⟩ := List.forall_mem_append.mp hnew
    obtain ⟨hlines, hlater⟩ := List.forall_mem_append.mp hblock
    unfold printHunks at hread ⊢
    rw [List.map_cons, List.map_append] at hread ⊢
    obtain ⟨hfirst, hprinted, hrest⟩ :=
      (List.forall_mem_cons.trans (and_congr_right fun _ => List.forall_mem_append)).mp hread
    have hheader : Balance hunk.gap hunk.gap
        [(hunkHeader (oldIndex + hunk.gap.length) (newIndex + hunk.gap.length) hunk).kept] [] := by
      have hstart := (header_kept (hheading hunk List.mem_cons_self)
        (oldIndex + hunk.gap.length) (newIndex + hunk.gap.length)).1
      have hsame := Balance.same hgap
      unfold Balance at hsame ⊢
      have hside : ∀ side : HunkLine → List Line, sideOf side _ = [] := fun _ => if_pos hstart
      rw [List.flatMap_singleton, List.flatMap_singleton, hside, hside]
      exact hsame
    rw [hold, hnews]
    exact hheader.append ((Balance.lines hlines hprinted).append
      (ih (fun other hother => hheading other (List.mem_cons_of_mem hunk hother)) hlater _ _
        hrest))

/-! ## Separators are lost -/

theorem Placed.mem {index : Nat} {original output : List Line} {hunks : List Hunk}
    (h : Placed index original hunks output) :
    ∀ line ∈ output, line ∈ original ∨ line ∈ hunks.flatMap Hunk.new := by
  induction h with
  | done index original => exact fun line hline => Or.inl hline
  | hunk hlength hlater ih =>
    intro line hline
    simp only [List.mem_append, List.flatMap_cons] at hline ih ⊢
    obtain hgap | hnew | hrest := hline
    · exact Or.inl (Or.inl hgap)
    · exact Or.inr (Or.inl hnew)
    · obtain hold | hother := ih line hrest
      · exact Or.inl (Or.inr (Or.inr hold))
      · exact Or.inr (Or.inr hother)

theorem sideOf_new_mem {line body : Line} (h : body ∈ sideOf HunkLine.new line) :
    body = line.tail := by
  unfold sideOf readHunkLine at h
  split at h
  · exact absurd h List.not_mem_nil
  repeat' split at h
  all_goals first
    | exact List.mem_singleton.mp h
    | exact absurd h List.not_mem_nil

theorem applied_noSeparator {originalContent patchContent : List UInt16}
    {result : TextPatchResult}
    (h : applyUnifiedDiff originalContent patchContent = .ok result) :
    NoSeparator result.content := by
  obtain ⟨hunks, output, hread, hplaced, rfl⟩ := applied_placed h
  have hnil : NoSeparator [] := fun _ h => absurd h List.not_mem_nil
  intro unit hunit
  obtain ⟨line, hline, hunit⟩ := List.mem_flatten.mp hunit
  obtain hold | hnew := hplaced.mem line hline
  · exact splitLinesFrom_noSeparator hnil line hold unit hunit
  · have hsides := (readHunkLines_sides (readHunks_eq.mp hread)).2 HunkLine.new
    change hunks.flatMap Hunk.new = _ at hsides
    rw [hsides] at hnew
    obtain ⟨printed, hprinted, hbody⟩ := List.mem_flatMap.mp hnew
    rw [sideOf_new_mem hbody] at hunit
    exact splitLinesFrom_noSeparator hnil printed ((List.dropWhile_sublist _).subset hprinted) unit
      (List.mem_of_mem_tail hunit)

/-! ## The result -/

theorem noSeparator_flatMap {lines : List TextLine} (h : NoSeparator (textOf lines)) :
    ∀ line ∈ lines, NoSeparator line.content := by
  intro line hline unit hunit
  exact h unit (List.mem_flatMap.mpr ⟨line, hline, List.mem_append_left _ hunit⟩)

theorem splitLines_kept {lines : List TextLine} (hends : EndsLast lines)
    (hkept : ∀ line ∈ lines, NoSeparator line.content) :
    splitLinesPreservingEndings (textOf lines) = lines.map TextLine.units := by
  have hmap : lines.map TextLine.kept = lines.map TextLine.units :=
    List.map_congr_left fun line hline => TextLine.kept_eq (hkept line hline)
  rw [splitLines_text hends, hmap, List.filter_eq_self]
  intro units hunits
  obtain ⟨line, hline, rfl⟩ := List.mem_map.mp hunits
  obtain ⟨before, after, hsplit⟩ := List.append_of_mem hline
  rw [decide_eq_true_iff]
  intro hempty
  obtain ⟨hcontent, hending⟩ := List.append_eq_nil_iff.mp hempty
  cases hcase : line.ending with
  | lf =>
    rw [hcase] at hending
    cases hending
  | crlf =>
    rw [hcase] at hending
    cases hending
  | missing => exact (hends before line after hsplit hcase).2 hcontent

theorem Diff.gaps_terminated (diff : Diff) :
    ∀ hunk ∈ diff.hunks, ∀ line ∈ hunk.gap, line.ending ≠ .missing := by
  intro hunk hhunk line hline hmissing
  obtain ⟨before, after, hhunks⟩ := List.append_of_mem hhunk
  obtain ⟨first, last, hgap⟩ := List.append_of_mem hline
  have hsplit : ∀ side : DiffHunk → List TextLine,
      diff.hunks.flatMap (fun hunk => hunk.gap ++ side hunk) ++ diff.rest =
        (before.flatMap (fun hunk => hunk.gap ++ side hunk) ++ first) ++ line ::
          (last ++ (side hunk ++ (after.flatMap (fun hunk => hunk.gap ++ side hunk) ++
            diff.rest))) := by
    intro side
    rw [hhunks, List.flatMap_append, List.flatMap_cons, hgap]
    simp only [List.append_assoc, List.cons_append]
  have hold := (diff.old_ends _ _ _ (hsplit DiffHunk.old) hmissing).1
  have hnew := (diff.new_ends _ _ _ (hsplit DiffHunk.new) hmissing).1
  simp only [List.append_eq_nil_iff] at hold hnew
  apply diff.filled hunk hhunk
  cases hlines : hunk.lines with
  | nil => rfl
  | cons line others =>
    have hlineOld := hold.2.1
    have hlineNew := hnew.2.1
    unfold DiffHunk.old at hlineOld
    unfold DiffHunk.new at hlineNew
    rw [hlines, List.flatMap_cons, List.append_eq_nil_iff] at hlineOld hlineNew
    cases line with
    | context _ => exact absurd hlineOld.1 (List.cons_ne_nil _ _)
    | delete _ => exact absurd hlineOld.1 (List.cons_ne_nil _ _)
    | insert _ => exact absurd hlineNew.1 (List.cons_ne_nil _ _)

theorem outputOf_mem {owed : List TextLine} {hunks : List DiffHunk} :
    ∀ line ∈ outputOf owed hunks, line ∈ owed ∨ ∃ hunk ∈ hunks, line ∈ hunk.gap ∨
      line ∈ hunk.new.map TextLine.closed := by
  induction hunks generalizing owed with
  | nil => exact fun line hline => Or.inl hline
  | cons hunk others ih =>
    have hblock : ∀ line, line ∈ owed ++ hunk.gap → line ∈ owed ∨ ∃ other ∈ hunk :: others,
        line ∈ other.gap ∨ line ∈ other.new.map TextLine.closed := by
      intro line hline
      obtain howed | hgap := List.mem_append.mp hline
      · exact Or.inl howed
      · exact Or.inr ⟨hunk, List.mem_cons_self, Or.inl hgap⟩
    have hnew : ∀ line, line ∈ hunk.new.map TextLine.closed → line ∈ owed ∨
        ∃ other ∈ hunk :: others, line ∈ other.gap ∨ line ∈ other.new.map TextLine.closed :=
      fun line hline => Or.inr ⟨hunk, List.mem_cons_self, Or.inr hline⟩
    intro line hline
    unfold outputOf at hline
    split at hline
    · obtain hfirst | hline := List.mem_append.mp hline
      · exact hblock line ((List.dropLast_sublist _).subset hfirst)
      obtain hinserted | hline := List.mem_append.mp hline
      · exact hnew line hinserted
      obtain hlast | ⟨other, hother, hmem⟩ := ih line hline
      · exact hblock line (List.mem_of_getLast? (by simpa using hlast))
      · exact Or.inr ⟨other, List.mem_cons_of_mem hunk hother, hmem⟩
    · obtain hfirst | hline := List.mem_append.mp hline
      · exact hblock line hfirst
      obtain hinserted | hline := List.mem_append.mp hline
      · exact hnew line hinserted
      obtain hlast | ⟨other, hother, hmem⟩ := ih line hline
      · exact absurd hlast List.not_mem_nil
      · exact Or.inr ⟨other, List.mem_cons_of_mem hunk hother, hmem⟩

theorem terminated_inj {first second : List TextLine}
    (hfirst : ∀ line ∈ first, line.ending ≠ .missing ∧ NoSeparator line.content)
    (hsecond : ∀ line ∈ second, line.ending ≠ .missing ∧ NoSeparator line.content)
    (h : textOf first = textOf second) :
    first.map TextLine.units = second.map TextLine.units := by
  have hlines : ∀ lines : List TextLine,
      (∀ line ∈ lines, line.ending ≠ .missing ∧ NoSeparator line.content) →
      splitLinesFrom [] (textOf lines ++ []) = lines.map TextLine.units := by
    intro lines hlines
    rw [splitLines_terminated fun line hline => (hlines line hline).1]
    show lines.map TextLine.kept ++ [] = _
    rw [List.append_nil]
    exact List.map_congr_left fun line hline => TextLine.kept_eq (hlines line hline).2
  rw [← hlines first hfirst, ← hlines second hsecond, h]

theorem missing_once {lines : List TextLine} (h : EndsLast lines) :
    lines.countP (fun line => line.ending = .missing) ≤ 1 := by
  induction lines with
  | nil => exact Nat.zero_le 1
  | cons line others ih =>
    have hothers : EndsLast others := by
      intro before other after hsplit
      exact h (line :: before) other after (congrArg (line :: ·) hsplit)
    have hlater := ih hothers
    by_cases hmissing : line.ending = .missing
    · rw [(h [] line others rfl hmissing).1, List.countP_singleton]
      split <;> omega
    · rw [List.countP_cons_of_neg (by simpa using hmissing)]
      exact hlater

theorem deficit_le (lines : List DiffLine) :
    (lines.map DiffLine.deficit).sum ≤
      (lines.flatMap DiffLine.old).countP (fun line => line.ending = .missing) := by
  induction lines with
  | nil => exact Nat.le_refl 0
  | cons line others ih =>
    have hline : line.deficit ≤ line.old.countP (fun line => line.ending = .missing) := by
      cases line with
      | context _ => exact Nat.zero_le _
      | insert _ => exact Nat.zero_le _
      | delete text =>
        show (if text.ending = .missing then 1 else 0) ≤ List.countP _ [text]
        rw [List.countP_singleton]
        simp
    rw [List.map_cons, List.sum_cons, List.flatMap_cons, List.countP_append]
    omega

theorem oldOf_count (hunks : List DiffHunk) (rest : List TextLine) (p : TextLine → Bool) :
    ((hunks.flatMap DiffHunk.lines).flatMap DiffLine.old).countP p ≤ (oldOf hunks rest).countP p := by
  induction hunks with
  | nil => exact Nat.zero_le _
  | cons hunk others ih =>
    unfold oldOf at ih ⊢
    rw [List.flatMap_cons, List.flatMap_append, List.countP_append, List.flatMap_cons,
      List.append_assoc, List.countP_append, List.countP_append]
    show hunk.old.countP p + _ ≤ _
    omega

theorem excess_le {line : DiffLine} {lines : List DiffLine} (h : line ∈ lines) :
    line.excess ≤ (lines.map DiffLine.excess).sum := by
  induction lines with
  | nil => exact absurd h List.not_mem_nil
  | cons other others ih =>
    rw [List.map_cons, List.sum_cons]
    obtain rfl | hlater := List.mem_cons.mp h
    · omega
    · have := ih hlater
      omega

theorem Diff.excess_deficit (diff : Diff) (hheaders : diff.HeadersKept) {result : TextPatchResult}
    (happlied : applyUnifiedDiff (textOf diff.old) diff.text = .ok result)
    (hresult : result.content = textOf diff.new) :
    ((diff.hunks.flatMap DiffHunk.lines).map DiffLine.excess).sum ≤
      ((diff.hunks.flatMap DiffHunk.lines).map DiffLine.deficit).sum := by
  have hnew : ∀ line ∈ diff.new, NoSeparator line.content :=
    noSeparator_flatMap (hresult ▸ applied_noSeparator happlied)
  obtain ⟨hunks, output, hread, hplaced, rfl⟩ := applied_placed happlied
  have hweigh := hplaced.weigh
  have hold : splitLinesPreservingEndings (textOf diff.old) = _ := splitLines_text diff.old_ends
  rw [readHunks_eq, diff.from_first hheaders] at hread
  obtain ⟨hreadable, hsides⟩ := readHunkLines_sides hread
  have hbalance := Balance.hunks hheaders.2 hnew 0 0 hreadable
  unfold Balance at hbalance
  change output.flatten = _ at hresult
  rw [hresult, hold, List.flatten_filter_ne_nil] at hweigh
  rw [← hsides HunkLine.old, ← hsides HunkLine.new] at hbalance
  change weigh (textOf diff.new) + weigh (hunks.flatMap Hunk.old).flatten + _ ≤
    weigh (diff.old.map TextLine.kept).flatten + weigh (hunks.flatMap Hunk.new).flatten + _
    at hbalance
  omega

theorem Diff.placed_iff (diff : Diff) (h : diff.LinesKept) (output : List Line) :
    Placed 0 (splitLinesPreservingEndings (textOf diff.old)) (readOf 0 diff.hunks) output ↔
      (∀ hunk ∈ diff.hunks, ∀ line ∈ hunk.old, line.ending ≠ .missing) ∧
        output = (outputOf [] diff.hunks ++ diff.rest).map TextLine.units := by
  have hends : EndsLast diff.old := diff.old_ends
  rw [splitLines_kept hends h.1]
  exact @placed_printed 0 [] diff.rest diff.hunks output (Nat.le_refl 0)

theorem Diff.output_iff (diff : Diff) (hlines : diff.LinesKept)
    (hterminated : diff.HunksTerminated) :
    ((outputOf [] diff.hunks ++ diff.rest).map TextLine.units).flatten = textOf diff.new ↔
      diff.InsertsRepeat := by
  have hnewTerminated : ∀ hunk ∈ diff.hunks, ∀ line ∈ hunk.new, line.ending ≠ .missing := by
    intro hunk hhunk line hline
    obtain ⟨diffLine, hmem, hside⟩ := List.mem_flatMap.mp hline
    have hending := hterminated hunk hhunk diffLine hmem
    cases diffLine with
    | context text => exact List.mem_singleton.mp hside ▸ hending
    | insert text => exact List.mem_singleton.mp hside ▸ hending
    | delete text => exact absurd hside List.not_mem_nil
  have hkept : ∀ hunk ∈ diff.hunks, ∀ line ∈ hunk.gap ++ hunk.new, NoSeparator line.content := by
    intro hunk hhunk line hline
    exact hlines.2 line (List.mem_append_left _ (List.mem_flatMap.mpr ⟨hunk, hhunk, hline⟩))
  have hoff : textOf diff.new =
      textOf (diff.hunks.flatMap fun hunk => hunk.gap ++ hunk.new) ++ textOf diff.rest :=
    List.flatMap_append
  have hout : ((outputOf [] diff.hunks ++ diff.rest).map TextLine.units).flatten =
      textOf (outputOf [] diff.hunks) ++ textOf diff.rest := by
    rw [← List.flatMap_def]
    exact List.flatMap_append
  have hfirst : ∀ line ∈ outputOf [] diff.hunks,
      line.ending ≠ .missing ∧ NoSeparator line.content := by
    intro line hline
    obtain hnone | ⟨hunk, hhunk, hgap | hnew⟩ := outputOf_mem line hline
    · exact absurd hnone List.not_mem_nil
    · exact ⟨diff.gaps_terminated hunk hhunk line hgap,
        hkept hunk hhunk line (List.mem_append_left _ hgap)⟩
    · obtain ⟨text, htext, rfl⟩ := List.mem_map.mp hnew
      exact ⟨LineEnd.closed_terminated _, hkept hunk hhunk text (List.mem_append_right _ htext)⟩
  have hsecond : ∀ line ∈ diff.hunks.flatMap fun hunk => hunk.gap ++ hunk.new,
      line.ending ≠ .missing ∧ NoSeparator line.content := by
    intro line hline
    obtain ⟨hunk, hhunk, hline⟩ := List.mem_flatMap.mp hline
    refine ⟨?_, hkept hunk hhunk line hline⟩
    obtain hgap | hnew := List.mem_append.mp hline
    · exact diff.gaps_terminated hunk hhunk line hgap
    · exact hnewTerminated hunk hhunk line hnew
  have hiff := @outputOf_iff [] diff.hunks hnewTerminated diff.apart (Or.inl rfl)
  rw [hout, hoff, List.append_left_inj]
  constructor
  · exact fun h => hiff.mp (terminated_inj hfirst hsecond h)
  · intro h
    have hmap := hiff.mpr h
    unfold textOf
    rw [List.flatMap_def, List.flatMap_def, hmap]
    rfl

/-- The diff of two texts makes the one of the other exactly if no separator is in a line, every line
of a hunk has a line end, and lines that are inserted without context repeat the line before them. -/
theorem diff_applied (diff : Diff) (hheaders : diff.HeadersKept) :
    (∃ result, applyUnifiedDiff (textOf diff.old) diff.text = .ok result ∧
      result.content = textOf diff.new) ↔
    diff.LinesKept ∧ diff.HunksTerminated ∧ diff.InsertsRepeat := by
  constructor
  · rintro ⟨result, happlied, hresult⟩
    have hnew : ∀ line ∈ diff.new, NoSeparator line.content :=
      noSeparator_flatMap (hresult ▸ applied_noSeparator happlied)
    have hbalance := diff.excess_deficit hheaders happlied hresult
    have hdeficit : ((diff.hunks.flatMap DiffHunk.lines).map DiffLine.deficit).sum ≤ 1 :=
      Nat.le_trans (Nat.le_trans (deficit_le _) (oldOf_count _ diff.rest _))
        (missing_once diff.old_ends)
    have hlines : diff.LinesKept := by
      refine ⟨?_, hnew⟩
      intro line hline
      obtain hhunks | hrest := List.mem_append.mp hline
      · obtain ⟨hunk, hhunk, hline⟩ := List.mem_flatMap.mp hhunks
        have hin : ∀ line, line ∈ hunk.gap ++ hunk.new → line ∈ diff.new := fun line hline =>
          List.mem_append_left _ (List.mem_flatMap.mpr ⟨hunk, hhunk, hline⟩)
        obtain hgap | hold := List.mem_append.mp hline
        · exact hnew line (hin line (List.mem_append_left _ hgap))
        obtain ⟨diffLine, hmem, hside⟩ := List.mem_flatMap.mp hold
        cases diffLine with
        | insert text => exact absurd hside List.not_mem_nil
        | context text =>
          rw [List.mem_singleton.mp hside]
          exact hnew text (hin text (List.mem_append_right _
            (List.mem_flatMap.mpr ⟨_, hmem, List.mem_singleton_self text⟩)))
        | delete text =>
          -- a deleted line with a separator takes away too little
          rw [List.mem_singleton.mp hside]
          have hexcess := excess_le (List.mem_flatMap.mpr ⟨hunk, hhunk, hmem⟩)
          have hclean : text.content.any isSeparator = false := by
            by_contra hany
            rw [Bool.not_eq_false] at hany
            have htwo : DiffLine.excess (.delete text) = 2 := if_pos hany
            omega
          rw [List.any_eq_false] at hclean
          exact fun unit hunit => Bool.eq_false_iff.mpr (hclean unit hunit)
      · exact hnew line (List.mem_append_right _ hrest)
    obtain ⟨hunks, output, hread, hplaced, rfl⟩ := applied_placed happlied
    rw [diff.readHunks hheaders hlines] at hread
    obtain rfl := Option.some.inj hread
    obtain ⟨hold, rfl⟩ := (diff.placed_iff hlines output).mp hplaced
    have hterminated : diff.HunksTerminated := by
      intro hunk hhunk line hmem
      cases line with
      | context text =>
        exact hold hunk hhunk text (List.mem_flatMap.mpr ⟨_, hmem, List.mem_singleton_self text⟩)
      | delete text =>
        exact hold hunk hhunk text (List.mem_flatMap.mpr ⟨_, hmem, List.mem_singleton_self text⟩)
      | insert text =>
        -- its line feed is added, and nothing is taken away
        intro hmissing
        have hexcess := excess_le (List.mem_flatMap.mpr ⟨hunk, hhunk, hmem⟩)
        have hone : DiffLine.excess (.insert text) = 1 := if_pos hmissing
        have hnone : ((diff.hunks.flatMap DiffHunk.lines).flatMap DiffLine.old).countP
            (fun line => line.ending = .missing) = 0 := by
          rw [List.countP_eq_zero]
          intro other hother
          obtain ⟨diffLine, hdiffLine, hside⟩ := List.mem_flatMap.mp hother
          obtain ⟨hunk, hhunk, hdiffLine⟩ := List.mem_flatMap.mp hdiffLine
          simpa using hold hunk hhunk other (List.mem_flatMap.mpr ⟨diffLine, hdiffLine, hside⟩)
        have hsum := deficit_le (diff.hunks.flatMap DiffHunk.lines)
        omega
    exact ⟨hlines, hterminated, (diff.output_iff hlines hterminated).mp hresult⟩
  · rintro ⟨hlines, hterminated, hrepeat⟩
    have hold : ∀ hunk ∈ diff.hunks, ∀ line ∈ hunk.old, line.ending ≠ .missing := by
      intro hunk hhunk line hline
      obtain ⟨diffLine, hmem, hside⟩ := List.mem_flatMap.mp hline
      have hending := hterminated hunk hhunk diffLine hmem
      cases diffLine with
      | context text => exact List.mem_singleton.mp hside ▸ hending
      | delete text => exact List.mem_singleton.mp hside ▸ hending
      | insert text => exact absurd hside List.not_mem_nil
    exact ⟨_, placed_applied (diff.readHunks hheaders hlines)
      ((diff.placed_iff hlines _).mpr ⟨hold, rfl⟩), (diff.output_iff hlines hterminated).mpr hrepeat⟩

/-! ## Diffs that are misapplied -/

def lineOf (content : String) (ending : LineEnd) (plain : Plain (Utf16.text content)) : TextLine :=
  ⟨Utf16.text content, ending, plain⟩

def fileHeaders : List FileHeader :=
  [⟨Utf16.text "--- a/file", by unfold Plain; decide, by decide⟩,
    ⟨Utf16.text "+++ b/file", by unfold Plain; decide, by decide⟩]

theorem endsLast_terminated {lines : List TextLine}
    (h : ∀ line ∈ lines, line.ending ≠ .missing) : EndsLast lines := by
  intro before line after hsplit hmissing
  refine absurd hmissing (h line ?_)
  rw [hsplit]
  exact List.mem_append_right _ List.mem_cons_self

def lineA : TextLine := lineOf "a" .lf (by unfold Plain; decide)

def lineB : TextLine := lineOf "b" .lf (by unfold Plain; decide)

/-- A diff of `a` to `b`. -/
def replaceDiff : Diff where
  preamble := fileHeaders
  hunks := [⟨[], [], fun _ h => absurd h List.not_mem_nil, [.delete lineA, .insert lineB]⟩]
  rest := []
  old_ends := endsLast_terminated (by decide)
  new_ends := endsLast_terminated (by decide)
  filled := by decide
  apart := by decide

theorem diff_applied_replaced : ∃ result,
    applyUnifiedDiff (textOf replaceDiff.old) replaceDiff.text = .ok result ∧
      result.content = textOf replaceDiff.new := by
  apply (diff_applied replaceDiff ⟨by decide +kernel, by unfold NoSeparator; decide⟩).mpr
  refine ⟨⟨by unfold NoSeparator; decide, by unfold NoSeparator; decide⟩,
    by unfold Diff.HunksTerminated; decide, ?_⟩
  intro hunk hhunk
  rw [List.mem_singleton.mp hhunk]
  exact fun _ _ hbefore => nomatch hbefore

/-- A diff without context of `a` to `a` and `b`. -/
def insertDiff : Diff where
  preamble := fileHeaders
  hunks := [⟨[lineA], [], fun _ h => absurd h List.not_mem_nil, [.insert lineB]⟩]
  rest := []
  old_ends := endsLast_terminated (by decide)
  new_ends := endsLast_terminated (by decide)
  filled := by decide
  apart := by decide

theorem endsLast_singleton {line : TextLine} (h : line.content ≠ []) : EndsLast [line] := by
  intro before other after hsplit _
  cases before with
  | nil =>
    cases hsplit
    exact ⟨rfl, h⟩
  | cons first others => exact absurd hsplit (by simp)

def openLine (content : String) (plain : Plain (Utf16.text content)) : TextLine :=
  lineOf content .missing plain

/-- A diff of `a` to `b`, both without a final newline. -/
def openDiff : Diff where
  preamble := fileHeaders
  hunks := [⟨[], [], fun _ h => absurd h List.not_mem_nil,
    [.delete (openLine "a" (by unfold Plain; decide)),
      .insert (openLine "b" (by unfold Plain; decide))]⟩]
  rest := []
  old_ends := endsLast_singleton (by decide +kernel)
  new_ends := endsLast_singleton (by decide +kernel)
  filled := by decide
  apart := by decide

/-- A line that is inserted without context comes before the line that it should follow, and a diff
of texts without a final newline is not accepted. -/
theorem insertion_misplaced :
    (insertDiff.text = Utf16.text "--- a/file\n+++ b/file\n@@ -1,0 +2 @@\n+b\n" ∧
      textOf insertDiff.old = Utf16.text "a\n" ∧ textOf insertDiff.new = Utf16.text "a\nb\n" ∧
      applyUnifiedDiff (textOf insertDiff.old) insertDiff.text =
        .ok ⟨Utf16.text "b\na\n", true⟩) ∧
    (openDiff.text = Utf16.text "--- a/file\n+++ b/file\n@@ -1 +1 @@\n-a\n" ++
        Utf16.text "\\ No newline at end of file\n+b\n\\ No newline at end of file\n" ∧
      applyUnifiedDiff (textOf openDiff.old) openDiff.text = .error .contextMismatch) ∧
    ¬ ∀ diff : Diff, ∃ result, applyUnifiedDiff (textOf diff.old) diff.text = .ok result ∧
      result.content = textOf diff.new := by
  have hinsert : applyUnifiedDiff (textOf insertDiff.old) insertDiff.text =
      .ok ⟨Utf16.text "b\na\n", true⟩ := by decide +kernel
  refine ⟨⟨by decide +kernel, by decide +kernel, by decide +kernel, hinsert⟩,
    ⟨by decide +kernel, by decide +kernel⟩, ?_⟩
  intro hall
  obtain ⟨result, happlied, hresult⟩ := hall insertDiff
  rw [hinsert] at happlied
  obtain rfl := Except.ok.inj happlied
  exact absurd hresult (by decide +kernel)

end HarnessControl.LocalActions
