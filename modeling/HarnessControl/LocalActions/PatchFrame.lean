import HarnessControl.LocalActions.FileLines

/-!
# What a patch leaves of a file

The lines of a file that no hunk deletes are decoded and encoded again.  They stay as they are exactly
if they are UTF-8 and have no separator.
-/

namespace HarnessControl.LocalActions

open HarnessControl.Library

variable {α β : Type}

/-! ## The pieces of a placement -/

namespace Piece

def map (f : α → β) : Piece α → Piece β
  | .kept line => .kept (f line)
  | .added body => .added body

def units : Piece Line → Line
  | .kept line => line
  | .added body => body

def keptLine : Piece α → Option α
  | .kept line => some line
  | .added _ => none

def addedBody : Piece α → Option Line
  | .kept _ => none
  | .added body => some body

end Piece

def HunkLine.inserted : HunkLine → List Line
  | .insert body => [body]
  | .context _ | .delete _ | .note => []

theorem hunkPieces_units (lines : List HunkLine) (rest : List Line) :
    (hunkPieces lines (lines.flatMap HunkLine.old ++ rest)).map Piece.units =
      lines.flatMap HunkLine.new := by
  induction lines with
  | nil => rfl
  | cons line others ih =>
    rw [List.flatMap_cons, List.flatMap_cons, List.append_assoc, ← ih]
    cases line with
    | context body => rfl
    | delete body => rfl
    | insert body => rfl
    | note => rfl

theorem pieces_units {index : Nat} {original output : List Line} {hunks : List Hunk}
    (h : Placed index original hunks output) :
    (pieces index original hunks).map Piece.units = output := by
  induction h with
  | done index original =>
    show (original.map Piece.kept).map Piece.units = original
    rw [List.map_map]
    exact List.map_id original
  | @hunk index gap rest output hunk others hlength hlater ih =>
    unfold pieces
    dsimp only
    rw [← hlength, List.take_left, List.drop_left, ← List.drop_drop, List.drop_left,
      List.drop_left, List.map_append, List.map_append, ih, List.map_map]
    have hblock : (hunkPieces hunk.lines (hunk.old ++ rest)).map Piece.units = hunk.new :=
      hunkPieces_units hunk.lines rest
    rw [hblock]
    congr 1
    exact List.map_id gap

theorem hunkPieces_map (f : α → β) (hunkLines : List HunkLine) (lines : List α) :
    hunkPieces hunkLines (lines.map f) = (hunkPieces hunkLines lines).map (Piece.map f) := by
  fun_induction hunkPieces hunkLines lines with
  | case1 => rfl
  | case2 body rest lines ih => exact congrArg (Piece.added _ :: ·) ih
  | case3 rest lines ih => exact ih
  | case4 body rest line lines ih => exact congrArg (Piece.kept _ :: ·) ih
  | case5 body rest line lines ih => exact ih
  | case6 body rest ih => exact ih
  | case7 body rest ih => exact ih

theorem pieces_map (f : α → β) (index : Nat) (lines : List α) (hunks : List Hunk) :
    pieces index (lines.map f) hunks = (pieces index lines hunks).map (Piece.map f) := by
  induction hunks generalizing index lines with
  | nil =>
    show (lines.map f).map Piece.kept = (lines.map Piece.kept).map (Piece.map f)
    rw [List.map_map, List.map_map]
    rfl
  | cons hunk others ih =>
    unfold pieces
    dsimp only
    rw [← List.map_take, ← List.map_drop, ← List.map_drop, ih, hunkPieces_map, List.map_append,
      List.map_append, List.map_map, List.map_map]
    rfl

theorem Placed.append {index : Nat} {original output : List Line} {hunks : List Hunk}
    (h : Placed index original hunks output) (extra : List Line) :
    Placed index (original ++ extra) hunks (output ++ extra) := by
  induction h with
  | done index original => exact .done index _
  | hunk hlength hlater ih =>
    simp only [List.append_assoc]
    exact .hunk hlength ih

theorem hunkPieces_kept (hunkLines : List HunkLine) (lines : List α) :
    ((hunkPieces hunkLines lines).filterMap Piece.keptLine).Sublist
      (lines.take (hunkLines.flatMap HunkLine.old).length) := by
  fun_induction hunkPieces hunkLines lines with
  | case1 => exact List.nil_sublist _
  | case2 body rest lines ih => exact ih
  | case3 rest lines ih => exact ih
  | case4 body rest line lines ih =>
    rw [List.flatMap_cons, List.length_append, Nat.add_comm]
    exact ih.cons_cons line
  | case5 body rest line lines ih =>
    rw [List.flatMap_cons, List.length_append, Nat.add_comm]
    exact ih.cons line
  | case6 body rest ih => exact ih.trans (List.take_sublist _ _)
  | case7 body rest ih => exact ih.trans (List.take_sublist _ _)

theorem pieces_kept (index : Nat) (lines : List α) (hunks : List Hunk) :
    ((pieces index lines hunks).filterMap Piece.keptLine).Sublist lines := by
  have hgap : ∀ gap : List α, (gap.map Piece.kept).filterMap Piece.keptLine = gap := by
    intro gap
    rw [List.filterMap_map]
    exact List.filterMap_some
  induction hunks generalizing index lines with
  | nil =>
    show ((lines.map Piece.kept).filterMap Piece.keptLine).Sublist lines
    rw [hgap]
  | cons hunk others ih =>
    unfold pieces
    dsimp only
    rw [List.filterMap_append, List.filterMap_append, hgap]
    have hlater := ih (index + ((hunk.oldStart - 1) - index) + hunk.old.length)
      (lines.drop (((hunk.oldStart - 1) - index) + hunk.old.length))
    generalize (hunk.oldStart - 1) - index = gap at hlater ⊢
    have hblock := hunkPieces_kept hunk.lines (lines.drop gap)
    have hsplit : lines = lines.take gap ++ ((lines.drop gap).take hunk.old.length ++
        lines.drop (gap + hunk.old.length)) := by
      rw [← List.drop_drop, List.take_append_drop, List.take_append_drop]
    conv_rhs => rw [hsplit]
    exact (List.Sublist.refl _).append (hblock.append hlater)

theorem hunkPieces_added (hunkLines : List HunkLine) (lines : List α) :
    (hunkPieces hunkLines lines).filterMap Piece.addedBody =
      hunkLines.flatMap HunkLine.inserted := by
  fun_induction hunkPieces hunkLines lines with
  | case1 => rfl
  | case2 body rest lines ih => exact congrArg (body :: ·) ih
  | case3 rest lines ih => exact ih
  | case4 body rest line lines ih => exact ih
  | case5 body rest line lines ih => exact ih
  | case6 body rest ih => exact ih
  | case7 body rest ih => exact ih

theorem pieces_added (index : Nat) (lines : List α) (hunks : List Hunk) :
    (pieces index lines hunks).filterMap Piece.addedBody =
      hunks.flatMap fun hunk => hunk.lines.flatMap HunkLine.inserted := by
  have hgap : ∀ gap : List α, (gap.map Piece.kept).filterMap Piece.addedBody = [] := by
    intro gap
    rw [List.filterMap_map, List.filterMap_eq_nil_iff]
    exact fun _ _ => rfl
  induction hunks generalizing index lines with
  | nil => exact hgap lines
  | cons hunk others ih =>
    unfold pieces
    dsimp only
    rw [List.filterMap_append, List.filterMap_append, hgap, hunkPieces_added, ih]
    rfl

theorem hunkPieces_unchanged {hunkLines : List HunkLine}
    (h : hunkLines.any HunkLine.changes = false) (lines : List α) :
    hunkPieces hunkLines lines =
      (lines.take (hunkLines.flatMap HunkLine.old).length).map Piece.kept := by
  fun_induction hunkPieces hunkLines lines with
  | case1 => rfl
  | case2 body rest lines ih => cases h
  | case3 rest lines ih => exact ih h
  | case4 body rest line lines ih =>
    rw [List.flatMap_cons, List.length_append, Nat.add_comm]
    exact congrArg (Piece.kept line :: ·) (ih h)
  | case5 body rest line lines ih => cases h
  | case6 body rest ih =>
    rw [ih h, List.take_nil, List.take_nil]
  | case7 body rest ih => cases h

theorem pieces_unchanged {hunks : List Hunk} (h : hunks.any Hunk.changes = false) (index : Nat)
    (lines : List α) : pieces index lines hunks = lines.map Piece.kept := by
  induction hunks generalizing index lines with
  | nil => rfl
  | cons hunk others ih =>
    rw [List.any_cons, Bool.or_eq_false_iff] at h
    unfold pieces
    dsimp only
    rw [ih h.2, hunkPieces_unchanged h.1, ← List.map_append, ← List.map_append]
    congr 1
    show _ ++ ((lines.drop _).take hunk.old.length ++ _) = lines
    rw [← List.drop_drop, List.take_append_drop, List.take_append_drop]

/-! ## What is written for the pieces -/

namespace Piece

def text : Piece Bytes → Line
  | .kept line => codeLine line
  | .added body => body

/-- The bytes of the new file. -/
def output : Piece Bytes → Bytes
  | .kept line => written line
  | .added body => Utf16.toUtf8 body

end Piece

theorem splitLinesFrom_closed (line content : List UInt16) :
    (splitLinesFrom line content).Pairwise fun part _ => Utf16.endsHigh part = false := by
  have hend : ∀ (part : List UInt16) (unit : UInt16), Utf16.isHigh unit = false →
      Utf16.endsHigh (part ++ [unit]) = false := by
    intro part unit hunit
    unfold Utf16.endsHigh
    rw [List.getLast?_concat]
    exact hunit
  fun_induction splitLinesFrom line content with
  | case1 => exact .nil
  | case2 line hline => exact List.pairwise_singleton _ _
  | case3 line rest ih => exact .cons (fun _ _ => hend line lineFeed (by decide)) ih
  | case4 line _ => exact List.pairwise_singleton _ _
  | case5 line _ others ih =>
    refine .cons (fun _ _ => ?_) ih
    rw [show line ++ [carriageReturn, lineFeed] = (line ++ [carriageReturn]) ++ [lineFeed] by simp]
    exact hend _ lineFeed (by decide)
  | case6 line next others hnext _ ih =>
    exact .cons (fun _ _ => hend line carriageReturn (by decide)) ih
  | case7 line unit rest _ _ _ ih => exact ih
  | case8 line unit rest _ _ _ ih => exact ih

theorem sideOf_inserted_mem {line body : Line} (h : body ∈ sideOf HunkLine.inserted line) :
    body = line.tail := by
  unfold sideOf readHunkLine at h
  split at h
  · exact absurd h List.not_mem_nil
  repeat' split at h
  all_goals first
    | exact List.mem_singleton.mp h
    | exact absurd h List.not_mem_nil

theorem sideOf_inserted_once (line : Line) (r : Line → Line → Prop) :
    (sideOf HunkLine.inserted line).Pairwise r := by
  unfold sideOf readHunkLine
  split
  · exact .nil
  repeat' split
  all_goals first
    | exact .nil
    | exact List.pairwise_singleton _ _

theorem added_closed {patchContent : List UInt16} {hunks : List Hunk}
    (hread : readHunks (splitLinesPreservingEndings patchContent) = some hunks) (index : Nat)
    (lines : List Bytes) :
    ((pieces index lines hunks).filterMap Piece.addedBody).Pairwise
      fun body _ => Utf16.endsHigh body = false := by
  have hsides := (readHunkLines_sides (readHunks_eq.mp hread)).2 HunkLine.inserted
  change hunks.flatMap _ = _ at hsides
  rw [pieces_added, hsides, List.pairwise_flatMap]
  refine ⟨fun line _ => sideOf_inserted_once line _, ?_⟩
  have hclosed := (splitLinesFrom_closed [] patchContent).sublist
    (List.dropWhile_sublist fun line => !startsWith "@@" line)
  refine hclosed.imp fun {line _} hline body hbody _ _ => ?_
  rw [sideOf_inserted_mem hbody]
  cases line with
  | nil => exact hline
  | cons mark body =>
    cases body with
    | nil => rfl
    | cons unit others =>
      unfold Utf16.endsHigh at hline ⊢
      rwa [List.getLast?_cons_of_ne_nil (List.cons_ne_nil _ _)] at hline

theorem toUtf8_pieces {pieces : List (Piece Bytes)}
    (h : (pieces.filterMap Piece.addedBody).Pairwise fun body _ => Utf16.endsHigh body = false) :
    Utf16.toUtf8 (pieces.flatMap Piece.text) = pieces.flatMap Piece.output := by
  have hkept : ∀ pieces : List (Piece Bytes), pieces.filterMap Piece.addedBody = [] →
      Utf16.startsLow (pieces.flatMap Piece.text) = false := by
    intro pieces hnone
    induction pieces with
    | nil => rfl
    | cons piece others ih =>
      cases piece with
      | added body => cases hnone
      | kept line =>
        show Utf16.startsLow (codeLine line ++ others.flatMap Piece.text) = false
        have hline : Utf16.startsLow (codeLine line) = false := by
          rw [codeLine_units]
          exact (Utf16.units_closed _).2
        unfold Utf16.startsLow at hline ih ⊢
        rw [List.head?_append]
        cases hhead : (codeLine line).head? with
        | none => exact ih hnone
        | some unit =>
          rw [hhead] at hline
          exact hline
  induction pieces with
  | nil => rfl
  | cons piece others ih =>
    rw [List.flatMap_cons, List.flatMap_cons]
    cases piece with
    | kept line =>
      have hline : Utf16.endsHigh (codeLine line) = false := by
        rw [codeLine_units]
        exact (Utf16.units_closed _).1
      show Utf16.toUtf8 (codeLine line ++ _) = written line ++ _
      rw [Utf16.toUtf8_append (Or.inl hline), toUtf8_codeLine, ih h]
    | added body =>
      show Utf16.toUtf8 (body ++ _) = Utf16.toUtf8 body ++ _
      obtain ⟨hbody, hothers⟩ := List.pairwise_cons.mp h
      have hboundary : Utf16.endsHigh body = false ∨
          Utf16.startsLow (others.flatMap Piece.text) = false := by
        cases hnext : others.filterMap Piece.addedBody with
        | nil => exact Or.inr (hkept others hnext)
        | cons next later => exact Or.inl (hbody next (by rw [hnext]; exact List.mem_cons_self))
      rw [Utf16.toUtf8_append hboundary, ih hothers]

/-! ## The frame -/

theorem kept_valid {pieces : List (Piece Bytes)}
    (hbetween : (pieces.filterMap Piece.keptLine).Pairwise fun line _ => Utf8.after [] line = [])
    (hvalid : Utf8.valid (pieces.flatMap Piece.bytes) = true) :
    ∀ line ∈ pieces.filterMap Piece.keptLine, Utf8.valid line = true := by
  induction pieces with
  | nil => exact fun _ h => absurd h List.not_mem_nil
  | cons piece others ih =>
    rw [List.flatMap_cons] at hvalid
    cases piece with
    | added body =>
      have hbody : Utf8.valid (Utf16.toUtf8 body) = true := Utf8.valid_encode _
      rw [show Piece.bytes (.added body) = Utf16.toUtf8 body from rfl,
        Utf8.valid_append (Utf8.after_valid hbody), Bool.and_eq_true] at hvalid
      exact ih hbetween hvalid.2
    | kept line =>
      obtain ⟨hline, hothers⟩ := List.pairwise_cons.mp hbetween
      change Utf8.valid (line ++ _) = true at hvalid
      have hnone : others.filterMap Piece.keptLine = [] →
          ∃ text, others.flatMap Piece.bytes = Utf8.encode text := by
        intro hnone
        clear hvalid hbetween hline hothers ih
        induction others with
        | nil => exact ⟨[], rfl⟩
        | cons piece others ih =>
          cases piece with
          | kept line => cases hnone
          | added body =>
            obtain ⟨text, htext⟩ := ih hnone
            refine ⟨Utf16.characters body ++ text, ?_⟩
            rw [Utf8.encode_append, ← htext]
            rfl
      show ∀ other ∈ line :: others.filterMap Piece.keptLine, _
      rw [List.forall_mem_cons]
      cases hnext : others.filterMap Piece.keptLine with
      | nil =>
        -- only encoded text follows
        obtain ⟨text, htext⟩ := hnone hnext
        refine ⟨?_, fun _ h => absurd h List.not_mem_nil⟩
        apply Utf8.valid_of_append _ .start hvalid
        intro byte rest hcons seen _ _
        exact Utf8.encode_start (htext.symm.trans hcons) seen
      | cons next later =>
        have hafter := hline next (by rw [hnext]; exact List.mem_cons_self)
        rw [Utf8.valid_append hafter, Bool.and_eq_true] at hvalid
        rw [← hnext]
        exact ⟨hvalid.1, ih hothers hvalid.2⟩

theorem suffix_flatMap {f g : α → Bytes} {list : List α} (hsuffix : ∀ x ∈ list, f x <:+ g x)
    (h : list.flatMap f = list.flatMap g) : ∀ x ∈ list, f x = g x := by
  have hle : ∀ list : List α, (∀ x ∈ list, f x <:+ g x) →
      (list.flatMap f).length ≤ (list.flatMap g).length := by
    intro list hsuffix
    induction list with
    | nil => exact Nat.le_refl 0
    | cons x others ih =>
      have hx := (hsuffix x List.mem_cons_self).length_le
      have hothers := ih fun y hy => hsuffix y (List.mem_cons_of_mem x hy)
      rw [List.flatMap_cons, List.flatMap_cons, List.length_append, List.length_append]
      omega
  induction list with
  | nil => exact fun _ h => absurd h List.not_mem_nil
  | cons x others ih =>
    have hfirst := hsuffix x List.mem_cons_self
    have hrest := fun y hy => hsuffix y (List.mem_cons_of_mem x hy)
    rw [List.flatMap_cons, List.flatMap_cons] at h
    have hlength := congrArg List.length h
    rw [List.length_append, List.length_append] at hlength
    have hx := hfirst.length_le
    have hothers := hle others hrest
    obtain ⟨heq, hlater⟩ := List.append_inj h (by omega)
    exact List.forall_mem_cons.mpr ⟨heq, ih hrest hlater⟩

theorem mem_kept {pieces : List (Piece α)} {line : α} :
    line ∈ pieces.filterMap Piece.keptLine ↔ Piece.kept line ∈ pieces := by
  rw [List.mem_filterMap]
  constructor
  · rintro ⟨piece, hpiece, hline⟩
    cases piece with
    | kept other => exact Option.some.inj hline ▸ hpiece
    | added body => cases hline
  · intro h
    exact ⟨_, h, rfl⟩

theorem output_iff {pieces : List (Piece Bytes)}
    (hadded : (pieces.filterMap Piece.addedBody).Pairwise
      fun body _ => Utf16.endsHigh body = false)
    (hkept : (pieces.filterMap Piece.keptLine).Pairwise fun line _ => Utf8.after [] line = []) :
    Utf16.toUtf8 (pieces.flatMap Piece.text) = pieces.flatMap Piece.bytes ↔
      ∀ line, Piece.kept line ∈ pieces → FaithfulLine line := by
  rw [toUtf8_pieces hadded]
  constructor
  · intro h line hline
    have hvalid : Utf8.valid (pieces.flatMap Piece.bytes) = true := by
      rw [← h, ← toUtf8_pieces hadded]
      exact Utf8.valid_encode _
    have hlines := kept_valid hkept hvalid
    have hsuffix : ∀ piece ∈ pieces, piece.output <:+ piece.bytes := by
      intro piece hpiece
      cases piece with
      | kept line => exact written_suffix (hlines line (mem_kept.mpr hpiece))
      | added body => exact List.suffix_refl _
    exact written_eq.mp (suffix_flatMap hsuffix h _ hline)
  · intro h
    apply List.flatMap_congr
    intro piece hpiece
    cases piece with
    | kept line => exact written_eq.mpr (h line hpiece)
    | added body => rfl

theorem applied_pieces {existing : Bytes} {patchContent : List UInt16} {result : TextPatchResult}
    {hunks : List Hunk} (happlied : applyUnifiedDiff (Utf16.ofUtf8 existing) patchContent = .ok result)
    (hread : readHunks (splitLinesPreservingEndings patchContent) = some hunks) :
    result.content = (pieces 0 (byteLines existing) hunks).flatMap Piece.text ∧
      result.changed = hunks.any Hunk.changes := by
  obtain ⟨others, output, hothers, hplaced, rfl⟩ := applied_placed happlied
  rw [hread] at hothers
  obtain rfl := Option.some.inj hothers
  obtain ⟨extra, hlines, hextra⟩ := (byteLines_text existing).splitLines
  have hunits := pieces_units (hplaced.append extra)
  rw [← hlines, pieces_map, List.map_map] at hunits
  refine ⟨?_, rfl⟩
  show output.flatten = _
  have hflatten := congrArg List.flatten hunits
  rw [List.flatten_append, hextra, List.append_nil, ← List.flatMap_def] at hflatten
  rw [← hflatten]
  apply List.flatMap_congr
  intro piece _
  cases piece with
  | kept line => rfl
  | added body => rfl

variable (sha256 : Bytes → String)

/-- The file that an accepted patch leaves has every line that no hunk deletes as it was, and the added
lines between them, exactly if the patch changes nothing or these lines are UTF-8 without separators. -/
theorem patch_frame {readOnly : Bool} {existing : Option Bytes} {options : FilesystemPatchOptions}
    {outcome : PatchedFile} {hunks : List Hunk}
    (hpatched : patchFile sha256 readOnly existing options = .ok outcome)
    (hread : readHunks (splitLinesPreservingEndings options.patchContent) = some hunks) :
    outcome.file.getD [] =
        (pieces 0 (byteLines (existing.getD [])) hunks).flatMap Piece.bytes ↔
      hunks.any Hunk.changes = false ∨
        ∀ line, Piece.kept line ∈ pieces 0 (byteLines (existing.getD [])) hunks →
          FaithfulLine line := by
  unfold patchFile at hpatched
  split at hpatched
  · cases hpatched
  obtain ⟨existingBytes, hexisting, hpatched⟩ := bind_ok.mp hpatched
  obtain ⟨-, -, hpatched⟩ := bind_ok.mp hpatched
  have hbytes : existing.getD [] = existingBytes := by
    unfold readExistingFileForPatch at hexisting
    cases existing with
    | some bytes => exact Except.ok.inj hexisting
    | none =>
      dsimp only at hexisting
      split at hexisting
      · exact Except.ok.inj hexisting
      · cases hexisting
  cases happlied : applyUnifiedDiff (Utf16.ofUtf8 existingBytes) options.patchContent with
  | error failure =>
    rw [happlied] at hpatched
    cases hpatched
  | ok result =>
    rw [happlied] at hpatched
    obtain rfl := Except.ok.inj hpatched
    obtain ⟨hcontent, hchanged⟩ := applied_pieces happlied hread
    rw [hbytes]
    dsimp only
    by_cases hchange : hunks.any Hunk.changes = true
    · -- the file is written
      have hbetween := (byteLines_text existingBytes).between.sublist
        (pieces_kept 0 (byteLines existingBytes) hunks)
      rw [hchanged, hchange, if_pos rfl]
      show Utf16.toUtf8 result.content = _ ↔ _
      rw [hcontent, output_iff (added_closed hread 0 _) hbetween]
      constructor
      · exact Or.inr
      · intro h
        exact h.resolve_left (by decide)
    · rw [Bool.not_eq_true] at hchange
      rw [hchanged, hchange, if_neg Bool.false_ne_true, hbytes, pieces_unchanged hchange]
      constructor
      · exact fun _ => Or.inl rfl
      · intro _
        rw [List.flatMap_map]
        show existingBytes = (byteLines existingBytes).flatMap id
        rw [List.flatMap_id, (byteLines_text existingBytes).flatten]

def secondLinePatch : List UInt16 := Utf16.text "@@ -2 +2 @@\n-a\n+c\n"

def digest (bytes : Bytes) : String :=
  if bytes = [98, 10, 97, 10] then
    "aea8a04c2f293417e499bf5de2def8ebb1ed40264d128a67180ea56fbe4600ff"
  else if bytes = [98, 10, 99, 10] then
    "bb9ead4c391dab4c05bd498dafac47a54f8b212625f2124a911202cc6ea61d27"
  else if bytes = [98, 255, 10, 97, 10] then
    "1f460fadac7b1f01c2267581d0187299a1a548de6461642b0d8dfab09a3e7170"
  else if bytes = [98, 239, 191, 189, 10, 99, 10] then
    "6844ca06bc36fc0cc14e00cdd4f8657af388ee096d4d72fb8b103954c5215289"
  else if bytes = [120, 226, 128, 168, 121, 10, 97, 10] then
    "da4d474bc9f874c36e64e37e711be008abd6a654854e713aa1c9b3bc90ce8a89"
  else if bytes = [121, 10, 99, 10] then
    "ef814c5c3ece4314f77f34905bfca0d372d4d0bb0d0e29e0dc664bcc4491745e"
  else ""

def patchOf (bytes : Bytes) : FilesystemPatchOptions :=
  ⟨sha256Hash digest bytes, secondLinePatch, false⟩

def secondLineHunk : Hunk := ⟨2, [.delete (Utf16.text "a\n"), .insert (Utf16.text "c\n")]⟩

theorem secondLineHunk_read :
    readHunks (splitLinesPreservingEndings secondLinePatch) = some [secondLineHunk] := by
  decide +kernel

theorem patch_frame_ascii : (some ([98, 10, 99, 10] : Bytes)).getD [] =
    (pieces 0 (byteLines ((some [98, 10, 97, 10]).getD [])) [secondLineHunk]).flatMap Piece.bytes := by
  refine (@patch_frame digest false (some [98, 10, 97, 10]) (patchOf [98, 10, 97, 10])
    ⟨some [98, 10, 99, 10], true, sha256Hash digest [98, 10, 99, 10]⟩ [secondLineHunk] (by decide +kernel)
    secondLineHunk_read).mpr (Or.inr ?_)
  intro line hline
  have hpieces : pieces 0 (byteLines ((some [98, 10, 97, 10]).getD [])) [secondLineHunk] =
      [.kept [98, 10], .added (Utf16.text "c\n")] := by decide +kernel
  rw [hpieces] at hline
  simp only [List.mem_cons, Piece.kept.injEq, reduceCtorEq, List.not_mem_nil, or_false] at hline
  rw [hline]
  unfold FaithfulLine
  decide +kernel

/-- A line before the one that is patched loses a byte that is no UTF-8, or what stands before a
separator. -/
theorem kept_line_rewritten :
    (patchFile digest false (some [98, 255, 10, 97, 10]) (patchOf [98, 255, 10, 97, 10]) =
        .ok ⟨some [98, 239, 191, 189, 10, 99, 10], true, sha256Hash digest [98, 239, 191, 189, 10, 99, 10]⟩ ∧
      (pieces 0 (byteLines [98, 255, 10, 97, 10]) [secondLineHunk]).flatMap Piece.bytes =
        [98, 255, 10, 99, 10]) ∧
    (patchFile digest false (some [120, 226, 128, 168, 121, 10, 97, 10]) (patchOf [120, 226, 128, 168, 121, 10, 97, 10]) =
        .ok ⟨some [121, 10, 99, 10], true, sha256Hash digest [121, 10, 99, 10]⟩ ∧
      (pieces 0 (byteLines [120, 226, 128, 168, 121, 10, 97, 10]) [secondLineHunk]).flatMap Piece.bytes =
        [120, 226, 128, 168, 121, 10, 99, 10]) ∧
    ¬ ∀ (existing : Option Bytes) (options : FilesystemPatchOptions) (outcome : PatchedFile)
      (hunks : List Hunk), patchFile digest false existing options = .ok outcome →
        readHunks (splitLinesPreservingEndings options.patchContent) = some hunks →
        outcome.file.getD [] =
          (pieces 0 (byteLines (existing.getD [])) hunks).flatMap Piece.bytes := by
  have hpatched : patchFile digest false (some [98, 255, 10, 97, 10]) (patchOf [98, 255, 10, 97, 10]) =
      .ok ⟨some [98, 239, 191, 189, 10, 99, 10], true, sha256Hash digest [98, 239, 191, 189, 10, 99, 10]⟩ := by decide +kernel
  refine ⟨⟨hpatched, by decide +kernel⟩, ⟨by decide +kernel, by decide +kernel⟩, ?_⟩
  intro hall
  exact absurd (hall _ _ _ _ hpatched secondLineHunk_read) (by decide +kernel)

end HarnessControl.LocalActions
