import HarnessControl.LocalActions.PrintedDiffs

/-!
# Splitting a text into lines

The lines are the matches of a regular expression whose `.` excludes more units than its line ends
are made of.  Every line but the last always has one line end; nothing is lost exactly where the text
has no line separator and no paragraph separator.
-/

namespace HarnessControl.LocalActions

/-! ## The search for matches -/

/-- What `.` does not match. -/
def isTerminator (unit : UInt16) : Bool :=
  unit == lineFeed || unit == carriageReturn || isSeparator unit

/-- `(?:\r\n|\n|\r|$)`; without the flag `m` a `$` stands only for the end of the text. -/
def lineEndAt : List UInt16 → Option Line
  | [] => some []
  | unit :: rest =>
    if unit = carriageReturn ∧ rest.head? = some lineFeed then some [carriageReturn, lineFeed]
    else if unit = lineFeed then some [lineFeed]
    else if unit = carriageReturn then some [carriageReturn]
    else none

/-- `.*` gives back one unit after the other until a line end follows. -/
def matchGivingBack (text : List UInt16) : Nat → Option Line
  | 0 => lineEndAt text
  | taken + 1 =>
    match lineEndAt (text.drop (taken + 1)) with
    | some ending => some (text.take (taken + 1) ++ ending)
    | none => matchGivingBack text taken

/-- `/.*(?:\r\n|\n|\r|$)/` at the front of a text: `.*` first takes all that it can. -/
def matchAt (text : List UInt16) : Option Line :=
  matchGivingBack text (text.takeWhile fun unit => !isTerminator unit).length

/-- The matches from one place on: the search goes on after a match, and one unit later where there
is none or an empty one.  There are no more searches than places. -/
def matchesFrom : Nat → List UInt16 → List Line
  | 0, _ => []
  | searches + 1, text =>
    match matchAt text with
    | some [] => [] :: (match text with
      | [] => []
      | _ :: rest => matchesFrom searches rest)
    | some line => line :: matchesFrom searches (text.drop line.length)
    | none =>
      match text with
      | [] => []
      | _ :: rest => matchesFrom searches rest

/-- `splitLinesPreservingEndings`, with `content.match` spelt out. -/
def splitLinesByMatches (content : List UInt16) : List Line :=
  if content = [] then []
  else
    match matchesFrom (content.length + 1) content with
    | [] => [content]
    | lines => lines.filter (· ≠ [])

/-! ## The matches are the lines -/

/-- Units that `.` matches. -/
def Dotted (line : Line) : Prop := ∀ unit ∈ line, isTerminator unit = false

theorem dotted_nil : Dotted [] := fun _ h => absurd h List.not_mem_nil

theorem Dotted.of_cons {unit : UInt16} {line : Line} (h : Dotted (unit :: line)) : Dotted line :=
  fun other hother => h other (List.mem_cons_of_mem unit hother)

theorem lineEndAt_none {unit : UInt16} (hfeed : unit ≠ lineFeed) (hreturn : unit ≠ carriageReturn)
    (rest : List UInt16) : lineEndAt (unit :: rest) = none := by
  show (if unit = carriageReturn ∧ rest.head? = some lineFeed then _ else _) = none
  rw [if_neg fun h => hreturn h.1, if_neg hfeed, if_neg hreturn]

theorem matchGivingBack_none {line rest : List UInt16} (hline : Dotted line)
    (hrest : lineEndAt rest = none) {taken : Nat} (htaken : taken ≤ line.length) :
    matchGivingBack (line ++ rest) taken = none := by
  have hnone : ∀ count ≤ line.length, lineEndAt ((line ++ rest).drop count) = none := by
    intro count hcount
    rw [List.drop_append_of_le_length hcount]
    cases hdrop : line.drop count with
    | nil => exact hrest
    | cons unit later =>
      have hunit : unit ∈ line := List.drop_subset count line (hdrop ▸ List.mem_cons_self)
      have hdot := hline unit hunit
      unfold isTerminator at hdot
      rw [Bool.or_eq_false_iff, Bool.or_eq_false_iff, beq_eq_false_iff_ne, beq_eq_false_iff_ne]
        at hdot
      exact lineEndAt_none hdot.1.1 hdot.1.2 (later ++ rest)
  induction taken with
  | zero => exact hnone 0 (Nat.zero_le _)
  | succ taken ih =>
    unfold matchGivingBack
    rw [hnone (taken + 1) htaken]
    exact ih (by omega)

theorem matchAt_line {line rest : List UInt16} (hline : Dotted line)
    (hrest : ∀ unit ∈ rest.head?, isTerminator unit = true) :
    matchAt (line ++ rest) = (lineEndAt rest).map (line ++ ·) := by
  have htake : (line ++ rest).takeWhile (fun unit => !isTerminator unit) = line := by
    rw [List.takeWhile_append_of_pos fun unit hunit => by rw [hline unit hunit]; rfl]
    cases rest with
    | nil => exact List.append_nil line
    | cons unit others =>
      rw [List.takeWhile_cons_of_neg (by rw [hrest unit rfl]; decide), List.append_nil]
  unfold matchAt
  rw [htake]
  cases hend : lineEndAt rest with
  | none => exact matchGivingBack_none hline hend (Nat.le_refl _)
  | some ending =>
    cases hlength : line.length with
    | zero =>
      rw [List.length_eq_zero_iff.mp hlength]
      exact hend
    | succ count =>
      unfold matchGivingBack
      rw [← hlength, List.drop_left, hend, List.take_left]
      rfl

theorem matchesFrom_line {line ending rest : List UInt16} (hline : Dotted line)
    (hrest : ∀ unit ∈ (ending ++ rest).head?, isTerminator unit = true)
    (hend : lineEndAt (ending ++ rest) = some ending) (hne : line ++ ending ≠ []) (searches : Nat) :
    matchesFrom (searches + 1) (line ++ (ending ++ rest)) =
      (line ++ ending) :: matchesFrom searches rest := by
  have hmatch : matchAt (line ++ (ending ++ rest)) = some (line ++ ending) := by
    rw [matchAt_line hline hrest, hend]
    rfl
  have hdrop : (line ++ (ending ++ rest)).drop (line ++ ending).length = rest := by
    rw [← List.append_assoc, List.drop_left]
  conv_lhs => unfold matchesFrom
  rw [hmatch]
  cases hmatched : line ++ ending with
  | nil => exact absurd hmatched hne
  | cons first others =>
    rw [hmatched] at hdrop
    dsimp only
    rw [hdrop]

theorem matchesFrom_separator {line : List UInt16} (hline : Dotted line) {unit : UInt16}
    (hunit : isSeparator unit = true) (rest : List UInt16) (searches : Nat) :
    matchesFrom (searches + line.length + 1) (line ++ unit :: rest) =
      matchesFrom searches rest := by
  have hterminator : isTerminator unit = true := by
    unfold isTerminator
    rw [hunit, Bool.or_true]
  have hnone : ∀ later, Dotted later → matchAt (later ++ unit :: rest) = none := by
    intro later hlater
    have hhead : ∀ other ∈ (unit :: rest).head?, isTerminator other = true := by
      intro other hother
      rwa [← Option.some.inj hother]
    rw [matchAt_line hlater hhead, lineEndAt_none (fun h => absurd (h ▸ hunit) (by decide))
      (fun h => absurd (h ▸ hunit) (by decide))]
    rfl
  induction line with
  | nil =>
    conv_lhs => unfold matchesFrom
    rw [hnone [] hline]
    rfl
  | cons first later ih =>
    conv_lhs => unfold matchesFrom
    rw [hnone (first :: later) hline]
    exact ih hline.of_cons

theorem shown_line {line : List UInt16} (hline : Dotted line) (ending rest : List UInt16)
    (hrest : ∀ unit ∈ (ending ++ rest).head?, isTerminator unit = true)
    (hend : lineEndAt (ending ++ rest) = some ending) (hne : line ++ ending ≠ []) {searches : Nat}
    (hsearches : (line ++ (ending ++ rest)).length < searches) :
    ∃ left, rest.length < left ∧
      (matchesFrom searches (line ++ (ending ++ rest))).filter (· ≠ []) =
        (line ++ ending) :: (matchesFrom left rest).filter (· ≠ []) := by
  obtain ⟨left, rfl⟩ : ∃ left, searches = left + 1 := ⟨searches - 1, by omega⟩
  refine ⟨left, ?_, ?_⟩
  · have hsome := List.length_pos_iff.mpr hne
    rw [← List.append_assoc, List.length_append] at hsearches
    omega
  · rw [matchesFrom_line hline hrest hend hne]
    exact List.filter_cons_of_pos (decide_eq_true hne)

variable {line content : List UInt16}

theorem splitLinesFrom_matches (hline : Dotted line) {searches : Nat}
    (hsearches : (line ++ content).length < searches) :
    (matchesFrom searches (line ++ content)).filter (· ≠ []) = splitLinesFrom line content := by
  have hended : ∀ {ending : Line}, ending ≠ [] → ∀ {line : Line}, line ++ ending ≠ [] :=
    fun h _ => List.append_ne_nil_of_right_ne_nil _ h
  fun_induction splitLinesFrom line content generalizing searches with
  | case1 =>
    obtain ⟨left, rfl⟩ : ∃ left, searches = left + 1 := ⟨searches - 1, by omega⟩
    rfl
  | case2 line hne =>
    obtain ⟨left, hleft, hlines⟩ := shown_line hline [] []
      (fun _ h => nomatch h) rfl (by rwa [List.append_nil]) hsearches
    obtain ⟨left, rfl⟩ : ∃ more, left = more + 1 := ⟨left - 1, by omega⟩
    rw [List.append_nil line] at hlines
    exact hlines
  | case3 line rest ih =>
    obtain ⟨left, hleft, hlines⟩ := shown_line hline [lineFeed] rest
      (fun _ h => Option.some.inj h ▸ rfl) rfl (hended (by decide)) hsearches
    rw [← ih dotted_nil hleft]
    exact hlines
  | case4 line hreturn =>
    obtain ⟨left, hleft, hlines⟩ := shown_line hline [carriageReturn] []
      (fun _ h => Option.some.inj h ▸ rfl) rfl (hended (by decide)) hsearches
    obtain ⟨left, rfl⟩ : ∃ more, left = more + 1 := ⟨left - 1, by omega⟩
    exact hlines
  | case5 line others hreturn ih =>
    obtain ⟨left, hleft, hlines⟩ := shown_line hline [carriageReturn, lineFeed] others
      (fun _ h => Option.some.inj h ▸ rfl) rfl (hended (by decide))
      hsearches
    rw [← ih dotted_nil hleft]
    exact hlines
  | case6 line next others hnext hreturn ih =>
    have hend : lineEndAt (carriageReturn :: next :: others) = some [carriageReturn] := by
      show (if _ then _ else _) = _
      rw [if_neg fun h => hnext (Option.some.inj h.2), if_neg (by decide), if_pos rfl]
    obtain ⟨left, hleft, hlines⟩ := shown_line hline [carriageReturn]
      (next :: others) (fun _ h => Option.some.inj h ▸ rfl) hend
      (hended (by decide)) hsearches
    rw [← ih dotted_nil hleft]
    exact hlines
  | case7 line unit rest hfeed hreturn hseparator ih =>
    obtain ⟨left, rfl⟩ : ∃ left, searches = left + line.length + 1 := by
      rw [List.length_append, List.length_cons] at hsearches
      exact ⟨searches - line.length - 1, by omega⟩
    rw [matchesFrom_separator hline hseparator]
    apply ih dotted_nil
    rw [List.length_append, List.length_cons] at hsearches
    show rest.length < left
    omega
  | case8 line unit rest hfeed hreturn hseparator ih =>
    have hunit : isTerminator unit = false := by
      unfold isTerminator
      rw [beq_false_of_ne hfeed, beq_false_of_ne hreturn, Bool.eq_false_iff.mpr hseparator]
      rfl
    have hmore : Dotted (line ++ [unit]) := by
      intro other hother
      obtain hold | hnew := List.mem_append.mp hother
      · exact hline other hold
      · exact List.mem_singleton.mp hnew ▸ hunit
    rw [← List.append_cons] at ih
    exact ih hmore hsearches

theorem matchesFrom_ne_nil {searches : Nat} {text : List UInt16} (h : text.length < searches) :
    matchesFrom searches text ≠ [] := by
  induction searches generalizing text with
  | zero => exact absurd h (Nat.not_lt_zero _)
  | succ searches ih =>
    unfold matchesFrom
    split
    · exact List.cons_ne_nil _ _
    · exact List.cons_ne_nil _ _
    · rename_i hnone
      cases text with
      | nil => cases hnone
      | cons unit rest => exact ih (Nat.lt_of_succ_lt_succ h)

/-- The model splits a text as the source does. -/
theorem splitLines_matches (content : List UInt16) :
    splitLinesByMatches content = splitLinesPreservingEndings content := by
  have hlines : (matchesFrom (content.length + 1) content).filter (· ≠ []) =
      splitLinesFrom [] content :=
    splitLinesFrom_matches dotted_nil (Nat.lt_succ_self content.length)
  unfold splitLinesByMatches
  split
  · rename_i hempty
    rw [hempty]
    rfl
  · split
    · rename_i hnone
      exact absurd hnone (matchesFrom_ne_nil (Nat.lt_succ_self _))
    · exact hlines

/-! ## What a line is -/

/-- LF, CR and CRLF. -/
def lineEnds : List Line := [[lineFeed], [carriageReturn], [carriageReturn, lineFeed]]

def EndsOnce (line : Line) : Prop :=
  ∃ content ending, line = content ++ ending ∧ Plain content ∧ ending ∈ lineEnds

def LinesEnd (lines : List Line) : Prop := ∀ line ∈ lines.dropLast, EndsOnce line

theorem LinesEnd.cons {line : Line} {lines : List Line} (hline : EndsOnce line)
    (hlines : LinesEnd lines) : LinesEnd (line :: lines) := by
  intro other hother
  cases lines with
  | nil => exact absurd hother List.not_mem_nil
  | cons next later =>
    rw [List.dropLast_cons_of_ne_nil (List.cons_ne_nil next later)] at hother
    obtain rfl | hlater := List.mem_cons.mp hother
    · exact hline
    · exact hlines other hlater

theorem splitLinesFrom_end {line : Line} (hline : Plain line) (content : List UInt16) :
    LinesEnd (splitLinesFrom line content) := by
  have hnil : Plain [] := fun _ h => absurd h List.not_mem_nil
  fun_induction splitLinesFrom line content with
  | case1 => exact fun _ h => absurd h List.not_mem_nil
  | case2 => exact fun _ h => absurd h List.not_mem_nil
  | case3 line rest ih => exact (ih hnil).cons ⟨line, _, rfl, hline, by decide⟩
  | case4 => exact fun _ h => absurd h List.not_mem_nil
  | case5 line others hreturn ih => exact (ih hnil).cons ⟨line, _, rfl, hline, by decide⟩
  | case6 line next others hnext hreturn ih =>
    exact (ih hnil).cons ⟨line, _, rfl, hline, by decide⟩
  | case7 line unit rest hfeed hreturn hseparator ih => exact ih hnil
  | case8 line unit rest hfeed hreturn hseparator ih =>
    apply ih
    apply plain_append hline
    intro other hother
    rw [List.mem_singleton.mp hother]
    exact ⟨hfeed, hreturn⟩

/-! ## What is lost -/

theorem splitLinesFrom_noSeparator (h : NoSeparator line) :
    ∀ part ∈ splitLinesFrom line content, NoSeparator part := by
  have hnil : NoSeparator [] := fun _ h => absurd h List.not_mem_nil
  have hend : ∀ ending : List UInt16, (∀ unit ∈ ending, isSeparator unit = false) →
      ∀ line, NoSeparator line → NoSeparator (line ++ ending) :=
    fun _ hending _ hline => noSeparator_append hline hending
  fun_induction splitLinesFrom line content with
  | case1 => exact fun _ hpart => absurd hpart List.not_mem_nil
  | case2 line hline => exact fun part hpart => List.mem_singleton.mp hpart ▸ h
  | case3 line rest ih =>
    exact List.forall_mem_cons.mpr ⟨hend _ (by decide) _ h, ih hnil⟩
  | case4 line hfeed =>
    exact fun part hpart => List.mem_singleton.mp hpart ▸ hend _ (by decide) _ h
  | case5 line hfeed others ih =>
    exact List.forall_mem_cons.mpr ⟨hend _ (by decide) _ h, ih hnil⟩
  | case6 line hfeed next others hnext ih =>
    exact List.forall_mem_cons.mpr ⟨hend _ (by decide) _ h, ih hnil⟩
  | case7 line unit rest hfeed hreturn hseparator ih => exact ih hnil
  | case8 line unit rest hfeed hreturn hseparator ih =>
    apply ih
    apply noSeparator_append h
    intro other hother
    rw [List.mem_singleton.mp hother]
    exact Bool.eq_false_iff.mpr hseparator

theorem splitLinesFrom_flatten (h : NoSeparator content) :
    (splitLinesFrom line content).flatten = line ++ content := by
  fun_induction splitLinesFrom line content with
  | case1 => rfl
  | case2 line hline => exact (List.append_nil _).trans (List.append_nil _).symm
  | case3 line rest ih =>
    rw [List.flatten_cons, ih fun unit hunit => h unit (List.mem_cons_of_mem _ hunit)]
    exact List.append_assoc line _ rest
  | case4 line hreturn => exact List.append_nil _
  | case5 line others hreturn ih =>
    rw [List.flatten_cons,
      ih fun unit hunit => h unit (List.mem_cons_of_mem _ (List.mem_cons_of_mem _ hunit))]
    exact List.append_assoc line _ others
  | case6 line next others hnext hreturn ih =>
    rw [List.flatten_cons, ih fun unit hunit => h unit (List.mem_cons_of_mem _ hunit)]
    exact List.append_assoc line _ _
  | case7 line unit rest hfeed hreturn hseparator ih =>
    rw [h unit List.mem_cons_self] at hseparator
    cases hseparator
  | case8 line unit rest hfeed hreturn hseparator ih =>
    rw [ih fun other hother => h other (List.mem_cons_of_mem _ hother)]
    exact List.append_assoc line _ rest

/-- The lines are all of the text, and each but the last has one line end. -/
def SplitsWhole (content : List UInt16) (lines : List Line) : Prop :=
  lines.flatten = content ∧ LinesEnd lines

/-- A text is split as a whole where it has neither a line separator nor a paragraph separator. -/
theorem splits_whole_iff (content : List UInt16) :
    SplitsWhole content (splitLinesPreservingEndings content) ↔ NoSeparator content := by
  constructor
  · intro h unit hunit
    rw [← h.1] at hunit
    obtain ⟨line, hline, hunit⟩ := List.mem_flatten.mp hunit
    have hnil : NoSeparator [] := fun _ h => absurd h List.not_mem_nil
    exact splitLinesFrom_noSeparator hnil line hline unit hunit
  · intro h
    have hnil : Plain [] := fun _ h => absurd h List.not_mem_nil
    exact ⟨splitLinesFrom_flatten h, splitLinesFrom_end hnil content⟩

/-- Of `a`, a line separator, `b` and a line feed only the last two are left. -/
theorem separated_line_lost :
    ¬SplitsWhole [0x61, 0x2028, 0x62, 0x0A]
      (splitLinesPreservingEndings [0x61, 0x2028, 0x62, 0x0A]) := by
  rintro ⟨hwhole, -⟩
  exact absurd hwhole (by decide)

end HarnessControl.LocalActions
