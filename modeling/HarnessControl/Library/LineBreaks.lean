import Mathlib.Data.List.Basic

/-!
# Lines that end in LF, CR or CRLF

A text is read from the front.  A CR at its end may be half of a line break, so that it is held back
until more of the text comes, or the end of it.
-/

namespace HarnessControl.Library

/-- The lines of a text, and what stands after the last line break. -/
@[grind] def splitLines (eof : Bool) : List Char → List (List Char) × List Char
  | [] => ([], [])
  | '\n' :: rest => ([] :: (splitLines eof rest).1, (splitLines eof rest).2)
  | ['\r'] => if eof then ([[]], []) else ([], ['\r'])
  | '\r' :: '\n' :: rest => ([] :: (splitLines eof rest).1, (splitLines eof rest).2)
  | '\r' :: rest => ([] :: (splitLines eof rest).1, (splitLines eof rest).2)
  | c :: rest =>
    match (splitLines eof rest).1 with
    | [] => ([], c :: (splitLines eof rest).2)
    | line :: others => ((c :: line) :: others, (splitLines eof rest).2)

def lineBreak (c : Char) : Bool := c = '\n' || c = '\r'

theorem lineBreak_eq_false {c : Char} (hlf : c ≠ '\n') (hcr : c ≠ '\r') : lineBreak c = false := by
  unfold lineBreak
  rw [decide_eq_false hlf, decide_eq_false hcr]
  rfl

/-- The text before the first line break, the first character of that, and what follows. -/
def firstBreak : List Char → Option (List Char × Char × List Char)
  | [] => none
  | c :: rest =>
    if lineBreak c then some ([], c, rest)
    else (firstBreak rest).map fun found => (c :: found.1, found.2)

theorem firstBreak_none {text : List Char} (h : firstBreak text = none) :
    ∀ c ∈ text, lineBreak c = false := by
  induction text with
  | nil => exact fun _ hin => absurd hin List.not_mem_nil
  | cons c rest ih =>
    unfold firstBreak at h
    split at h
    · cases h
    · rename_i hc
      rw [Bool.not_eq_true] at hc
      rw [Option.map_eq_none_iff] at h
      exact List.forall_mem_cons.mpr ⟨hc, ih h⟩

theorem firstBreak_some {text line rest : List Char} {c : Char}
    (h : firstBreak text = some (line, c, rest)) :
    text = line ++ c :: rest ∧ lineBreak c = true ∧ ∀ d ∈ line, lineBreak d = false := by
  induction text generalizing line with
  | nil => cases h
  | cons d text ih =>
    unfold firstBreak at h
    split at h
    · rename_i hd
      obtain ⟨rfl, rfl, rfl⟩ := by simpa using h
      exact ⟨rfl, hd, fun _ hin => absurd hin List.not_mem_nil⟩
    · rename_i hd
      rw [Bool.not_eq_true] at hd
      obtain ⟨⟨tail, e, others⟩, hfound, heq⟩ := Option.map_eq_some_iff.mp h
      obtain ⟨hline, hbreak⟩ := Prod.mk.inj heq
      obtain ⟨rfl, rfl⟩ := Prod.mk.inj hbreak
      obtain ⟨htext, hc, htail⟩ := ih hfound
      rw [← hline, htext]
      exact ⟨rfl, hc, List.forall_mem_cons.mpr ⟨hd, htail⟩⟩

theorem splitLines_cons (eof : Bool) {c : Char} (h : lineBreak c = false) (rest : List Char) :
    splitLines eof (c :: rest) =
      match (splitLines eof rest).1 with
      | [] => ([], c :: (splitLines eof rest).2)
      | line :: others => ((c :: line) :: others, (splitLines eof rest).2) := by
  unfold lineBreak at h
  rw [Bool.or_eq_false_iff, decide_eq_false_iff_not, decide_eq_false_iff_not] at h
  rw [splitLines]
  · exact fun hc => h.1 hc
  · exact fun hc _ => h.2 hc
  · exact fun _ hc _ => h.2 hc
  · exact h.2

theorem splitLines_line (eof : Bool) {line rest : List Char} (h : ∀ c ∈ line, lineBreak c = false)
    {first : List Char} {others : List (List Char)}
    (hrest : (splitLines eof rest).1 = first :: others) :
    splitLines eof (line ++ rest) = ((line ++ first) :: others, (splitLines eof rest).2) := by
  induction line with
  | nil =>
    show splitLines eof rest = (first :: others, _)
    rw [← hrest]
  | cons c line ih =>
    have htail := ih fun d hd => h d (List.mem_cons_of_mem c hd)
    rw [List.cons_append, splitLines_cons eof (h c List.mem_cons_self), htail]
    rfl

theorem splitLines_none (eof : Bool) {text rest : List Char} (h : ∀ c ∈ text, lineBreak c = false)
    (hrest : (splitLines eof rest).1 = []) :
    splitLines eof (text ++ rest) = ([], text ++ (splitLines eof rest).2) := by
  induction text with
  | nil =>
    show splitLines eof rest = ([], _)
    rw [← hrest]
    rfl
  | cons c text ih =>
    have htail := ih fun d hd => h d (List.mem_cons_of_mem c hd)
    rw [List.cons_append, splitLines_cons eof (h c List.mem_cons_self), htail]
    rfl

theorem splitLines_cr (eof : Bool) {rest : List Char} (hne : rest ≠ [])
    (hnext : ∀ others, rest ≠ '\n' :: others) :
    splitLines eof ('\r' :: rest) = ([] :: (splitLines eof rest).1, (splitLines eof rest).2) := by
  rw [splitLines]
  · exact hne
  · exact hnext

/-- What follows a line break, of which the character may be the first half. -/
def afterBreak (c : Char) (rest : List Char) : List Char :=
  if c = '\r' ∧ rest.head? = some '\n' then rest.drop 1 else rest

theorem splitLines_break {eof : Bool} {c : Char} (hc : lineBreak c = true) {line rest : List Char}
    (hline : ∀ d ∈ line, lineBreak d = false)
    (hheld : ¬(c = '\r' ∧ rest = [] ∧ (!eof) = true)) :
    splitLines eof (line ++ c :: rest) =
      (line :: (splitLines eof (afterBreak c rest)).1, (splitLines eof (afterBreak c rest)).2) := by
  have hbreak : splitLines eof (c :: rest) =
      ([] :: (splitLines eof (afterBreak c rest)).1, (splitLines eof (afterBreak c rest)).2) := by
    unfold afterBreak
    unfold lineBreak at hc
    rw [Bool.or_eq_true, decide_eq_true_iff, decide_eq_true_iff] at hc
    obtain rfl | rfl := hc
    · rw [if_neg (fun h => absurd h.1 (by decide)), splitLines]
    · match rest with
      | [] =>
        have heof : eof = true := by
          by_contra heof
          rw [Bool.not_eq_true] at heof
          exact hheld ⟨rfl, rfl, by rw [heof]; rfl⟩
        rw [heof]
        rfl
      | '\n' :: others =>
        rw [splitLines]
        rfl
      | d :: others =>
        by_cases hd : d = '\n'
        · subst hd
          rw [splitLines]
          rfl
        · have hhead : ¬('\r' = '\r' ∧ (d :: others).head? = some '\n') :=
            fun h => hd (Option.some.inj h.2)
          rw [if_neg hhead, splitLines_cr eof (List.cons_ne_nil d others)]
          intro tail heq
          exact hd (List.cons.inj heq).1
  rw [splitLines_line eof hline (by rw [hbreak]), hbreak, List.append_nil]

theorem splitLines_append (eof : Bool) (first second : List Char) :
    splitLines eof (first ++ second) =
      ((splitLines false first).1 ++ (splitLines eof ((splitLines false first).2 ++ second)).1,
        (splitLines eof ((splitLines false first).2 ++ second)).2) := by
  induction first using splitLines.induct false with
  | case1 => rfl
  | case2 rest ih =>
    rw [List.cons_append, splitLines, splitLines, ih]
    rfl
  | case3 => rfl
  | case4 => rfl
  | case5 rest ih =>
    rw [List.cons_append, List.cons_append, splitLines, splitLines, ih]
    rfl
  | case6 rest hne hnext ih =>
    have hnext' : ∀ others, rest ++ second ≠ '\n' :: others := by
      cases rest with
      | nil => exact absurd rfl hne
      | cons c tail =>
        intro others heq
        obtain ⟨rfl, -⟩ := List.cons.inj heq
        exact hnext tail rfl
    have hne' : rest ++ second ≠ [] := List.append_ne_nil_of_left_ne_nil hne second
    rw [List.cons_append, splitLines_cr eof hne' hnext', splitLines_cr false hne hnext, ih]
    rfl
  | case7 c rest hlf _ _ hcr hnone ih =>
    have hc := lineBreak_eq_false hlf hcr
    have hfirst : splitLines false (c :: rest) = ([], c :: (splitLines false rest).2) := by
      rw [splitLines_cons false hc, hnone]
    rw [hnone, List.nil_append] at ih
    rw [hfirst, List.cons_append, List.nil_append, List.cons_append, splitLines_cons eof hc, ih,
      ← splitLines_cons eof hc]
  | case8 c rest hlf _ _ hcr line others hsome ih =>
    have hc := lineBreak_eq_false hlf hcr
    have hfirst : splitLines false (c :: rest) =
        ((c :: line) :: others, (splitLines false rest).2) := by
      rw [splitLines_cons false hc, hsome]
    rw [hsome, List.cons_append] at ih
    rw [hfirst, List.cons_append, splitLines_cons eof hc, ih]
    rfl

theorem splitLines_suffix (eof : Bool) (text : List Char) :
    (splitLines eof text).2 <:+ text ∧
      ((splitLines eof text).1 = [] → (splitLines eof text).2 = text) := by
  induction text using splitLines.induct eof with
  | case1 => exact ⟨List.suffix_rfl, fun _ => rfl⟩
  | case2 rest ih =>
    rw [splitLines]
    exact ⟨ih.1.trans (List.suffix_cons _ _), nofun⟩
  | case3 heof =>
    rw [splitLines, if_pos heof]
    exact ⟨List.nil_suffix, nofun⟩
  | case4 heof =>
    rw [splitLines, if_neg heof]
    exact ⟨List.suffix_rfl, fun _ => rfl⟩
  | case5 rest ih =>
    rw [splitLines]
    exact ⟨ih.1.trans ((List.suffix_cons _ _).trans (List.suffix_cons _ _)), nofun⟩
  | case6 rest hne hnext ih =>
    rw [splitLines_cr eof hne hnext]
    exact ⟨ih.1.trans (List.suffix_cons _ _), nofun⟩
  | case7 c rest hlf _ _ hcr hnone ih =>
    rw [splitLines_cons eof (lineBreak_eq_false hlf hcr), hnone, ih.2 hnone]
    exact ⟨List.suffix_rfl, fun _ => rfl⟩
  | case8 c rest hlf _ _ hcr line others hsome ih =>
    rw [splitLines_cons eof (lineBreak_eq_false hlf hcr), hsome]
    exact ⟨ih.1.trans (List.suffix_cons _ _), nofun⟩

end HarnessControl.Library
