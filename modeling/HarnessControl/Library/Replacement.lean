import Mathlib.Data.List.Basic

/-!
# Replacing every match of a pattern

A pattern says which match begins at a place of a text, given the character before the place and
the text from there on.  The text is read from the left; a match is replaced, and reading goes on
behind it.  The patterns of interest begin at the beginning of a word.
-/

namespace HarnessControl.Library

/-- What takes the place of a match, and the length of the match. -/
structure Found (α : Type*) where
  replacement : List α
  length : Nat

abbrev Pattern (α : Type*) := Option α → List α → Option (Found α)

namespace Pattern

variable {α : Type*}

/-- So many characters of the text are still inside a match. -/
def replaceFrom (pattern : Pattern α) : Nat → Option α → List α → List α
  | _, _, [] => []
  | inside + 1, _, c :: rest => replaceFrom pattern inside (some c) rest
  | 0, before, c :: rest =>
    match pattern before (c :: rest) with
    | none => c :: replaceFrom pattern 0 (some c) rest
    | some found =>
      found.replacement ++ replaceFrom pattern (found.length - 1) (some c) rest

def replaceAll (pattern : Pattern α) (before : Option α) (text : List α) : List α :=
  replaceFrom pattern 0 before text

/-- The last character that was read. -/
def last (before : Option α) (read : List α) : Option α := read.getLast?.or before

@[simp] theorem last_nil (before : Option α) : last before [] = before := rfl

@[simp] theorem last_cons (before : Option α) (c : α) (read : List α) :
    last before (c :: read) = last (some c) read := by
  unfold last
  rw [List.getLast?_cons]
  cases read.getLast? with
  | none => rfl
  | some _ => rfl

theorem last_append (before : Option α) (first second : List α) :
    last before (first ++ second) = last (last before first) second := by
  induction first generalizing before with
  | nil => rfl
  | cons c first ih => rw [List.cons_append, last_cons, last_cons, ih]

theorem last_any {p : α → Bool} {c : α} {read : List α} (h : ∀ d ∈ c :: read, p d = true) :
    (last (some c) read).any p = true := by
  induction read generalizing c with
  | nil => exact h c List.mem_cons_self
  | cons d read ih =>
    rw [last_cons]
    exact ih fun e he => h e (List.mem_cons_of_mem _ he)

variable {pattern : Pattern α} {before other : Option α} {c : α} {text taken rest : List α}
  {found : Found α}

@[simp] theorem replaceAll_nil : pattern.replaceAll before [] = [] := rfl

theorem replaceAll_none (h : pattern before (c :: rest) = none) :
    pattern.replaceAll before (c :: rest) = c :: pattern.replaceAll (some c) rest := by
  unfold replaceAll
  rw [replaceFrom, h]

theorem replaceFrom_inside (taken rest : List α) (before : Option α) :
    replaceFrom pattern taken.length before (taken ++ rest) =
      pattern.replaceAll (last before taken) rest := by
  induction taken generalizing before with
  | nil => rfl
  | cons c taken ih => rw [last_cons, ← ih, List.length_cons, List.cons_append, replaceFrom]

theorem replaceAll_found (h : pattern before (taken ++ rest) = some found)
    (hlength : taken.length = found.length) (hne : taken ≠ []) :
    pattern.replaceAll before (taken ++ rest) =
      found.replacement ++ pattern.replaceAll (last before taken) rest := by
  cases taken with
  | nil => exact absurd rfl hne
  | cons c taken =>
    have hinside : found.length - 1 = taken.length := by
      rw [List.length_cons] at hlength
      omega
    rw [last_cons, ← replaceFrom_inside]
    unfold replaceAll
    rw [List.cons_append] at h ⊢
    rw [replaceFrom, h]
    dsimp only
    rw [hinside]

/-! ## Patterns that begin with a word -/

/-- A match begins with a letter and not within a word, and what takes its place begins with the
same letter. -/
structure Anchored (pattern : Pattern α) (word start : α → Bool) : Prop where
  outside : ∀ {before text found}, pattern before text = some found → before.any word = false
  taken : ∀ {before text found}, pattern before text = some found →
    ∃ c taken rest, text = c :: taken ++ rest ∧ (c :: taken).length = found.length ∧
      start c = true ∧ found.replacement.head? = some c

variable {word start : α → Bool}

theorem Anchored.within (h : pattern.Anchored word start) (hword : before.any word = true)
    (text : List α) : pattern before text = none := by
  cases hfound : pattern before text with
  | none => rfl
  | some found =>
    rw [h.outside hfound] at hword
    cases hword

theorem Anchored.elsewhere (h : pattern.Anchored word start) (hstart : start c = false)
    (before : Option α) (rest : List α) : pattern before (c :: rest) = none := by
  cases hfound : pattern before (c :: rest) with
  | none => rfl
  | some found =>
    rcases h.taken hfound with ⟨first, taken, after, htext, -, hfirst, -⟩
    rw [List.cons_append, List.cons.injEq] at htext
    rw [← htext.1, hstart] at hfirst
    cases hfirst

theorem Anchored.reading (h : pattern.Anchored word start)
    {motive : Option α → List α → Prop} (nil : ∀ before, motive before [])
    (skip : ∀ before c rest, pattern before (c :: rest) = none → motive (some c) rest →
      motive before (c :: rest))
    (found : ∀ before taken rest found, pattern before (taken ++ rest) = some found →
      taken.length = found.length → taken ≠ [] → motive (last before taken) rest →
      motive before (taken ++ rest))
    (before : Option α) (text : List α) : motive before text := by
  induction hlength : text.length using Nat.strongRecOn generalizing before text with
  | ind n ih =>
    cases text with
    | nil => exact nil before
    | cons c rest =>
      cases hfound : pattern before (c :: rest) with
      | none =>
        apply skip before c rest hfound
        exact ih rest.length (by rw [← hlength]; exact Nat.lt_succ_self _) _ rest rfl
      | some f =>
        rcases h.taken hfound with ⟨first, taken, after, htext, hlen, -, -⟩
        rw [htext] at hfound hlength ⊢
        apply found before (first :: taken) after f hfound hlen (List.cons_ne_nil _ _)
        apply ih after.length _ _ after rfl
        rw [← hlength, List.length_append, List.length_cons]
        omega

theorem Anchored.head (h : pattern.Anchored word start) (before : Option α) (text : List α) :
    (pattern.replaceAll before text).head? = text.head? := by
  cases text with
  | nil => rfl
  | cons c rest =>
    cases hfound : pattern before (c :: rest) with
    | none =>
      rw [replaceAll_none hfound]
      rfl
    | some found =>
      rcases h.taken hfound with ⟨first, taken, after, htext, hlength, -, hhead⟩
      rw [htext] at hfound ⊢
      rw [replaceAll_found hfound hlength (List.cons_ne_nil _ _), List.head?_append, hhead]
      rfl

theorem Anchored.replaceAll_elsewhere (h : pattern.Anchored word start)
    (hstart : ∀ c ∈ text.head?, start c = false) (before other : Option α) :
    pattern.replaceAll before text = pattern.replaceAll other text := by
  cases text with
  | nil => rfl
  | cons c rest =>
    have hc := hstart c rfl
    rw [replaceAll_none (h.elsewhere hc before rest), replaceAll_none (h.elsewhere hc other rest)]

theorem Anchored.word_copied (h : pattern.Anchored word start) {part : List α}
    (hpart : ∀ c ∈ part, word c = true) (hbefore : before.any word = true)
    (hfront : part <+: pattern.replaceAll before text) :
    ∃ rest, text = part ++ rest ∧
      pattern.replaceAll before text = part ++ pattern.replaceAll (last before part) rest := by
  induction part generalizing before text with
  | nil => exact ⟨text, rfl, rfl⟩
  | cons c part ih =>
    rcases hfront with ⟨more, hmore⟩
    have hhead := h.head before text
    rw [← hmore] at hhead
    cases text with
    | nil => cases hhead
    | cons first tail =>
      have hfirst : c = first := Option.some.inj hhead
      subst hfirst
      rw [replaceAll_none (h.within hbefore _), List.cons_append, List.cons.injEq] at hmore
      have htail : part <+: pattern.replaceAll (some c) tail := ⟨more, hmore.2⟩
      have hc : (some c).any word = true := hpart c List.mem_cons_self
      rcases ih (fun d hd => hpart d (List.mem_cons_of_mem _ hd)) hc htail with
        ⟨rest, htext, hcopied⟩
      refine ⟨rest, by rw [htext]; rfl, ?_⟩
      rw [replaceAll_none (h.within hbefore _), hcopied, last_cons]
      rfl

theorem Anchored.plain_copied (h : pattern.Anchored word start) {part : List α}
    (hpart : ∀ c ∈ part, start c = false) (hfront : part <+: pattern.replaceAll before text) :
    ∃ rest, text = part ++ rest ∧
      pattern.replaceAll before text = part ++ pattern.replaceAll (last before part) rest := by
  induction part generalizing before text with
  | nil => exact ⟨text, rfl, rfl⟩
  | cons c part ih =>
    rcases hfront with ⟨more, hmore⟩
    have hhead := h.head before text
    rw [← hmore] at hhead
    cases text with
    | nil => cases hhead
    | cons first tail =>
      have hfirst : c = first := Option.some.inj hhead
      subst hfirst
      have hnone := h.elsewhere (hpart c List.mem_cons_self) before tail
      rw [replaceAll_none hnone, List.cons_append, List.cons.injEq] at hmore
      have htail : part <+: pattern.replaceAll (some c) tail := ⟨more, hmore.2⟩
      rcases ih (fun d hd => hpart d (List.mem_cons_of_mem _ hd)) htail with
        ⟨rest, htext, hcopied⟩
      refine ⟨rest, by rw [htext]; rfl, ?_⟩
      rw [replaceAll_none hnone, hcopied, last_cons]
      rfl

/-! ## Texts without a match -/

/-- No match begins in a part of a text. -/
def Quiet (pattern : Pattern α) : Option α → List α → List α → Prop
  | _, [], _ => True
  | before, c :: part, rest =>
    pattern before (c :: part ++ rest) = none ∧ Quiet pattern (some c) part rest

theorem Quiet.replaceAll {part : List α} (h : pattern.Quiet before part rest) :
    pattern.replaceAll before (part ++ rest) =
      part ++ pattern.replaceAll (last before part) rest := by
  induction part generalizing before with
  | nil => rfl
  | cons c part ih =>
    have hnone : pattern before (c :: (part ++ rest)) = none := h.1
    rw [List.cons_append, replaceAll_none hnone, ih h.2, last_cons]
    rfl

theorem Anchored.quiet_word (h : pattern.Anchored word start) {part : List α}
    (hpart : ∀ c ∈ part.dropLast, word c = true) (hbefore : before.any word = true)
    (rest : List α) : pattern.Quiet before part rest := by
  induction part generalizing before with
  | nil => trivial
  | cons c part ih =>
    refine ⟨h.within hbefore _, ?_⟩
    cases part with
    | nil => trivial
    | cons d part =>
      apply ih (fun e he => hpart e (List.mem_cons_of_mem _ he))
      exact hpart c List.mem_cons_self

theorem Anchored.quiet_elsewhere (h : pattern.Anchored word start) {part : List α}
    (hstart : ∀ c ∈ part.head?, start c = false) (hquiet : pattern.Quiet before part rest)
    (other : Option α) : pattern.Quiet other part rest := by
  cases part with
  | nil => trivial
  | cons c part => exact ⟨h.elsewhere (hstart c rfl) other _, hquiet.2⟩

theorem quiet_append {first second : List α} :
    pattern.Quiet before (first ++ second) rest ↔
      pattern.Quiet before first (second ++ rest) ∧
        pattern.Quiet (last before first) second rest := by
  induction first generalizing before with
  | nil =>
    constructor
    · exact fun h => ⟨trivial, h⟩
    · exact fun h => h.2
  | cons c first ih =>
    rw [List.cons_append, Quiet, Quiet, ih, last_cons, List.cons_append, List.append_assoc]
    exact and_assoc.symm

end Pattern

end HarnessControl.Library
