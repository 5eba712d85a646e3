import HarnessControl.Library.Fallible
import HarnessControl.Library.Frames

/-!
# Lines that come in chunks

A text arrives in chunks, and its lines are handled as soon as they have ended.  Where no line
exceeds the limit, the lines are handled alike however the text is cut.
-/

namespace HarnessControl.Library

variable {α σ ε : Type}

section Lines

variable (limit : Nat) (tooLong : ε) (consume : σ → List α → Except ε σ)

/-- The lines of a buffer, one after the other. -/
def consumeLines : σ → List (List α) → Except ε σ
  | state, [] => .ok state
  | state, line :: rest =>
    if limit < line.length then .error tooLong
    else (consume state line).bind fun next => consumeLines next rest

variable {limit tooLong consume}

theorem consumeLines_cons (state : σ) (line : List α) (rest : List (List α)) :
    consumeLines limit tooLong consume state (line :: rest) =
      if limit < line.length then .error tooLong
      else (consume state line).bind fun next => consumeLines limit tooLong consume next rest := rfl

theorem consumeLines_append (state : σ) (first second : List (List α)) :
    consumeLines limit tooLong consume state (first ++ second) =
      (consumeLines limit tooLong consume state first).bind fun next =>
        consumeLines limit tooLong consume next second := by
  induction first generalizing state with
  | nil => rfl
  | cons line first ih =>
    rw [List.cons_append, consumeLines_cons, consumeLines_cons]
    by_cases hlong : limit < line.length
    · rw [if_pos hlong, if_pos hlong]
      rfl
    · rw [if_neg hlong, if_neg hlong]
      cases consume state line with
      | error failure => rfl
      | ok next => exact ih next

end Lines

variable [DecidableEq α]

/-- What stands after the last separator. -/
def unfinished (separator : α) : List α → List α
  | [] => []
  | a :: rest =>
    if separator ∈ rest then unfinished separator rest
    else if a = separator then rest else a :: rest

theorem unfinished_of_not_mem {separator : α} {text : List α} (h : separator ∉ text) :
    unfinished separator text = text := by
  cases text with
  | nil => rfl
  | cons a rest =>
    rw [List.mem_cons, not_or] at h
    unfold unfinished
    rw [if_neg h.2, if_neg (Ne.symm h.1)]

theorem unfinished_append_separator {separator : α} (line rest : List α) :
    unfinished separator (line ++ separator :: rest) = unfinished separator rest := by
  induction line with
  | nil =>
    rw [List.nil_append]
    conv_lhs => unfold unfinished
    by_cases hin : separator ∈ rest
    · rw [if_pos hin]
    · rw [if_neg hin, if_pos rfl, unfinished_of_not_mem hin]
  | cons a line ih =>
    rw [List.cons_append]
    conv_lhs => unfold unfinished
    rw [if_pos (List.mem_append_right _ List.mem_cons_self), ih]

theorem unfinished_unframe {separator : α} (whole : List (List α)) (rest : List α) :
    unfinished separator (unframe separator whole ++ rest) = unfinished separator rest := by
  induction whole with
  | nil => rfl
  | cons line whole ih =>
    unfold unframe at ih ⊢
    rw [List.flatMap_cons, List.append_assoc, List.append_assoc, List.singleton_append,
      unfinished_append_separator, ih]

theorem unframe_unfinished (separator : α) (text : List α) :
    unframe separator (frames separator text) ++ unfinished separator text = text := by
  obtain ⟨_, rest, hrest, htext⟩ := frames_spec separator text
  have hunfinished : unfinished separator text = rest := by
    conv_lhs => rw [htext]
    rw [unfinished_unframe, unfinished_of_not_mem hrest]
  rw [hunfinished]
  exact htext.symm

section Reading

variable (separator : α) (limit : Nat) (tooLong : ε) (consume : σ → List α → Except ε σ)

/-- The chunks of a stream, each after what the last one left in the buffer. -/
def readChunks : σ → List α → List (List α) → Except ε (σ × List α)
  | state, buffer, [] => .ok (state, buffer)
  | state, buffer, chunk :: more =>
    let text := buffer ++ chunk
    (consumeLines limit tooLong consume state (frames separator text)).bind fun next =>
      if limit < (unfinished separator text).length then .error tooLong
      else readChunks next (unfinished separator text) more

variable {separator limit tooLong consume}

theorem readChunks_whole {lines : List (List α)} (hlines : ∀ line ∈ lines, separator ∉ line)
    (hlimit : ∀ line ∈ lines, line.length ≤ limit) (state : σ) {buffer : List α}
    {chunks : List (List α)} (hbuffer : separator ∉ buffer)
    (h : buffer ++ chunks.flatten = unframe separator lines) :
    readChunks separator limit tooLong consume state buffer chunks =
      (consumeLines limit tooLong consume state lines).map fun final => (final, []) := by
  induction chunks generalizing state buffer lines with
  | nil =>
    rw [List.flatten_nil, List.append_nil] at h
    have hnone : lines = [] := by
      have hframes := congrArg (frames separator) h
      rw [frames_of_not_mem hbuffer, ← List.append_nil (unframe separator lines),
        frames_unframe hlines] at hframes
      exact List.append_eq_nil_iff.mp hframes.symm |>.1
    subst hnone
    rw [h]
    rfl
  | cons chunk more ih =>
    rw [List.flatten_cons, ← List.append_assoc] at h
    -- the lines of this text, and those that end later
    have hprefix := frames_prefix separator (buffer ++ chunk) more.flatten
    rw [h, ← List.append_nil (unframe separator lines), frames_unframe hlines] at hprefix
    obtain ⟨later, hlater⟩ := hprefix
    rw [show frames separator ([] : List α) = [] from rfl, List.append_nil] at hlater
    have hrest : unfinished separator (buffer ++ chunk) ++ more.flatten =
        unframe separator later := by
      have htext := unframe_unfinished separator (buffer ++ chunk)
      rw [← htext, List.append_assoc, ← hlater] at h
      unfold unframe at h ⊢
      rw [List.flatMap_append] at h
      exact List.append_cancel_left h
    have hclean : separator ∉ unfinished separator (buffer ++ chunk) := by
      obtain ⟨_, rest, hnot, htext⟩ := frames_spec separator (buffer ++ chunk)
      rw [htext, unfinished_unframe, unfinished_of_not_mem hnot]
      exact hnot
    have hshort : (unfinished separator (buffer ++ chunk)).length ≤ limit := by
      cases later with
      | nil =>
        rw [(List.append_eq_nil_iff.mp hrest).1]
        exact Nat.zero_le _
      | cons line later =>
        have hline := hlimit line (by rw [← hlater]; simp)
        apply Nat.le_trans _ hline
        -- what is left has no separator, so it is part of the next line
        unfold unframe at hrest
        rw [List.flatMap_cons, List.append_assoc, List.singleton_append] at hrest
        obtain ⟨_, hleft, _⟩ | ⟨tail, hleft, htail⟩ := List.append_eq_append_iff.mp hrest
        · rw [hleft]
          simp
        · cases tail with
          | nil => exact Nat.le_of_eq (by rw [hleft, List.append_nil])
          | cons a tail =>
            obtain ⟨rfl, _⟩ := List.cons.inj htail
            rw [hleft] at hclean
            exact absurd (List.mem_append_right _ List.mem_cons_self) hclean
    rw [← hlater, consumeLines_append]
    unfold readChunks
    dsimp only
    cases hconsumed : consumeLines limit tooLong consume state
        (frames separator (buffer ++ chunk)) with
    | error failure => rfl
    | ok next =>
      dsimp only [Except.bind]
      rw [if_neg (Nat.not_lt.mpr hshort)]
      apply ih _ _ next hclean hrest
      · intro line hline
        apply hlines
        rw [← hlater]
        exact List.mem_append_right _ hline
      · intro line hline
        apply hlimit
        rw [← hlater]
        exact List.mem_append_right _ hline

end Reading

end HarnessControl.Library
