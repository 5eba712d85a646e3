import HarnessControl.Library.Utf8

/-!
# Frames of a stream

A stream is cut at a separator.  What stands after the last separator is no frame yet, so more input
only adds frames.  A stream of bytes may be decoded before it is cut into lines.
-/

namespace HarnessControl.Library

variable {α : Type*} [DecidableEq α]

/-- The texts that a separator ends. -/
def frames (separator : α) : List α → List (List α)
  | [] => []
  | a :: rest =>
    if a = separator then [] :: frames separator rest
    else
      match frames separator rest with
      | [] => []
      | frame :: others => (a :: frame) :: others

/-- The first frame and what follows it. -/
def firstFrame (separator : α) : List α → Option (List α × List α)
  | [] => none
  | a :: rest =>
    if a = separator then some ([], rest)
    else (firstFrame separator rest).map fun found => (a :: found.1, found.2)

variable {separator : α}

theorem frames_of_not_mem {stream : List α} (h : separator ∉ stream) :
    frames separator stream = [] := by
  induction stream with
  | nil => rfl
  | cons a rest ih =>
    rw [List.mem_cons, not_or] at h
    unfold frames
    rw [if_neg (Ne.symm h.1), ih h.2]

theorem frames_cons {frame : List α} (h : separator ∉ frame) (rest : List α) :
    frames separator (frame ++ separator :: rest) = frame :: frames separator rest := by
  induction frame with
  | nil =>
    show frames separator (separator :: rest) = _
    conv_lhs => unfold frames
    rw [if_pos rfl]
  | cons a frame ih =>
    rw [List.mem_cons, not_or] at h
    rw [List.cons_append]
    conv_lhs => unfold frames
    rw [if_neg (Ne.symm h.1), ih h.2]

/-- Whole frames, and a rest that has none. -/
def unframe (separator : α) (whole : List (List α)) : List α :=
  whole.flatMap fun frame => frame ++ [separator]

theorem frames_unframe {whole : List (List α)}
    (h : ∀ frame ∈ whole, separator ∉ frame) (rest : List α) :
    frames separator (unframe separator whole ++ rest) = whole ++ frames separator rest := by
  induction whole with
  | nil => rfl
  | cons frame whole ih =>
    have htail := ih fun other hin => h other (List.mem_cons_of_mem frame hin)
    unfold unframe at htail ⊢
    rw [List.flatMap_cons, List.append_assoc, List.append_assoc, List.singleton_append,
      frames_cons (h frame List.mem_cons_self), htail, List.cons_append]

/-- Frames hold no separator, and together with some rest they are the stream. -/
theorem frames_spec (separator : α) (stream : List α) :
    (∀ frame ∈ frames separator stream, separator ∉ frame) ∧
      ∃ rest, separator ∉ rest ∧ stream = unframe separator (frames separator stream) ++ rest := by
  induction stream with
  | nil => exact ⟨fun _ h => absurd h List.not_mem_nil, [], List.not_mem_nil, rfl⟩
  | cons a stream ih =>
    obtain ⟨hframes, rest, hrest, hstream⟩ := ih
    by_cases ha : a = separator
    · subst ha
      have heq : frames a (a :: stream) = [] :: frames a stream := by
        conv_lhs => unfold frames
        rw [if_pos rfl]
      rw [heq]
      refine ⟨List.forall_mem_cons.mpr ⟨List.not_mem_nil, hframes⟩, rest, hrest, ?_⟩
      exact congrArg _ hstream
    · cases hcases : frames separator stream with
      | nil =>
        have heq : frames separator (a :: stream) = [] := by
          unfold frames
          rw [if_neg ha, hcases]
        rw [heq]
        rw [hcases] at hstream
        refine ⟨fun _ h => absurd h List.not_mem_nil, a :: stream, ?_, rfl⟩
        rw [List.mem_cons, not_or]
        exact ⟨Ne.symm ha, by rw [hstream]; exact hrest⟩
      | cons frame others =>
        have heq : frames separator (a :: stream) = (a :: frame) :: others := by
          conv_lhs => unfold frames
          rw [if_neg ha, hcases]
        rw [heq]
        rw [hcases] at hframes hstream
        obtain ⟨hframe, hothers⟩ := List.forall_mem_cons.mp hframes
        refine ⟨List.forall_mem_cons.mpr ⟨?_, hothers⟩, rest, hrest, ?_⟩
        · rw [List.mem_cons, not_or]
          exact ⟨Ne.symm ha, hframe⟩
        · exact congrArg _ hstream

theorem frames_prefix (separator : α) (stream more : List α) :
    frames separator stream <+: frames separator (stream ++ more) := by
  obtain ⟨hframes, rest, -, hstream⟩ := frames_spec separator stream
  conv_rhs => rw [hstream]
  rw [List.append_assoc, frames_unframe hframes]
  exact List.prefix_append _ _

theorem firstFrame_eq_some {stream frame rest : List α}
    (h : firstFrame separator stream = some (frame, rest)) :
    separator ∉ frame ∧ stream = frame ++ separator :: rest := by
  induction stream generalizing frame with
  | nil => cases h
  | cons a stream ih =>
    unfold firstFrame at h
    by_cases ha : a = separator
    · rw [if_pos ha] at h
      obtain ⟨rfl, rfl⟩ := Prod.mk.inj (Option.some.inj h)
      exact ⟨List.not_mem_nil, by rw [ha]; rfl⟩
    · rw [if_neg ha, Option.map_eq_some_iff] at h
      obtain ⟨⟨tail, rest'⟩, hfound, heq⟩ := h
      obtain ⟨rfl, rfl⟩ := Prod.mk.inj heq
      obtain ⟨htail, hstream⟩ := ih hfound
      constructor
      · rw [List.mem_cons, not_or]
        exact ⟨Ne.symm ha, htail⟩
      · rw [hstream]
        rfl

theorem firstFrame_eq_none {stream : List α}
    (h : firstFrame separator stream = none) : separator ∉ stream := by
  induction stream with
  | nil => exact List.not_mem_nil
  | cons a stream ih =>
    unfold firstFrame at h
    by_cases ha : a = separator
    · rw [if_pos ha] at h
      cases h
    · rw [if_neg ha, Option.map_eq_none_iff] at h
      rw [List.mem_cons, not_or]
      exact ⟨Ne.symm ha, ih h⟩

/-! ## Lines of encoded text -/

open Utf8

theorem step_newline (seen : List UInt8) : step seen 10 = ([], flush seen ++ ['\n']) := by
  have hbegin : begin 10 = ([], ['\n']) := by decide
  unfold step flush
  by_cases hseen : seen = []
  · rw [if_pos hseen, if_pos hseen]
    exact hbegin
  · rw [if_neg hseen, if_neg hseen, continues_ascii seen (by decide), hbegin]
    rfl

theorem emitted_line (line rest : List UInt8) :
    emitted [] (line ++ 10 :: rest) = decode line ++ '\n' :: emitted [] rest := by
  rw [emitted_append]
  show _ ++ ((step (Utf8.after [] line) 10).2 ++ emitted (step (Utf8.after [] line) 10).1 rest) = _
  rw [step_newline]
  unfold decode decodeFrom
  simp

theorem emitted_unframe (whole : List (List UInt8)) (rest : List UInt8) :
    emitted [] (unframe 10 whole ++ rest) = unframe '\n' (whole.map decode) ++ emitted [] rest := by
  induction whole with
  | nil => rfl
  | cons line whole ih =>
    unfold unframe at ih ⊢
    rw [List.flatMap_cons, List.append_assoc, List.append_assoc, List.singleton_append,
      emitted_line, ih, List.map_cons, List.flatMap_cons, List.append_assoc, List.append_assoc,
      List.singleton_append]

theorem newline_not_mem_decode {line : List UInt8} (h : (10 : UInt8) ∉ line) :
    '\n' ∉ decode line := by
  intro hin
  obtain hreplacement | hbytes := mem_decode hin
  · exact absurd hreplacement (by decide)
  · exact h (hbytes 10 (by decide))

theorem frames_emitted (stream : List UInt8) :
    frames '\n' (emitted [] stream) = (frames 10 stream).map decode := by
  obtain ⟨hlines, rest, hrest, hstream⟩ := frames_spec 10 stream
  have hdecoded : ∀ line ∈ (frames 10 stream).map decode, '\n' ∉ line := by
    intro text htext
    obtain ⟨line, hline, rfl⟩ := List.mem_map.mp htext
    exact newline_not_mem_decode (hlines line hline)
  have hnone : '\n' ∉ emitted [] rest := by
    intro hin
    exact newline_not_mem_decode hrest (List.mem_append_left _ hin)
  conv_lhs => rw [hstream]
  rw [emitted_unframe, frames_unframe hdecoded, frames_of_not_mem hnone, List.append_nil]

end HarnessControl.Library
