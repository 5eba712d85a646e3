import HarnessControl.OpenCode.NativeEventStream

/-!
# What is read of the event stream

Between two reads the consumer stands where a plain reading of the bytes so far would: the decoder, the
text held back, the open frame and what was delivered all depend on those bytes alone.
-/

namespace HarnessControl.OpenCode

open HarnessControl.Library

variable {Value : Type} {parse : List Char → Option Value} {maxFrameBytes : Nat}

/-! ## Frames -/

theorem readFrames_cons (data : List (List Char)) (line : List Char) (rest : List (List Char)) :
    readFrames data (line :: rest) =
      if line = [] then
        if data = [] then readFrames [] rest
        else (data :: (readFrames [] rest).1, (readFrames [] rest).2)
      else
        match dataField line with
        | none => readFrames data rest
        | some field => readFrames (data ++ [field]) rest := rfl

theorem readFrames_append (data : List (List Char)) (first second : List (List Char)) :
    readFrames data (first ++ second) =
      ((readFrames data first).1 ++ (readFrames (readFrames data first).2 second).1,
        (readFrames (readFrames data first).2 second).2) := by
  induction first generalizing data with
  | nil => rfl
  | cons line rest ih =>
    rw [List.cons_append, readFrames_cons, readFrames_cons]
    split
    · split
      · exact ih []
      · rw [ih []]
        rfl
    · split
      · exact ih data
      · exact ih _

def dataBytes (data : List (List Char)) : Nat := (data.map fun field => textBytes field + 1).sum

def Within (maxFrameBytes : Nat) (data : List (List Char)) : Prop :=
  dataBytes data ≤ maxFrameBytes ∧ data.length ≤ 10000

/-- All frames are within the bounds, the one that has not ended included. -/
def AllWithin (maxFrameBytes : Nat) (frames : List (List (List Char)) × List (List Char)) : Prop :=
  (∀ frame ∈ frames.1, Within maxFrameBytes frame) ∧ Within maxFrameBytes frames.2

theorem Within.nil (maxFrameBytes : Nat) : Within maxFrameBytes [] :=
  ⟨Nat.zero_le _, Nat.zero_le _⟩

theorem dataBytes_concat (data : List (List Char)) (field : List Char) :
    dataBytes (data ++ [field]) = dataBytes data + (textBytes field + 1) := by
  unfold dataBytes
  rw [List.map_append, List.sum_append]
  rfl

theorem Within.of_concat {data : List (List Char)} {field : List Char}
    (h : Within maxFrameBytes (data ++ [field])) : Within maxFrameBytes data := by
  obtain ⟨hbytes, hlength⟩ := h
  rw [dataBytes_concat] at hbytes
  rw [List.length_append] at hlength
  exact ⟨by omega, by omega⟩

theorem AllWithin.data {data : List (List Char)} {lines : List (List Char)}
    (h : AllWithin maxFrameBytes (readFrames data lines)) : Within maxFrameBytes data := by
  induction lines generalizing data with
  | nil => exact h.2
  | cons line rest ih =>
    rw [readFrames_cons] at h
    split at h
    · split at h
      · rename_i hdata
        rw [hdata]
        exact Within.nil maxFrameBytes
      · exact h.1 data List.mem_cons_self
    · split at h
      · exact ih h
      · exact (ih h).of_concat

theorem AllWithin.split {first second : List (List Char)}
    (h : AllWithin maxFrameBytes (readFrames [] (first ++ second))) :
    AllWithin maxFrameBytes (readFrames [] first) ∧
      AllWithin maxFrameBytes (readFrames (readFrames [] first).2 second) := by
  rw [readFrames_append] at h
  have hsecond : AllWithin maxFrameBytes (readFrames (readFrames [] first).2 second) :=
    ⟨fun frame hin => h.1 frame (List.mem_append_right _ hin), h.2⟩
  exact ⟨⟨fun frame hin => h.1 frame (List.mem_append_left _ hin), hsecond.data⟩, hsecond⟩

/-! ## What is delivered -/

/-- Every frame is JSON. -/
def Sound (parse : List Char → Option Value) (frames : List (List (List Char))) : Prop :=
  ∀ frame ∈ frames, (parse (joinFields frame)).isSome

instance (frames : List (List (List Char))) : Decidable (Sound parse frames) :=
  inferInstanceAs (Decidable (∀ frame ∈ frames, _))

theorem deliver_cons (error : SseError) (frame : List (List Char))
    (rest : List (List (List Char))) :
    deliver parse error (frame :: rest) =
      match parse (joinFields frame) with
      | none => ([], .invalidJson)
      | some value => (value :: (deliver parse error rest).1, (deliver parse error rest).2) := rfl

theorem deliver_cons_some {frame : List (List Char)} {value : Value}
    (h : parse (joinFields frame) = some value) (error : SseError)
    (rest : List (List (List Char))) :
    deliver parse error (frame :: rest) =
      (value :: (deliver parse error rest).1, (deliver parse error rest).2) := by
  rw [deliver_cons, h]

theorem deliver_cons_none {frame : List (List Char)} (h : parse (joinFields frame) = none)
    (error : SseError) (rest : List (List (List Char))) :
    deliver parse error (frame :: rest) = ([], .invalidJson) := by
  rw [deliver_cons, h]

theorem deliver_append {first : List (List (List Char))} (h : Sound parse first)
    (error other : SseError) (second : List (List (List Char))) :
    deliver parse error (first ++ second) =
      ((deliver parse other first).1 ++ (deliver parse error second).1,
        (deliver parse error second).2) := by
  induction first with
  | nil => rfl
  | cons frame rest ih =>
    obtain ⟨value, hvalue⟩ := Option.isSome_iff_exists.mp (h frame List.mem_cons_self)
    have htail := ih fun other hin => h other (List.mem_cons_of_mem frame hin)
    rw [List.cons_append, deliver_cons_some hvalue, deliver_cons_some hvalue, htail]
    rfl

theorem deliver_unsound {first : List (List (List Char))} (h : ¬Sound parse first)
    (error other : SseError) (second : List (List (List Char))) :
    deliver parse error (first ++ second) = deliver parse other first ∧
      (deliver parse other first).2 = .invalidJson := by
  induction first with
  | nil => exact absurd (fun _ hin => absurd hin List.not_mem_nil) h
  | cons frame rest ih =>
    cases hframe : parse (joinFields frame) with
    | none =>
      rw [List.cons_append, deliver_cons_none hframe, deliver_cons_none hframe]
      exact ⟨rfl, rfl⟩
    | some value =>
      have hrest : ¬Sound parse rest := by
        intro hrest
        apply h
        intro other hin
        obtain rfl | hin := List.mem_cons.mp hin
        · rw [hframe]
          rfl
        · exact hrest other hin
      obtain ⟨heq, herror⟩ := ih hrest
      rw [List.cons_append, deliver_cons_some hframe, deliver_cons_some hframe, heq]
      exact ⟨rfl, herror⟩

theorem deliver_sound {frames : List (List (List Char))} (h : Sound parse frames)
    (error other : SseError) :
    deliver parse error frames = ((deliver parse other frames).1, error) := by
  have hnil := deliver_append h error other []
  rw [List.append_nil] at hnil
  rw [hnil]
  exact Prod.ext (List.append_nil _) rfl

theorem deliver_error (error : SseError) (frames : List (List (List Char))) :
    (deliver parse error frames).2 = error ∨ (deliver parse error frames).2 = .invalidJson := by
  by_cases h : Sound parse frames
  · rw [deliver_sound h error error]
    exact Or.inl rfl
  · exact Or.inr (deliver_unsound h error error []).2

theorem deliver_eq_nil_iff (frames : List (List (List Char))) :
    deliver parse .invalidUtf8 frames = ([], .invalidUtf8) ↔ frames = [] := by
  constructor
  · intro h
    cases frames with
    | nil => rfl
    | cons frame rest =>
      cases hframe : parse (joinFields frame) with
      | none =>
        rw [deliver_cons_none hframe] at h
        cases h
      | some value =>
        rw [deliver_cons_some hframe] at h
        cases h
  · rintro rfl
    rfl

/-! ## Lines -/

def runLines (parse : List Char → Option Value) (maxFrameBytes : Nat) (frame : SseFrame Value) :
    List (List Char) → SseFrame Value × Option SseError
  | [] => (frame, none)
  | line :: rest =>
    match sseLine parse maxFrameBytes line frame with
    | (frame, some error) => (frame, some error)
    | (frame, none) => runLines parse maxFrameBytes frame rest

theorem sseLines_eq (eof : Bool) (buffered : List Char) (frame : SseFrame Value) :
    ∃ rest, sseLines parse maxFrameBytes eof buffered frame =
        (rest, runLines parse maxFrameBytes frame (splitLines eof buffered).1) ∧
      ((runLines parse maxFrameBytes frame (splitLines eof buffered).1).2 = none →
        rest = (splitLines eof buffered).2) := by
  rw [sseLines]
  split
  · rename_i hbreak
    have hnil : (splitLines eof []).1 = [] := rfl
    have hnone := splitLines_none eof (firstBreak_none hbreak) hnil
    rw [List.append_nil] at hnone
    rw [hnone]
    exact ⟨buffered, rfl, fun _ => (List.append_nil _).symm⟩
  · rename_i value c rest hbreak
    obtain ⟨htext, hc, hvalue⟩ := firstBreak_some hbreak
    by_cases hheld : c = '\r' ∧ rest = [] ∧ (!eof) = true
    · rw [if_pos hheld]
      obtain ⟨rfl, rfl, heof⟩ := hheld
      rw [Bool.not_eq_true'] at heof
      subst heof
      have hheld : (splitLines false ['\r']).1 = [] := rfl
      rw [htext, splitLines_none false hvalue hheld]
      exact ⟨_, rfl, fun _ => rfl⟩
    · rw [if_neg hheld, htext, splitLines_break hc hvalue hheld]
      dsimp only
      unfold runLines
      cases hline : sseLine parse maxFrameBytes value frame with
      | mk next error =>
        cases error with
        | some error => exact ⟨_, rfl, fun h => by cases h⟩
        | none => exact sseLines_eq eof (afterBreak c rest) next
termination_by buffered.length
decreasing_by
  rw [htext, List.length_append, List.length_cons]
  unfold afterBreak
  split
  · rw [List.length_drop]
    omega
  · omega

theorem sseLine_data {line field : List Char} {frame : SseFrame Value} (hline : line ≠ [])
    (hfield : dataField line = some field) (hbytes : frame.bytes = dataBytes frame.data)
    (hwithin : Within maxFrameBytes (frame.data ++ [field])) :
    sseLine parse maxFrameBytes line frame =
      (⟨frame.data ++ [field], dataBytes (frame.data ++ [field]), frame.delivered⟩, none) := by
  obtain ⟨hsize, hlength⟩ := hwithin
  rw [List.length_append, List.length_singleton] at hlength
  rw [dataBytes_concat] at hsize ⊢
  unfold sseLine
  rw [if_neg hline, hfield]
  dsimp only
  rw [hbytes, if_neg (by omega)]

/-- Lines are read up to the first frame that is no JSON, and to their end where there is none. -/
def ReadsLines (parse : List Char → Option Value) (maxFrameBytes : Nat) (frame : SseFrame Value)
    (lines : List (List Char)) : Prop :=
  ∃ next error, runLines parse maxFrameBytes frame lines = (next, error) ∧
    next.delivered =
      frame.delivered ++ (deliver parse .streamClosed (readFrames frame.data lines).1).1 ∧
    (Sound parse (readFrames frame.data lines).1 → error = none ∧
      next.data = (readFrames frame.data lines).2 ∧ next.bytes = dataBytes next.data) ∧
    (¬Sound parse (readFrames frame.data lines).1 → error = some .invalidJson)

theorem ReadsLines.cons {line : List Char} {rest : List (List Char)} {frame next : SseFrame Value}
    (hline : sseLine parse maxFrameBytes line frame = (next, none))
    (hframes : readFrames frame.data (line :: rest) = readFrames next.data rest)
    (hdelivered : next.delivered = frame.delivered)
    (h : ReadsLines parse maxFrameBytes next rest) :
    ReadsLines parse maxFrameBytes frame (line :: rest) := by
  unfold ReadsLines runLines
  rw [hline, hframes, ← hdelivered]
  exact h

theorem readsLines {lines : List (List Char)} {frame : SseFrame Value}
    (hbytes : frame.bytes = dataBytes frame.data)
    (hwithin : AllWithin maxFrameBytes (readFrames frame.data lines)) :
    ReadsLines parse maxFrameBytes frame lines := by
  induction lines generalizing frame with
  | nil =>
    have hsound : Sound parse (readFrames frame.data []).1 :=
      fun _ hin => absurd hin List.not_mem_nil
    exact ⟨frame, none, rfl, (List.append_nil _).symm, fun _ => ⟨rfl, rfl, hbytes⟩,
      fun hunsound => absurd hsound hunsound⟩
  | cons line rest ih =>
    have hframes := readFrames_cons frame.data line rest
    by_cases hline : line = []
    · rw [if_pos hline] at hframes
      by_cases hdata : frame.data = []
      · rw [if_pos hdata] at hframes
        have hread : sseLine parse maxFrameBytes line frame = (frame, none) := by
          unfold sseLine
          rw [if_pos hline, if_pos hdata]
        rw [← hdata] at hframes
        rw [hframes] at hwithin
        exact .cons hread hframes rfl (ih hbytes hwithin)
      · rw [if_neg hdata] at hframes
        rw [hframes] at hwithin
        unfold ReadsLines runLines
        rw [hframes]
        cases hvalue : parse (joinFields frame.data) with
        | none =>
          have hread : sseLine parse maxFrameBytes line frame =
              (frame, some .invalidJson) := by
            unfold sseLine
            rw [if_pos hline, if_neg hdata, hvalue]
          rw [hread, deliver_cons_none hvalue]
          have hunsound : ¬Sound parse (frame.data :: (readFrames [] rest).1) := by
            intro hsound
            have hframe := hsound _ List.mem_cons_self
            rw [hvalue] at hframe
            cases hframe
          exact ⟨frame, _, rfl, (List.append_nil _).symm,
            fun hsound => absurd hsound hunsound, fun _ => rfl⟩
        | some value =>
          have hread : sseLine parse maxFrameBytes line frame =
              (⟨[], 0, frame.delivered ++ [value]⟩, none) := by
            unfold sseLine
            rw [if_pos hline, if_neg hdata, hvalue]
          have htail : AllWithin maxFrameBytes (readFrames [] rest) :=
            ⟨fun other hin => hwithin.1 other (List.mem_cons_of_mem _ hin), hwithin.2⟩
          obtain ⟨next, error, hrun, hdelivered, hsound, hunsound⟩ :=
            @ih ⟨[], 0, frame.delivered ++ [value]⟩ rfl htail
          have hiff : Sound parse (frame.data :: (readFrames [] rest).1) ↔
              Sound parse (readFrames [] rest).1 := by
            unfold Sound
            rw [List.forall_mem_cons, hvalue]
            exact and_iff_right rfl
          rw [List.append_assoc] at hdelivered
          rw [hread, deliver_cons_some hvalue, hiff]
          exact ⟨next, error, hrun, hdelivered, hsound, hunsound⟩
    · rw [if_neg hline] at hframes
      cases hfield : dataField line with
      | none =>
        rw [hfield] at hframes
        have hread : sseLine parse maxFrameBytes line frame = (frame, none) := by
          unfold sseLine
          rw [if_neg hline, hfield]
        rw [hframes] at hwithin
        exact .cons hread hframes rfl (ih hbytes hwithin)
      | some field =>
        rw [hfield] at hframes
        rw [hframes] at hwithin
        exact .cons (sseLine_data hline hfield hbytes hwithin.data) hframes rfl
          (ih rfl hwithin)

end HarnessControl.OpenCode
