import HarnessControl.OpenCode.EventStreamReading

/-!
# Chunks of the event stream

A read adds the text of one chunk to what is held back.  The bound on that sum counts the frames and
lines that the chunk completes, and a chunk with an invalid sequence in it gives no text at all.
-/

namespace HarnessControl.OpenCode

open HarnessControl.Library

variable {Value : Type} {parse : List Char → Option Value} {maxFrameBytes : Nat}

/-! ## Between two reads -/

def heldText (text : List Char) : List Char := (splitLines false text).2

/-- The open frame of a text, with the values of the frames before it. -/
def frameOf (parse : List Char → Option Value) (eof : Bool) (text : List Char) : SseFrame Value :=
  let frames := readFrames [] (splitLines eof text).1
  ⟨frames.2, dataBytes frames.2, (deliver parse .streamClosed frames.1).1⟩

def TextWithin (maxFrameBytes : Nat) (eof : Bool) (text : List Char) : Prop :=
  AllWithin maxFrameBytes (readFrames [] (splitLines eof text).1)

theorem framesOf_append (eof : Bool) (text read : List Char) :
    framesOf eof (text ++ read) = framesOf false text ++
      (readFrames (frameOf parse false text).data (splitLines eof (heldText text ++ read)).1).1 := by
  unfold framesOf
  rw [splitLines_append, readFrames_append]
  rfl

theorem frameOf_append (eof : Bool) (text read : List Char) :
    (frameOf parse eof (text ++ read)).data =
      (readFrames (frameOf parse false text).data (splitLines eof (heldText text ++ read)).1).2 := by
  unfold frameOf
  rw [splitLines_append, readFrames_append]
  rfl

theorem TextWithin.append {eof : Bool} {text read : List Char}
    (h : TextWithin maxFrameBytes eof (text ++ read)) :
    TextWithin maxFrameBytes false text ∧
      AllWithin maxFrameBytes
        (readFrames (readFrames [] (splitLines false text).1).2
          (splitLines eof (heldText text ++ read)).1) := by
  unfold TextWithin at h
  rw [splitLines_append] at h
  exact h.split

theorem sseLines_read {eof : Bool} {text read : List Char}
    (hbefore : Sound parse (framesOf false text))
    (hwithin : TextWithin maxFrameBytes eof (text ++ read)) :
    ∃ rest next error,
      sseLines parse maxFrameBytes eof (heldText text ++ read) (frameOf parse false text) =
        (rest, next, error) ∧
      next.delivered = (deliver parse .streamClosed (framesOf eof (text ++ read))).1 ∧
      (Sound parse (framesOf eof (text ++ read)) → error = none ∧
        rest = (splitLines eof (text ++ read)).2 ∧ next = frameOf parse eof (text ++ read)) ∧
      (¬Sound parse (framesOf eof (text ++ read)) → error = some .invalidJson) := by
  obtain ⟨-, hread⟩ := hwithin.append
  obtain ⟨next, error, hrun, hdelivered, hsound, hunsound⟩ :=
    @readsLines _ parse _ _ (frameOf parse false text) rfl hread
  obtain ⟨rest, hlines, hrest⟩ := @sseLines_eq _ parse maxFrameBytes eof (heldText text ++ read)
    (frameOf parse false text)
  have hframes := @framesOf_append _ parse eof text read
  have hiff : Sound parse (framesOf eof (text ++ read)) ↔ Sound parse
      (readFrames (frameOf parse false text).data (splitLines eof (heldText text ++ read)).1).1 := by
    rw [hframes]
    unfold Sound
    rw [List.forall_mem_append]
    exact and_iff_right hbefore
  have hnext : next.delivered = (deliver parse .streamClosed (framesOf eof (text ++ read))).1 := by
    rw [hframes, deliver_append hbefore .streamClosed .streamClosed]
    exact hdelivered
  rw [hrun] at hlines hrest
  refine ⟨rest, next, error, hlines, hnext, ?_, fun h => hunsound (mt hiff.mpr h)⟩
  intro h
  obtain ⟨hnone, hdata, hbytes⟩ := hsound (hiff.mp h)
  refine ⟨hnone, ?_, ?_⟩
  · rw [hrest hnone, splitLines_append eof text read]
    rfl
  · rw [← frameOf_append] at hdata
    obtain ⟨data, bytes, delivered⟩ := next
    dsimp only at hdata hbytes hnext
    rw [hbytes, hdata, hnext]
    rfl

theorem textBytes_suffix {held text : List Char} (h : held <:+ text) :
    textBytes held ≤ textBytes text := by
  obtain ⟨front, rfl⟩ := h
  unfold textBytes
  rw [Utf8.encode_append, List.length_append]
  omega

theorem heldText_append (text read : List Char) :
    textBytes (heldText (text ++ read)) ≤ textBytes (heldText text ++ read) := by
  unfold heldText
  rw [splitLines_append]
  exact textBytes_suffix (splitLines_suffix false _).1

/-! ## The reads -/

def chunkText (before chunk : List UInt8) : List Char :=
  (Utf8.streamText (before ++ chunk)).drop (Utf8.streamText before).length

/-- The reads after some bytes go as the bytes of the stream say. -/
def Admitted (parse : List Char → Option Value) (maxFrameBytes : Nat) (before : List UInt8) :
    List (List UInt8) → Prop
  | [] =>
    Utf8.valid before = true ∨
      framesOf true (Utf8.streamText before) = framesOf false (Utf8.streamText before)
  | chunk :: rest =>
    let text := Utf8.streamText (before ++ chunk)
    if Utf8.readable [] (before ++ chunk) then
      textBytes (heldText (Utf8.streamText before) ++ chunkText before chunk) ≤ maxFrameBytes ∧
        (Sound parse (framesOf false text) → Admitted parse maxFrameBytes (before ++ chunk) rest)
    else framesOf true text = framesOf false (Utf8.streamText before)

theorem deliver_invalid {text : List Char} (hbefore : Sound parse (framesOf false text))
    (read : List Char) :
    ((frameOf parse false text).delivered, SseError.invalidUtf8) =
        deliver parse .invalidUtf8 (framesOf true (text ++ read)) ↔
      framesOf true (text ++ read) = framesOf false text := by
  rw [@framesOf_append _ parse, deliver_append hbefore .invalidUtf8 .streamClosed,
    List.append_right_eq_self, ← @deliver_eq_nil_iff _ parse]
  have hdelivered : (frameOf parse false text).delivered =
      (deliver parse .streamClosed (framesOf false text)).1 := rfl
  rw [hdelivered, Prod.ext_iff, Prod.ext_iff]
  constructor
  · rintro ⟨hvalues, herror⟩
    exact ⟨List.self_eq_append_right.mp hvalues, herror.symm⟩
  · rintro ⟨hvalues, herror⟩
    exact ⟨List.self_eq_append_right.mpr hvalues, herror.symm⟩

variable {bytes : List UInt8}

theorem streamText_invalid (h : Utf8.readable [] bytes = false)
    (rest : List UInt8) :
    Utf8.streamText (bytes ++ rest) = Utf8.streamText bytes ∧
      Utf8.valid (bytes ++ rest) = false := by
  constructor
  · unfold Utf8.streamText
    rw [Utf8.readText_unreadable h]
  · unfold Utf8.valid
    rw [Utf8.validFrom_eq, Utf8.readable_append, h]
    rfl

theorem streamReading_invalid (h : Utf8.valid bytes = false) :
    streamReading parse bytes =
      deliver parse .invalidUtf8 (framesOf true (Utf8.streamText bytes)) := by
  unfold streamReading
  rw [h]
  rfl

theorem streamReading_unsound {first more : List (List (List Char))}
    (hframes : framesOf true (Utf8.streamText bytes) = first ++ more) (h : ¬Sound parse first) :
    streamReading parse bytes = ((deliver parse .streamClosed first).1, .invalidJson) := by
  have hdeliver : ∀ error, deliver parse error (framesOf true (Utf8.streamText bytes)) =
      ((deliver parse .streamClosed first).1, .invalidJson) := by
    intro error
    obtain ⟨heq, herror⟩ := deliver_unsound h error .streamClosed more
    rw [hframes, heq, ← herror]
  exact hdeliver _

theorem streamReading_sound (hvalid : Utf8.valid bytes = true)
    (h : Sound parse (framesOf true (Utf8.streamText bytes))) :
    streamReading parse bytes = ((frameOf parse true (Utf8.streamText bytes)).delivered,
      if (splitLines true (Utf8.streamText bytes)).2 ≠ [] ∨
          (frameOf parse true (Utf8.streamText bytes)).data ≠ [] then .incompleteFrame
      else .streamClosed) := by
  have hdeliver : ∀ error, deliver parse error (framesOf true (Utf8.streamText bytes)) =
      ((frameOf parse true (Utf8.streamText bytes)).delivered, error) := by
    intro error
    exact deliver_sound h error .streamClosed
  unfold streamReading
  rw [hvalid]
  exact hdeliver _

theorem streamReading_limit (parse : List Char → Option Value) (bytes : List UInt8) :
    (streamReading parse bytes).2 ≠ .frameLimit ∧ (streamReading parse bytes).2 ≠ .invalidBound := by
  unfold streamReading
  dsimp only
  generalize herror : (if (!Utf8.valid bytes) = true then SseError.invalidUtf8 else _) = error
  have hother : error ≠ .frameLimit ∧ error ≠ .invalidBound := by
    rw [← herror]
    split
    · exact ⟨nofun, nofun⟩
    · split <;> exact ⟨nofun, nofun⟩
  obtain h | h := @deliver_error _ parse error
    (readFrames [] (splitLines true (Utf8.streamText bytes)).1).1
  · rw [h]
    exact hother
  · rw [h]
    exact ⟨nofun, nofun⟩

theorem sseReads_nil {before : List UInt8} (hreadable : Utf8.readable [] before = true)
    (hsound : Sound parse (framesOf false (Utf8.streamText before)))
    (hheld : textBytes (heldText (Utf8.streamText before)) ≤ maxFrameBytes)
    (hwithin : TextWithin maxFrameBytes true (Utf8.streamText before)) :
    sseReads parse maxFrameBytes (.reached before) (heldText (Utf8.streamText before))
        (frameOf parse false (Utf8.streamText before)) [] = streamReading parse before ↔
      Admitted parse maxFrameBytes before [] := by
  unfold sseReads Admitted
  cases hdecode : (Utf8.TextDecoder.reached before).decode true [] with
  | none =>
    obtain hread | ⟨-, hinvalid⟩ := Utf8.TextDecoder.decode_none hreadable hdecode
    · rw [List.append_nil, hreadable] at hread
      cases hread
    · rw [List.append_nil] at hinvalid
      have hdeliver := deliver_invalid hsound []
      rw [List.append_nil] at hdeliver
      rw [streamReading_invalid hinvalid, hinvalid]
      dsimp only
      rw [hdeliver]
      exact (or_iff_right nofun).symm
  | some read =>
    obtain ⟨text, decoder⟩ := read
    obtain ⟨-, -, htext, hvalid⟩ := Utf8.TextDecoder.decode_some hreadable hdecode
    rw [List.append_nil] at htext hvalid
    have hnil := List.self_eq_append_right.mp htext
    subst hnil
    have hread := hwithin
    rw [← List.append_nil (Utf8.streamText before)] at hread
    obtain ⟨rest, next, error, hlines, hdelivered, hnone, hjson⟩ := sseLines_read hsound hread
    rw [List.append_nil] at hlines hdelivered hnone hjson
    rw [hvalid rfl]
    dsimp only
    rw [List.append_nil, if_neg (by omega), hlines]
    refine iff_of_true ?_ (Or.inl rfl)
    by_cases hframes : Sound parse (framesOf true (Utf8.streamText before))
    · obtain ⟨rfl, rfl, rfl⟩ := hnone hframes
      rw [streamReading_sound (hvalid rfl) hframes]
      dsimp only
      split <;> rfl
    · rw [hjson hframes, streamReading_unsound (List.append_nil _).symm hframes]
      dsimp only
      rw [hdelivered]

theorem sseReads_iff {before : List UInt8} {chunks : List (List UInt8)}
    (hreadable : Utf8.readable [] before = true)
    (hsound : Sound parse (framesOf false (Utf8.streamText before)))
    (hheld : textBytes (heldText (Utf8.streamText before)) ≤ maxFrameBytes)
    (hwithin : TextWithin maxFrameBytes true (Utf8.streamText (before ++ chunks.flatten))) :
    sseReads parse maxFrameBytes (.reached before) (heldText (Utf8.streamText before))
        (frameOf parse false (Utf8.streamText before)) chunks =
      streamReading parse (before ++ chunks.flatten) ↔
      Admitted parse maxFrameBytes before chunks := by
  induction chunks generalizing before with
  | nil =>
    rw [List.flatten_nil, List.append_nil] at hwithin ⊢
    exact sseReads_nil hreadable hsound hheld hwithin
  | cons chunk rest ih =>
    rw [List.flatten_cons, ← List.append_assoc] at hwithin ⊢
    unfold sseReads Admitted
    cases hdecode : (Utf8.TextDecoder.reached before).decode false chunk with
    | none =>
      obtain hread | ⟨hlast, -⟩ := Utf8.TextDecoder.decode_none hreadable hdecode
      · obtain ⟨htext, hinvalid⟩ := streamText_invalid hread rest.flatten
        obtain ⟨more, hmore⟩ := Utf8.streamText_extends hreadable chunk
        have hdeliver := deliver_invalid hsound more
        rw [← hmore] at hdeliver
        rw [streamReading_invalid hinvalid, htext, hread]
        exact hdeliver
      · cases hlast
    | some read =>
      obtain ⟨text, decoder⟩ := read
      obtain ⟨hread, rfl, htext, -⟩ := Utf8.TextDecoder.decode_some hreadable hdecode
      have hchunk : chunkText before chunk = text := by
        unfold chunkText
        rw [htext, List.drop_left]
      rw [if_pos hread, hchunk]
      dsimp only
      by_cases hbound : maxFrameBytes < textBytes (heldText (Utf8.streamText before) ++ text)
      · rw [if_pos hbound]
        refine iff_of_false ?_ (fun h => by omega)
        intro heq
        apply (streamReading_limit parse (before ++ chunk ++ rest.flatten)).1
        rw [← heq]
      · rw [if_neg hbound]
        obtain ⟨more, hmore⟩ := Utf8.streamText_extends hread rest.flatten
        have hchunkWithin := hwithin
        rw [hmore] at hchunkWithin
        have hreadWithin := hchunkWithin.append.1
        rw [htext] at hreadWithin
        obtain ⟨held, next, error, hlines, hdelivered, hnone, hjson⟩ :=
          sseLines_read hsound hreadWithin
        rw [← htext] at hdelivered hnone hjson
        rw [hlines]
        by_cases hframes : Sound parse (framesOf false (Utf8.streamText (before ++ chunk)))
        · obtain ⟨rfl, rfl, rfl⟩ := hnone hframes
          have hle := heldText_append (Utf8.streamText before) text
          rw [← htext] at hle
          dsimp only
          rw [and_iff_right (by omega), imp_iff_right hframes]
          exact ih hread hframes (by omega) hwithin
        · have hjsonError := hjson hframes
          subst hjsonError
          have hall := @framesOf_append _ parse true (Utf8.streamText (before ++ chunk)) more
          rw [← hmore] at hall
          refine iff_of_true ?_ ⟨by omega, fun h => absurd h hframes⟩
          rw [streamReading_unsound hall hframes, ← hdelivered]

/-! ## The stream -/

/-- What is delivered of a stream of small frames is what the stream says, where its chunks admit
that and nowhere else. -/
theorem stream_read {chunks : List (List UInt8)}
    (hwithin : TextWithin maxFrameBytes true (Utf8.streamText chunks.flatten)) :
    consumeNativeSse parse maxFrameBytes chunks = streamReading parse chunks.flatten ↔
      (1 ≤ maxFrameBytes ∧ maxFrameBytes ≤ harnessContentMaxBytes) ∧
        Admitted parse maxFrameBytes [] chunks := by
  unfold consumeNativeSse
  by_cases hbound : maxFrameBytes < 1 ∨ harnessContentMaxBytes < maxFrameBytes
  · rw [if_pos hbound]
    refine iff_of_false ?_ (fun h => by omega)
    intro heq
    apply (streamReading_limit parse chunks.flatten).2
    rw [← heq]
  · rw [if_neg hbound, and_iff_right (by omega)]
    have hnone : Sound parse (framesOf false (Utf8.streamText [])) :=
      fun _ hin => absurd hin List.not_mem_nil
    exact @sseReads_iff _ parse maxFrameBytes [] chunks rfl hnone (Nat.zero_le _) hwithin

instance (frames : List (List (List Char)) × List (List Char)) :
    Decidable (AllWithin maxFrameBytes frames) :=
  inferInstanceAs (Decidable ((∀ frame ∈ frames.1, _ ∧ _) ∧ _ ∧ _))

instance (eof : Bool) (text : List Char) : Decidable (TextWithin maxFrameBytes eof text) :=
  inferInstanceAs (Decidable (AllWithin _ _))

instance Admitted.decidable : (before : List UInt8) → (chunks : List (List UInt8)) →
    Decidable (Admitted parse maxFrameBytes before chunks)
  | before, [] => inferInstanceAs (Decidable (Utf8.valid before = true ∨ _ = _))
  | before, chunk :: rest =>
    have := Admitted.decidable (before ++ chunk) rest
    inferInstanceAs (Decidable (if Utf8.readable [] (before ++ chunk) then _ ∧ (_ → _) else _))

def digitEvent : List Char → Option Nat
  | [c] => if c.isDigit then some (c.toNat - 48) else none
  | _ => none

/-- The frames `1` and `2`, of eight bytes each, with CRLF line breaks cut in two. -/
theorem stream_read_crlf :
    consumeNativeSse digitEvent 16
        [Utf8.encode "data:1\r".toList, Utf8.encode "\n\r".toList,
          Utf8.encode "\ndata: 2\r\n\r\n".toList] = ([1, 2], .streamClosed) := by
  have hreading : streamReading digitEvent [Utf8.encode "data:1\r".toList,
      Utf8.encode "\n\r".toList, Utf8.encode "\ndata: 2\r\n\r\n".toList].flatten =
      ([1, 2], .streamClosed) := by decide
  rw [← hreading]
  exact (stream_read (by decide)).mpr ⟨by decide, by decide⟩

/-- Two frames of two bytes in one chunk are more than ten bytes, and neither is delivered. -/
theorem chunk_limited :
    ∃ chunk : List UInt8, TextWithin 10 true (Utf8.streamText chunk) ∧
      (∀ line ∈ (splitLines true (Utf8.streamText chunk)).1, textBytes line ≤ 10) ∧
      consumeNativeSse digitEvent 10 [chunk] = ([], .frameLimit) ∧
      streamReading digitEvent chunk = ([1, 2], .streamClosed) :=
  ⟨Utf8.encode "data:1\n\ndata:2\n\n".toList, by decide, by decide, by decide, by decide⟩

/-- A frame is lost where the chunk that completes it goes on with an invalid sequence. -/
example : consumeNativeSse digitEvent 16 [Utf8.encode "data:1\n\n".toList ++ [0xFF]] =
    ([], .invalidUtf8) := by decide

end HarnessControl.OpenCode
