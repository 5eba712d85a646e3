import HarnessControl.Library.FatalUtf8
import HarnessControl.Library.LineBreaks
import HarnessControl.OpenCode.TextProjection

/-!
# The native event stream

Chunks of bytes are decoded, their text is cut into lines, and an empty line ends a frame of data
fields.  What the stream says does not depend on the chunks; what is read of it may.
-/

namespace HarnessControl.OpenCode

open HarnessControl.Library

/-- `HARNESS_CONTENT_MAX_BYTES`. -/
def harnessContentMaxBytes : Nat := 128 * 1024 * 1024

/-- `Buffer.byteLength` of a text without lone surrogates. -/
def textBytes (text : List Char) : Nat := (Utf8.encode text).length

inductive SseError where
  | frameLimit
  | invalidBound
  | invalidJson
  | invalidUtf8
  | incompleteFrame
  | streamClosed
deriving DecidableEq

/-- The data field of a line, without one space in front of it. -/
def dataField (line : List Char) : Option (List Char) :=
  if "data:".toList.isPrefixOf line then
    match line.drop 5 with
    | ' ' :: field => some field
    | field => some field
  else none

/-- `data.join("\n")`. -/
def joinFields : List (List Char) → List Char
  | [] => []
  | [field] => field
  | field :: rest => field ++ '\n' :: joinFields rest

/-! ## The consumer -/

section

variable {Value : Type} (parse : List Char → Option Value) (maxFrameBytes : Nat)

structure SseFrame (Value : Type) where
  data : List (List Char)
  bytes : Nat
  /-- What `onData` was called with. -/
  delivered : List Value

def SseFrame.opened : SseFrame Value := ⟨[], 0, []⟩

/-- `line`, with the error that it throws. -/
def sseLine (value : List Char) (frame : SseFrame Value) : SseFrame Value × Option SseError :=
  if value = [] then
    if frame.data = [] then (frame, none)
    else
      match parse (joinFields frame.data) with
      | none => (frame, some .invalidJson)
      | some event => (⟨[], 0, frame.delivered ++ [event]⟩, none)
  else
    match dataField value with
    | none => (frame, none)
    | some field =>
      let bytes := frame.bytes + (textBytes field + 1)
      if maxFrameBytes < bytes ∨ 10000 ≤ frame.data.length then
        ({ frame with bytes := bytes }, some .frameLimit)
      else ({ frame with bytes := bytes, data := frame.data ++ [field] }, none)

/-- `lines`, with the text that stays buffered. -/
def sseLines (eof : Bool) (buffered : List Char) (frame : SseFrame Value) :
    List Char × SseFrame Value × Option SseError :=
  match _hbreak : firstBreak buffered with
  | none => (buffered, frame, none)
  | some (value, c, rest) =>
    if c = '\r' ∧ rest = [] ∧ !eof then (buffered, frame, none)
    else
      let rest' := afterBreak c rest
      match sseLine parse maxFrameBytes value frame with
      | (frame, some error) => (rest', frame, some error)
      | (frame, none) => sseLines eof rest' frame
termination_by buffered.length
decreasing_by
  obtain ⟨rfl, -, -⟩ := firstBreak_some _hbreak
  rw [List.length_append, List.length_cons]
  unfold afterBreak
  split
  · rw [List.length_drop]
    omega
  · omega

/-- The reads that are still to come, the last of them at the end of the stream. -/
def sseReads (decoder : Utf8.TextDecoder) (buffered : List Char) (frame : SseFrame Value) :
    List (List UInt8) → List Value × SseError
  | [] =>
    match decoder.decode true [] with
    | none => (frame.delivered, .invalidUtf8)
    | some (text, _) =>
      let buffered := buffered ++ text
      if maxFrameBytes < textBytes buffered then (frame.delivered, .frameLimit)
      else
        match sseLines parse maxFrameBytes true buffered frame with
        | (_, frame, some error) => (frame.delivered, error)
        | (buffered, frame, none) =>
          if buffered ≠ [] ∨ frame.data ≠ [] then (frame.delivered, .incompleteFrame)
          else (frame.delivered, .streamClosed)
  | chunk :: rest =>
    match decoder.decode false chunk with
    | none => (frame.delivered, .invalidUtf8)
    | some (text, decoder) =>
      let buffered := buffered ++ text
      if maxFrameBytes < textBytes buffered then (frame.delivered, .frameLimit)
      else
        match sseLines parse maxFrameBytes false buffered frame with
        | (_, frame, some error) => (frame.delivered, error)
        | (buffered, frame, none) => sseReads decoder buffered frame rest

/-- What `onData` is called with, and the error that ends it. -/
def consumeNativeSse (chunks : List (List UInt8)) : List Value × SseError :=
  if maxFrameBytes < 1 ∨ harnessContentMaxBytes < maxFrameBytes then ([], .invalidBound)
  else sseReads parse maxFrameBytes .opened [] .opened chunks

end

/-! ## What the stream says -/

section

variable {Value : Type} (parse : List Char → Option Value)

/-- The data of the frames that lines end, and of the frame that has not ended. -/
def readFrames (data : List (List Char)) :
    List (List Char) → List (List (List Char)) × List (List Char)
  | [] => ([], data)
  | line :: rest =>
    if line = [] then
      if data = [] then readFrames [] rest
      else (data :: (readFrames [] rest).1, (readFrames [] rest).2)
    else
      match dataField line with
      | none => readFrames data rest
      | some field => readFrames (data ++ [field]) rest

/-- The frames that a text ends; a CR at its end is a line break only at the end of the stream. -/
def framesOf (eof : Bool) (text : List Char) : List (List (List Char)) :=
  (readFrames [] (splitLines eof text).1).1

/-- The values of frames up to the first that is no JSON, and then an error. -/
def deliver (error : SseError) : List (List (List Char)) → List Value × SseError
  | [] => ([], error)
  | frame :: rest =>
    match parse (joinFields frame) with
    | none => ([], .invalidJson)
    | some value => (value :: (deliver error rest).1, (deliver error rest).2)

def streamReading (bytes : List UInt8) : List Value × SseError :=
  let text := splitLines true (Utf8.streamText bytes)
  let frames := readFrames [] text.1
  deliver parse
    (if !Utf8.valid bytes then .invalidUtf8
      else if text.2 ≠ [] ∨ frames.2 ≠ [] then .incompleteFrame
      else .streamClosed)
    frames.1

end

end HarnessControl.OpenCode
