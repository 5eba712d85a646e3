import HarnessControl.Library.ChunkedLines
import HarnessControl.Library.JsonEquality
import HarnessControl.LocalActions.UnifiedDiff

/-!
# Recording a reviewed tool result

A reviewed call and its result are put into the native history.  The history is a file of records,
one a line; it is read first, and what it already holds is not put into it again.
-/

namespace HarnessControl.Codex

open HarnessControl.Library HarnessControl.Library.JsonText

variable {ν : Type}

/-! ## Continuations -/

inductive ContinuationOutcome (ν : Type) where
  | declined
  | completed (result : Value ν)

structure HarnessMcpContinuation (ν : Type) where
  native_thread_id : Units
  request_id : Units
  attachment_name : Units
  tool_name : Units
  arguments : Value ν
  outcome : ContinuationOutcome ν

def HarnessMcpContinuation.callId (continuation : HarnessMcpContinuation ν) : Units :=
  Utf16.text "reviewed_" ++ continuation.request_id

def nativeMcpNamespace (sha256 : Units → Units) (attachmentName : Units) : Units :=
  Utf16.text "mcp_" ++ (sha256 attachmentName).take 24

/-! ## Records -/

inductive ContinuationError where
  /-- What `JSON.parse` or a schema throws. -/
  | invalid
  | historyError (message : String)

structure NativeRecord (ν : Type) where
  type : Units
  payload : List (Units × Value ν)

/-- `recordSchema.parse(JSON.parse(line))`. -/
def readRecord (numerals : Numerals ν) (line : Units) : Option (NativeRecord ν) :=
  match parse numerals (Utf16.characters line) with
  | some (.object members) =>
    match members.lookup (Utf16.text "type"), members.lookup (Utf16.text "payload") with
    | some (.string type), some (.object payload) => some ⟨type, payload⟩
    | _, _ => none
  | _ => none

def NativeRecord.field (record : NativeRecord ν) (key : String) : Option Units :=
  match record.payload.lookup (Utf16.text key) with
  | some (.string value) => some value
  | _ => none

structure Found where
  sessionMatches : Bool
  callFound : Bool
  outputFound : Bool

variable [DecidableEq ν]

/-- A text in a record is that of the reviewed value. -/
def checkText (numerals : Numerals ν) (message : String) (text : Option Units) (value : Value ν) :
    Except ContinuationError Unit :=
  match text with
  | none => .error (.historyError message)
  | some text =>
    match parse numerals (Utf16.characters text) with
    | none => .error .invalid
    | some read => if deepEqual read value then .ok () else .error (.historyError message)

def callDiffers : String := "Native call differs from its durable reviewed operation."

def resultDiffers : String := "Native result differs from its durable reviewed operation."

section

variable (numerals : Numerals ν) (sha256 : Units → Units) (threadId : Units)
  (continuation : HarnessMcpContinuation ν) (result : Value ν)

/-- One record of the native history. -/
def consume (found : Found) (line : Units) : Except ContinuationError Found :=
  match readRecord numerals line with
  | none => .error .invalid
  | some record =>
    if record.type = Utf16.text "session_meta" ∧ record.field "id" ≠ some threadId then
      .error (.historyError "Native rollout has another session identity.")
    else
      let found := if record.type = Utf16.text "session_meta" then
        { found with sessionMatches := true } else found
      if record.type ≠ Utf16.text "response_item" ∨
          record.field "call_id" ≠ some continuation.callId then .ok found
      else if record.field "type" = some (Utf16.text "function_call") then
        if record.field "namespace" ≠
              some (nativeMcpNamespace sha256 continuation.attachment_name) ∨
            record.field "name" ≠ some continuation.tool_name then
          .error (.historyError callDiffers)
        else
          (checkText numerals callDiffers (record.field "arguments") continuation.arguments).map
            fun _ => { found with callFound := true }
      else if record.field "type" = some (Utf16.text "function_call_output") then
        (checkText numerals resultDiffers (record.field "output") result).map
          fun _ => { found with outputFound := true }
      else .error (.historyError "Native review identity was reused by another item.")

def newline : UInt16 := 10

def maxRecordLength : Nat := 8 * 1024 * 1024

def maxHistorySize : Nat := 128 * 1024 * 1024

structure ThreadReply where
  id : Units
  path : Units

structure FileStat where
  isFile : Bool
  size : Nat

/-- The items of `thread/inject_items`. -/
structure ReviewedItems (ν : Type) where
  call : List (Units × Value ν)
  output : List (Units × Value ν)

def reviewedItems : ReviewedItems ν where
  call := [(Utf16.text "type", .string (Utf16.text "function_call")),
    (Utf16.text "call_id", .string continuation.callId),
    (Utf16.text "namespace", .string (nativeMcpNamespace sha256 continuation.attachment_name)),
    (Utf16.text "name", .string continuation.tool_name),
    (Utf16.text "arguments", .string (Utf16.units (stringify numerals continuation.arguments)))]
  output := [(Utf16.text "type", .string (Utf16.text "function_call_output")),
    (Utf16.text "call_id", .string continuation.callId),
    (Utf16.text "output", .string (Utf16.units (stringify numerals result)))]

/-- What the history says once it was read, or the items that it lacks. -/
def concludeHistory (found : Found) (buffer : Units) :
    Except ContinuationError (Option (ReviewedItems ν)) :=
  -- `buffer.trim()`
  if buffer.any fun unit => !LocalActions.isWhitespace unit then
    .error (.historyError "Native history ended with an uncommitted record.")
  else if found.sessionMatches = false ∨ found.callFound ≠ found.outputFound then
    .error (.historyError "Native history has an incomplete reviewed operation.")
  else if found.callFound = false then
    .ok (some (reviewedItems numerals sha256 continuation result))
  else .ok none

end

/-- The call up to `thread/inject_items`: the items to inject, if any. -/
def recordMcpContinuation (numerals : Numerals ν) (sha256 : Units → Units)
    (threadId : Units) (continuation : HarnessMcpContinuation ν) (reply : Option ThreadReply)
    (file : FileStat) (chunks : List Units) :
    Except ContinuationError (Option (ReviewedItems ν)) :=
  match continuation.outcome with
  | .declined => .ok none
  | .completed result =>
    match reply with
    | none => .error .invalid
    | some thread =>
      if thread.path = [] then .error .invalid
      else if thread.id ≠ threadId then
        .error (.historyError "Native history belongs to another thread.")
      else if file.isFile = false ∨ maxHistorySize < file.size then
        .error (.historyError "Native history exceeds its recovery limit.")
      else
        (readChunks newline maxRecordLength
          (.historyError "Native history record exceeds its recovery limit.")
          (consume numerals sha256 threadId continuation result)
          ⟨false, false, false⟩ [] chunks).bind fun read =>
            concludeHistory numerals sha256 continuation result read.1 read.2

end HarnessControl.Codex
