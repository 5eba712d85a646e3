import HarnessControl.Connection.CanonicalText
import HarnessControl.Library.Utf16

/-!
# The text of native parts

Snapshots and deltas tell the same text.  It is held back until its message is known to be the root's;
then what is new of it goes out in chunks, and a part that was closed goes out as a whole.
-/

namespace HarnessControl.OpenCode

open HarnessControl.Library HarnessControl.Connection

/-- A string of JavaScript, whose units may be cut apart anywhere. -/
abbrev Text := List UInt16

structure AdapterError where
  code : String
  message : String

/-! ## Content that is retained -/

/-- A code point inside a JSON string; a surrogate without a partner is escaped. -/
def escapePoint : Text → List Char
  | [unit] =>
    if Utf16.isHigh unit || Utf16.isLow unit then
      let n := unit.toNat
      ['\\', 'u', hexDigit (n / 4096), hexDigit (n / 256 % 16), hexDigit (n / 16 % 16),
        hexDigit (n % 16)]
    else escapeChar (Char.ofNat unit.toNat)
  | point => Utf16.characters point

/-- `JSON.stringify` of a string. -/
def stringified (text : Text) : List Char :=
  '"' :: (Utf16.codePoints text).flatMap escapePoint ++ ['"']

inductive RetainedContent (Reference : Type) where
  | whole (text : Text)
  | truncated (summary : List Char) (reference : Option Reference)

abbrev ContentPublisher (Reference : Type) := Text → Except AdapterError Reference

def retainedContent {Reference : Type} (value : Text)
    (publish : Option (ContentPublisher Reference)) :
    Except AdapterError (RetainedContent Reference) :=
  let encoded := stringified value
  if (Utf8.encode encoded).length ≤ 48 * 1024 then .ok (.whole value)
  else
    match publish with
    | none => .ok (.truncated (encoded.take 4096) none)
    | some publish => (publish value).map fun reference =>
      .truncated (encoded.take 4096) (some reference)

/-- The loop of `textChunks`. -/
def textChunksFrom (chunk : Text) (size : Nat) : List Text → List Text
  | [] => if chunk = [] then [] else [chunk]
  | character :: rest =>
    let bytes := (Utf16.toUtf8 character).length
    if 32 * 1024 < size + bytes then chunk :: textChunksFrom character bytes rest
    else textChunksFrom (chunk ++ character) (size + bytes) rest

def textChunks (text : Text) : List Text := textChunksFrom [] 0 (Utf16.codePoints text)

theorem flatten_textChunksFrom (chunk : Text) (size : Nat) (characters : List Text) :
    (textChunksFrom chunk size characters).flatten = chunk ++ characters.flatten := by
  induction characters generalizing chunk size with
  | nil =>
    unfold textChunksFrom
    split
    · rename_i hempty
      rw [hempty]
      rfl
    · rw [List.flatten_cons, List.flatten_nil]
  | cons character rest ih =>
    unfold textChunksFrom
    dsimp only
    split
    · rw [List.flatten_cons, ih, List.flatten_cons]
    · rw [ih, List.flatten_cons, List.append_assoc]

theorem flatten_textChunks (text : Text) : (textChunks text).flatten = text := by
  unfold textChunks
  rw [flatten_textChunksFrom, List.nil_append, Utf16.flatten_codePoints]

/-! ## Events -/

inductive PartType where
  | text
  | reasoning
deriving DecidableEq

structure MessageInfo where
  id : String
  sessionID : String
  role : String
  parentID : Option String

structure PartInfo where
  id : String
  messageID : String
  sessionID : String
  type : PartType
  text : Option Text
  /-- `time.end` is there. -/
  ended : Bool

structure PartDelta where
  sessionID : String
  messageID : String
  partID : String
  field : String
  delta : Text

/-- What `observe` reads of an event, `none` where the schema refuses it. -/
inductive TextEvent where
  | messageUpdated (info : Option MessageInfo)
  /-- Beside the part there may be a `delta` that is a string. -/
  | partUpdated (part : Option PartInfo) (delta : Option Text)
  | partDelta (delta : Option PartDelta)
  | other

/-- What is emitted: `content.delta` or `reasoning.delta` by the type, and `item.completed`. -/
inductive TextOutput (Reference : Type) where
  | delta (turnId : String) (type : PartType) (itemId messageId : String) (delta : Text)
  | completed (turnId : String) (type : PartType) (itemId messageId : String)
    (content : RetainedContent Reference)

/-! ## The projection -/

structure TextPart where
  id : String
  messageID : String
  type : PartType
  text : Text
  emitted : Nat
  closed : Bool
  completedEmitted : Bool

/-- What the projection is made with. -/
structure TextScope (Reference : Type) where
  sessionId : String
  promptId : String
  turnId : String
  publishContent : Option (ContentPublisher Reference)

structure OpenCodeText (Reference : Type) where
  owners : Dict String Bool
  parts : Dict String TextPart
  bytes : Int
  /-- Every event that was emitted. -/
  output : List (TextOutput Reference)

namespace OpenCodeText

variable {Reference : Type}

def opened : OpenCodeText Reference := ⟨Dict.empty, Dict.empty, 0, []⟩

def byteLength (text : Text) : Int := (Utf16.toUtf8 text).length

/-- `#replace`, of a part that is stored. -/
def replace (part : TextPart) (text : Text) (self : OpenCodeText Reference) :
    Except AdapterError (OpenCodeText Reference × TextPart) :=
  let bytes := self.bytes + (byteLength text - byteLength part.text)
  if 8 * 1024 * 1024 < bytes then
    .error ⟨"native_text_limit", "OpenCode exceeded its bounded native text retention."⟩
  else .ok ({ self with bytes := bytes }, { part with text := text })

def replaceIf (part : TextPart) (text : Option Text) (self : OpenCodeText Reference) :
    Except AdapterError (OpenCodeText Reference × TextPart) :=
  match text with
  | none => .ok (self, part)
  | some text => self.replace part text

/-- `#publish`; the part is stored as it is then. -/
def publish (scope : TextScope Reference) (part : TextPart) (self : OpenCodeText Reference) :
    Except AdapterError (OpenCodeText Reference) :=
  if self.owners.get? part.messageID ≠ some true then
    .ok { self with parts := self.parts.set part.id part }
  else if part.closed then
    let published := { part with completedEmitted := true, emitted := part.text.length }
    if part.completedEmitted then .ok { self with parts := self.parts.set part.id published }
    else
      (retainedContent part.text scope.publishContent).map fun content =>
        { self with
          parts := self.parts.set part.id published
          output := self.output ++
            [.completed scope.turnId part.type part.id part.messageID content] }
  else
    .ok { self with
      parts := self.parts.set part.id { part with emitted := part.text.length }
      output := self.output ++ (textChunks (part.text.drop part.emitted)).map
        (.delta scope.turnId part.type part.id part.messageID) }

def publishParts (scope : TextScope Reference) (messageID : String) :
    List TextPart → OpenCodeText Reference → Except AdapterError (OpenCodeText Reference)
  | [], self => .ok self
  | part :: rest, self =>
    if part.messageID = messageID then
      (self.publish scope part).bind (publishParts scope messageID rest)
    else publishParts scope messageID rest self

def bounded (self : OpenCodeText Reference) : Except AdapterError (OpenCodeText Reference) :=
  if 10000 < self.parts.size + self.owners.size then
    .error ⟨"native_text_limit", "OpenCode exceeded its bounded text ownership registry."⟩
  else .ok self

def messageUpdated (scope : TextScope Reference) (info : MessageInfo)
    (self : OpenCodeText Reference) : Except AdapterError (OpenCodeText Reference) :=
  match info.parentID with
  | none => .ok self
  | some parentID =>
    if info.sessionID ≠ scope.sessionId ∨ info.role ≠ "assistant" then .ok self
    else
      let owned := decide (parentID = scope.promptId)
      let previous := self.owners.get? info.id
      if previous.isSome ∧ previous ≠ some owned then
        .error ⟨"native_message_binding", "OpenCode changed a native message's root ownership."⟩
      else
        (publishParts scope info.id self.parts.values
          { self with owners := self.owners.set info.id owned }).bind bounded

/-- The text that an update gives an open part, where it replaces it, and whether it closes the part. -/
def updatedText (part : TextPart) (info : PartInfo) (delta : Option Text) :
    Except AdapterError (Option Text × Bool) :=
  if info.ended then
    match info.text with
    | none => .error ⟨"native_text_completion_unconfirmed",
      "OpenCode closed text without its native completed snapshot."⟩
    | some snapshot => .ok (some snapshot, true)
  else
    match info.text, delta with
    | some snapshot, _ =>
      if part.text.isPrefixOf snapshot then .ok (some snapshot, false)
      else if snapshot.isPrefixOf part.text then .ok (none, false)
      else .error ⟨"native_text_conflict",
        "OpenCode rewrote streamed text without a portable replacement operation."⟩
    | none, some delta => .ok (some (part.text ++ delta), false)
    | none, none => .ok (none, false)

def partUpdated (scope : TextScope Reference) (info : PartInfo) (delta : Option Text)
    (self : OpenCodeText Reference) : Except AdapterError (OpenCodeText Reference) :=
  if info.sessionID ≠ scope.sessionId then .ok self
  else
    let current := self.parts.get? info.id
    if current.any fun current => current.messageID ≠ info.messageID || current.type ≠ info.type then
      .error ⟨"native_part_binding", "OpenCode changed a native part's message or type."⟩
    else
      let part := current.getD ⟨info.id, info.messageID, info.type, [], 0, false, false⟩
      if part.closed then
        if info.text.any (· ≠ part.text) || delta.any (· ≠ []) then
          .error ⟨"native_text_conflict",
            "OpenCode changed an already completed native text body."⟩
        else self.publish scope part
      else
        (updatedText part info delta).bind fun (text, closed) =>
          (self.replaceIf part text).bind fun (self, part) =>
            (self.publish scope { part with closed := closed }).bind bounded

def partDelta (scope : TextScope Reference) (info : PartDelta) (self : OpenCodeText Reference) :
    Except AdapterError (OpenCodeText Reference) :=
  if info.sessionID ≠ scope.sessionId ∨ info.field ≠ "text" then .ok self
  else if self.owners.get? info.messageID = some false then .ok self
  else
    match self.parts.get? info.partID with
    | none => .error ⟨"native_part_binding", "OpenCode emitted a delta without its part metadata."⟩
    | some part =>
      if part.messageID ≠ info.messageID then
        .error ⟨"native_part_binding", "OpenCode emitted another message's part delta."⟩
      else if part.closed && info.delta ≠ [] then
        .error ⟨"native_text_conflict", "OpenCode emitted text after native part closure."⟩
      else
        (self.replace part (part.text ++ info.delta)).bind fun (self, part) =>
          (self.publish scope part).bind bounded

/-- One event of the native session. -/
def observe (scope : TextScope Reference) (self : OpenCodeText Reference) :
    TextEvent → Except AdapterError (OpenCodeText Reference)
  | .messageUpdated none | .partUpdated none _ | .partDelta none => .ok self
  | .messageUpdated (some info) => self.messageUpdated scope info
  | .partUpdated (some info) delta => self.partUpdated scope info delta
  | .partDelta (some info) => self.partDelta scope info
  | .other => self.bounded

def observeAll (scope : TextScope Reference) :
    OpenCodeText Reference → List TextEvent → Except AdapterError (OpenCodeText Reference)
  | self, [] => .ok self
  | self, event :: rest => (self.observe scope event).bind fun self => observeAll scope self rest

end OpenCodeText

end HarnessControl.OpenCode
