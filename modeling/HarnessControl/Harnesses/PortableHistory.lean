import HarnessControl.Harnesses.ContentStore
import HarnessControl.Harnesses.HistoryMedia

/-!
# Portable history

The items of a native history become rows that every client can show.  A row that its schema refuses
becomes an extension row with the whole item.
-/

namespace HarnessControl.Harnesses

open HarnessControl.Library HarnessControl.Library.JsonText

variable {ν : Type}

/-! ## Rows -/

inductive ItemStatus where
  | pending
  | running
  | waiting
  | completed
  | failed
  | cancelled
  | unknown

inductive Unavailable where
  | notRetained
  | unsupportedNativeShape

inductive HistoryValue (ν : Type) where
  | inline (value : Value ν)
  | reference (contentRef : ContentReference) (preview : Units)
  | unavailable (reason : Unavailable)

inductive RowBody (ν : Type) where
  | message (role : Option (Value ν)) (body : HistoryValue ν)
  | attachment (mediaKind : MediaKind) (body : HistoryValue ν)
  | reasoning (body : HistoryValue ν)
  | toolCall (toolName : Option (Value ν)) (toolNamespace : Option Units)
    (arguments : HistoryValue ν)
  | toolResult (callId : Units) (result : HistoryValue ν)
  | command (command : HistoryValue ν) (cwd : Option Units) (exitCode : Option ν)
    (output : Option (HistoryValue ν))
  | fileChange (changes : HistoryValue ν)
  | plan (body : HistoryValue ν)
  | contextMarker (body : HistoryValue ν)
  | extension (itemNamespace name : Units) (body : HistoryValue ν)

structure Row (ν : Type) where
  id : Units
  nativeItemReference : Option Units
  nativeCallReference : Option Units
  status : ItemStatus
  body : RowBody ν

/-- `harnessHistoryValueSchema` -/
def historyValueSchema : HistoryValue ν → Bool
  | .inline _ => true
  | .reference contentRef preview =>
    contentReferenceSchema contentRef && decide (preview.length ≤ 8192)
  | .unavailable _ => true

def roles : List String := ["user", "assistant", "system", "developer", "unknown"]

def isRole (text : Units) : Bool := roles.any fun role => text == Utf16.text role

def rowBodySchema (host : HistoryHost ν) : RowBody ν → Bool
  | .message role body => requiredText isRole role && historyValueSchema body
  | .attachment _ body => historyValueSchema body
  | .reasoning body => historyValueSchema body
  | .toolCall toolName toolNamespace arguments =>
    requiredText (textWithin 1 512) toolName && toolNamespace.all (textWithin 1 512) &&
      historyValueSchema arguments
  | .toolResult callId result => textWithin 1 512 callId && historyValueSchema result
  | .command command cwd exitCode output =>
    historyValueSchema command && output.all historyValueSchema &&
      cwd.all (fun text => decide (text.length ≤ 4096)) && exitCode.all host.isInteger
  | .fileChange changes => historyValueSchema changes
  | .plan body => historyValueSchema body
  | .contextMarker body => historyValueSchema body
  | .extension itemNamespace name body =>
    textWithin 1 128 itemNamespace && textWithin 1 512 name && historyValueSchema body

/-- `harnessPortableHistoryItemSchema` -/
def portableHistoryItemSchema (host : HistoryHost ν) (row : Row ν) : Bool :=
  textWithin 1 512 row.id && row.nativeItemReference.all (textWithin 1 512) &&
    row.nativeCallReference.all (textWithin 1 512) && rowBodySchema host row.body

/-! ## Values -/

abbrev ContentPublisher (ν : Type) := Value ν → ContentReference

/-- `JSON.parse(JSON.stringify(value))` -/
def json (host : HistoryHost ν) (value : Value ν) : Option (Value ν) :=
  parse host.numbers.toNumerals (stringify host.numbers.toNumerals value)

/-- `value(input, publish)`, which throws for `none`. -/
def historyValue (host : HistoryHost ν) (publish : Option (ContentPublisher ν)) :
    Option (Value ν) → Option (HistoryValue ν)
  | none => some (.unavailable .unsupportedNativeShape)
  | some input =>
    let encoded := stringify host.numbers.toNumerals input
    if (Utf8.encode encoded).length ≤ 32 * 1024 then (json host input).map .inline
    else
      match publish with
      | some publish =>
        (json host input).map fun value =>
          .reference (publish value) (Utf16.units (encoded.take 4096))
      | none => some (.unavailable .notRetained)

def statusNames : List (String × ItemStatus) :=
  [("pending", .pending), ("running", .running), ("inProgress", .running),
    ("in_progress", .running), ("waiting", .waiting), ("completed", .completed),
    ("success", .completed), ("failed", .failed), ("error", .failed), ("cancelled", .cancelled),
    ("interrupted", .cancelled), ("stopped", .cancelled)]

def itemStatus (input : Option (Value ν)) : ItemStatus :=
  ((statusNames.find? fun entry => isText entry.1 input).map Prod.snd).getD .unknown

def digestOf (host : HistoryHost ν) (text : Units) : Units := host.digest (Utf16.toUtf8 text)

def resultId (host : HistoryHost ν) (id : Units) : Units :=
  Utf16.text "result:" ++ if id.length ≤ 505 then id else digestOf host id

/-- `String(input)`, which throws for `none`. -/
def stringOf (host : HistoryHost ν) : Option (Value ν) → Option Units
  | none => some (Utf16.text "undefined")
  | some value => toText host.numbers.toNumerals value

/-- `names.includes(String(input))` -/
def includesString (host : HistoryHost ν) (names : List String) (input : Option (Value ν)) :
    Option Bool :=
  (stringOf host input).map fun text => names.any fun name => text == Utf16.text name

/-- The text of an element of a joined array, where null and undefined are empty. -/
def elementText (host : HistoryHost ν) : Option (Value ν) → Option Units
  | none => some []
  | some .null => some []
  | some value => toText host.numbers.toNumerals value

/-! ## Items -/

/-- The shapes of `item.type`. -/
inductive Shape where
  | text
  | agentMessage
  | userMessage
  | nativeMedia
  | reasoning
  | mcpToolCall
  | dynamicToolCall
  | toolCall
  | toolResult
  | commandExecution
  | fileChange
  | plan
  | contextCompaction
  | other
deriving DecidableEq

def shapeNames : List (String × Shape) :=
  [("text", .text), ("agentMessage", .agentMessage), ("userMessage", .userMessage),
    ("native_media", .nativeMedia), ("reasoning", .reasoning), ("mcpToolCall", .mcpToolCall),
    ("dynamicToolCall", .dynamicToolCall), ("tool_call", .toolCall), ("tool_result", .toolResult),
    ("commandExecution", .commandExecution), ("fileChange", .fileChange), ("plan", .plan),
    ("contextCompaction", .contextCompaction)]

def shapeOf (item : NativeItem ν) : Shape :=
  ((shapeNames.find? fun entry => isText entry.1 (field item "type")).map Prod.snd).getD .other

def nativeId : Option (Value ν) → Option Units
  | some (.string text) => if textWithin 1 512 text then some text else none
  | _ => none

/-- The fields of every row of an item. -/
structure Common where
  id : Units
  nativeItemReference : Option Units
  nativeCallReference : Option Units
  status : ItemStatus

def nativeItemOf (item : NativeItem ν) (itemNamespace : Units) : Option Units :=
  (nativeId (field item "native_item_reference")).orElse fun _ =>
    if itemNamespace == Utf16.text "codex" then nativeId (field item "id") else none

def nativeCallOf (host : HistoryHost ν) (item : NativeItem ν) (itemNamespace : Units) :
    Option (Option Units) :=
  match nativeId (field item "native_call_reference") with
  | some reference => some (some reference)
  | none =>
    if itemNamespace == Utf16.text "codex" then
      (includesString host ["mcpToolCall", "dynamicToolCall"] (field item "type")).map
        fun included => if included then nativeId (field item "id") else none
    else some none

def ownId (item : NativeItem ν) (fallbackId : Units) : Units :=
  match field item "id" with
  | some (.string text) => if text.isEmpty then fallbackId else text
  | _ => fallbackId

def idOf (host : HistoryHost ν) (item : NativeItem ν) (fallbackId : Units) :
    Option Units → Option Units
  | some nativeCall =>
    (includesString host ["tool_call", "tool_result"] (field item "type")).map
      fun included => if included then nativeCall else ownId item fallbackId
  | none => some (ownId item fallbackId)

def commonOf (host : HistoryHost ν) (item : NativeItem ν) (itemNamespace fallbackId : Units) :
    Option Common := do
  let nativeCallReference ← nativeCallOf host item itemNamespace
  let id ← idOf host item fallbackId nativeCallReference
  some {
    id
    nativeItemReference := nativeItemOf item itemNamespace
    nativeCallReference
    status := itemStatus (field item "status") }

def Common.row (common : Common) (id : Units) (body : RowBody ν) : Row ν where
  id := id
  nativeItemReference := common.nativeItemReference
  nativeCallReference := common.nativeCallReference
  status := common.status
  body := body

/-! ## Rows of an item -/

section

variable (host : HistoryHost ν) (publish : Option (ContentPublisher ν))

/-- The one row of an item, of the item's own id. -/
def single (common : Common) (body : HistoryValue ν → RowBody ν) (input : Option (Value ν)) :
    Option (List (Row ν)) :=
  (historyValue host publish input).map fun value => [common.row common.id (body value)]

def messageRole (item : NativeItem ν) : Option (Option (Value ν)) :=
  if shapeOf item = .agentMessage then some (literal "assistant")
  else
    (includesString host ["user", "assistant", "system", "developer"] (field item "role")).map
      fun included => if included then field item "role" else literal "unknown"

def isTextBlock (block : Value ν) : Bool := isText "text" (fieldOf "type" (some block))

def attachmentId (id : Units) (index : Nat) : Units :=
  id ++ Utf16.text ":attachment:" ++ Utf16.units (Nat.toDigits 10 index)

def attachmentRow (common : Common) (itemNamespace : Units) (index : Nat) (block : Value ν) :
    Option (Row ν) :=
  let id := resultId host (attachmentId common.id index)
  match nativeHistoryMedia host (some block) itemNamespace with
  | some (kind, source) =>
    (historyValue host publish (some source.value)).map fun value =>
      common.row id (.attachment kind value)
  | none =>
    (historyValue host publish (some block)).map fun value =>
      common.row id
        (.extension (Utf16.text "hcp.attachment") (Utf16.text "retained_input") value)

def attachmentRows (common : Common) (itemNamespace : Units) :
    Nat → List (Value ν) → Option (List (Row ν))
  | _, [] => some []
  | index, block :: rest =>
    if isTextBlock block then attachmentRows common itemNamespace (index + 1) rest
    else
      (attachmentRow host publish common itemNamespace index block).bind fun row =>
        (attachmentRows common itemNamespace (index + 1) rest).map (row :: ·)

def contentBlocks (item : NativeItem ν) : List (Value ν) :=
  match field item "content" with
  | some (.array blocks) => blocks
  | _ => []

def blockTexts (item : NativeItem ν) : List (Option (Value ν)) :=
  ((contentBlocks item).filter isTextBlock).map fun block => fieldOf "text" (some block)

def userMessageRows (common : Common) (item : NativeItem ν) (itemNamespace : Units) :
    Option (List (Row ν)) := do
  let texts ← (blockTexts item).mapM (elementText host)
  let value ← historyValue host publish (some (.string (joined "\n" texts)))
  let rows ← attachmentRows host publish common itemNamespace 0 (contentBlocks item)
  some (common.row common.id (.message (literal "user") value) :: rows)

def nativeMediaRows (common : Common) (item : NativeItem ν) (itemNamespace : Units) :
    Option (List (Row ν)) :=
  match nativeHistoryMedia host (field item "content") itemNamespace with
  | some (kind, source) => single host publish common (.attachment kind) (some source.value)
  | none =>
    single host publish common (.extension itemNamespace (Utf16.text "retained_input"))
      (field item "content")

def toolNamespace (item : NativeItem ν) : Option Units :=
  match asText (field item (if shapeOf item = .mcpToolCall then "server" else "namespace")) with
  | some text => if text.isEmpty then none else some text
  | none => none

def toolOutput (item : NativeItem ν) : Option (Value ν) :=
  match shapeOf item with
  | .mcpToolCall => field item "result"
  | .dynamicToolCall => field item "contentItems"
  | _ => field item "output"

/-- What the result row of a call holds, where there is one. -/
def toolOutcome (item : NativeItem ν) : Option (Value ν) :=
  let error := field item "error"
  let output := toolOutput item
  if present error then
    some (.object (members [("error", error), ("output", if present output then output else none)]))
  else if present output then output
  else none

def resultRow (common : Common) (outcome : Option (Value ν)) : Option (Row ν) :=
  (historyValue host publish outcome).map fun value =>
    common.row (resultId host common.id) (.toolResult common.id value)

def toolCallRows (common : Common) (item : NativeItem ν) : Option (List (Row ν)) := do
  let arguments ← historyValue host publish (field item "arguments")
  let call := common.row common.id
    (.toolCall (nullish (field item "tool_name") (field item "tool")) (toolNamespace item)
      arguments)
  match toolOutcome item with
  | none => some [call]
  | some outcome => (resultRow host publish common (some outcome)).map fun result => [call, result]

def exitCodeOf (item : NativeItem ν) : Option ν :=
  match field item "exitCode" with
  | some (.number code) => some code
  | _ => none

def commandRows (common : Common) (item : NativeItem ν) : Option (List (Row ν)) := do
  let command ← historyValue host publish (field item "command")
  let output ←
    if present (field item "aggregatedOutput") then
      (historyValue host publish (field item "aggregatedOutput")).map some
    else some none
  some [common.row common.id
    (.command command (asText (field item "cwd")) (exitCodeOf item) output)]

/-! ## File changes -/

structure HistoryFileChange (ν : Type) where
  path : Option (Value ν)
  changeType : String
  previousPath : Option (Value ν)
  diff : Option (Value ν)

def changeTypeOf (type : Option (Value ν)) : String :=
  if isText "add" type then "added"
  else if isText "delete" type then "deleted"
  else if isText "update" type then "modified"
  else "unknown"

def fileChangeOf (change : Value ν) : HistoryFileChange ν :=
  let kind := fieldOf "kind" (some change)
  let path := fieldOf "path" (some change)
  let diff := (asText (fieldOf "diff" (some change))).map .string
  match asText (fieldOf "move_path" kind) with
  | some destination => ⟨some (.string destination), "renamed", path, diff⟩
  | none => ⟨path, changeTypeOf (fieldOf "type" kind), none, diff⟩

/-- `harnessHistoryFileChangeSchema` -/
def fileChangeSchema (change : HistoryFileChange ν) : Bool :=
  requiredText (textWithin 1 4096) change.path &&
    optionalText (textWithin 1 4096) change.previousPath &&
    optionalText (fun text => decide (text.length ≤ 8 * 1024 * 1024)) change.diff

def HistoryFileChange.value (change : HistoryFileChange ν) : Value ν :=
  .object (members [("path", change.path), ("change_type", literal change.changeType),
    ("previous_path", change.previousPath), ("diff", change.diff)])

/-- `harnessHistoryFileChangesSchema.safeParse(changes)` -/
def fileChanges (item : NativeItem ν) : Option (Value ν) :=
  match field item "changes" with
  | some (.array changes) =>
    let parsed := changes.map fileChangeOf
    if parsed.all fileChangeSchema && decide (parsed.length ≤ 10000) then
      some (.array (parsed.map HistoryFileChange.value))
    else none
  | _ => none

def fileChangeRows (common : Common) (item : NativeItem ν) (itemNamespace : Units) :
    Option (List (Row ν)) :=
  match fileChanges item with
  | some changes => single host publish common .fileChange (some changes)
  | none =>
    single host publish common (.extension itemNamespace (Utf16.text "fileChange"))
      (some (.object item))

/-! ## The translation -/

def typeName (item : NativeItem ν) : Units :=
  (asText (field item "type")).getD (Utf16.text "unknown")

def rowsOf (common : Common) (item : NativeItem ν) (itemNamespace : Units) :
    Option (List (Row ν)) :=
  match shapeOf item with
  | .text | .agentMessage => do
    let role ← messageRole host item
    single host publish common (.message role) (field item "text")
  | .userMessage => userMessageRows host publish common item itemNamespace
  | .nativeMedia => nativeMediaRows host publish common item itemNamespace
  | .reasoning =>
    single host publish common .reasoning
      (nullish (nullish (field item "text") (field item "summary")) (field item "content"))
  | .mcpToolCall | .dynamicToolCall | .toolCall => toolCallRows host publish common item
  | .toolResult => (resultRow host publish common (field item "content")).map ([·])
  | .commandExecution => commandRows host publish common item
  | .fileChange => fileChangeRows host publish common item itemNamespace
  | .plan => single host publish common .plan (nullish (field item "text") (field item "plan"))
  | .contextCompaction =>
    single host publish common .contextMarker
      (nullish (field item "text") (field item "summary"))
  | .other =>
    single host publish common (.extension itemNamespace (typeName item))
      (nullish (field item "content") (some (.object item)))

/-- The name of the row that takes the place of a refused one. -/
def fallbackName (item : NativeItem ν) : Units :=
  match asText (field item "type") with
  | some text => if (text.take 512).isEmpty then Utf16.text "unknown" else text.take 512
  | none => Utf16.text "unknown"

/-- A refused row is replaced by one with the whole item. -/
def checkedRow (common : Common) (item : NativeItem ν) (itemNamespace : Units) (row : Row ν) :
    Option (Row ν) :=
  if portableHistoryItemSchema host row then some row
  else do
    let value ← historyValue host publish (some (.object item))
    let row := common.row (if 512 < common.id.length then digestOf host common.id else common.id)
      (.extension itemNamespace (fallbackName item) value)
    if portableHistoryItemSchema host row then some row else none

/-- The rows of an item, or nothing where the translation throws. -/
def portableHistoryItem (item : NativeItem ν) (itemNamespace fallbackId : Units) :
    Option (List (Row ν)) := do
  let common ← commonOf host item itemNamespace fallbackId
  let rows ← rowsOf host publish common item itemNamespace
  rows.mapM (checkedRow host publish common item itemNamespace)

end

end HarnessControl.Harnesses
