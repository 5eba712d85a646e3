import HarnessControl.State.Persistence

/-!
# Command deliveries

A control plane delivers a command at least once.  The connection runs the handler of the first
delivery, records its outcome in memory and as a stored receipt, and answers later deliveries from
that record.  Between two awaits its code runs without interruption, so the segments between awaits
are the steps of the machine; handlers, sockets and malformed messages interleave freely.
-/

namespace HarnessControl.Connection

open HarnessControl.Library HarnessControl.Protocol HarnessControl.State

/-! ## Identities and errors -/

structure Envelope where
  id : String
  payload : Json

def commandIdFor (envelope : Envelope) : String :=
  match envelope.payload.field? "command_id" with
  | some (.str commandId) => if commandId = "" then envelope.id else commandId
  | _ => envelope.id

def joinEntries (host : Host) (entries : List (String × String)) : String :=
  let sorted := entries.mergeSort fun left right => host.localeLe left.1 right.1
  "\x7b" ++ ",".intercalate (sorted.map fun entry =>
    host.stringify (.str entry.1) ++ ":" ++ entry.2) ++ "\x7d"

mutual

def stableStringify (host : Host) : Json → String
  | .arr elements => "[" ++ ",".intercalate (stableElements host elements) ++ "]"
  | .obj fields => joinEntries host (stableEntries host fields)
  | value => host.stringify value

def stableElements (host : Host) : JsonList → List String
  | .nil => []
  | .cons head tail => stableStringify host head :: stableElements host tail

def stableEntries (host : Host) : JsonFields → List (String × String)
  | .nil => []
  | .cons key value tail => (key, stableStringify host value) :: stableEntries host tail

end

def hashCommandPayload (host : Host) (envelope : Envelope) : String :=
  host.sha256 (stableStringify host envelope.payload)

inductive HandlerError where
  | session (code message : String)
  | adapter (code message : String)
  | error (message : String)
  /-- A thrown value that is no `Error`. -/
  | other

def toHcpError : HandlerError → HcpError
  | .session code message | .adapter code message => ⟨code, message, false, none⟩
  | .error message => ⟨"runner_error", message, false, none⟩
  | .other => ⟨"runner_error", "Runner command failed.", false, none⟩

def createNackPayload (commandId : String) (now : Int) (error : HcpError) : CommandNack :=
  ⟨commandId, now, error⟩

/-! ## Records and messages -/

inductive SettledCommandRecord where
  | ack (payloadHash : String) (snapshotPayload : Option SessionSnapshot)
    (conversationPayload : Option ConversationResult)
  | nack (payloadHash : String) (nackPayload : CommandNack)
deriving DecidableEq

inductive CommandRecord where
  | pending (payloadHash : String)
  | settled (record : SettledCommandRecord)
deriving DecidableEq

def SettledCommandRecord.payloadHash : SettledCommandRecord → String
  | .ack payloadHash _ _ | .nack payloadHash _ => payloadHash

def CommandRecord.payloadHash : CommandRecord → String
  | .pending payloadHash => payloadHash
  | .settled record => record.payloadHash

def commandRecordFromReceipt : CommandReceipt → SettledCommandRecord
  | .ack payloadHash _ snapshot conversation => .ack payloadHash snapshot conversation
  | .nack payloadHash _ nackPayload => .nack payloadHash nackPayload

def SettledCommandRecord.receipt (settledAt : Int) : SettledCommandRecord → CommandReceipt
  | .ack payloadHash snapshot conversation => .ack payloadHash settledAt snapshot conversation
  | .nack payloadHash nackPayload => .nack payloadHash settledAt nackPayload

inductive OutboundMessage where
  | ack (payload : CommandAck)
  | nack (payload : CommandNack)
  | sessionSnapshot (payload : SessionSnapshot)
  | conversationResult (payload : ConversationResult)

/-- A message that was sent, with the command payload that it answers. -/
structure Reply where
  commandId : String
  payloadHash : Option String
  message : OutboundMessage

def OutboundMessage.isNack : OutboundMessage → Bool
  | .nack _ => true
  | _ => false

/-- `#sendAck` or `#sendNackPayload`, and the payloads that follow an ack. -/
def answer (commandId payloadHash : String) (now : Int) (duplicate : Bool) :
    SettledCommandRecord → List Reply
  | .ack _ snapshot conversation =>
    ([OutboundMessage.ack ⟨commandId, now, duplicate⟩] ++
      (snapshot.map OutboundMessage.sessionSnapshot).toList ++
      (conversation.map OutboundMessage.conversationResult).toList).map
        fun message => ⟨commandId, some payloadHash, message⟩
  | .nack _ nackPayload => [⟨commandId, some payloadHash, .nack nackPayload⟩]

/-! ## The machine -/

structure Delivery where
  commandId : String
  payloadHash : String

/-- An ack that was stored, and how many messages had been sent by then. -/
structure AcceptedCommand extends Delivery where
  snapshotPayload : Option SessionSnapshot
  conversationPayload : Option ConversationResult
  settledAt : Int
  sentBefore : Nat

structure CommandState where
  store : RunnerStore
  /-- `#commandRecords`. -/
  records : Dict String CommandRecord
  /-- The completion promises that have been resolved. -/
  completions : Dict String SettledCommandRecord
  /-- Handlers that have not finished. -/
  running : List Delivery
  /-- Deliveries that await a completion. -/
  waiting : List Delivery
  /-- The current socket is open. -/
  connected : Bool
  clock : Int
  /-- Every message sent so far. -/
  replies : List Reply
  /-- The ids whose handler was run. -/
  handled : List String
  /-- The acks stored so far. -/
  accepted : List AcceptedCommand

/-- What a handler returns, the events apart: they are sent without touching records. -/
structure CommandExecutionResult where
  snapshotPayload : Option SessionSnapshot
  conversationPayload : Option ConversationResult

inductive HandlerOutcome where
  | returned (result : CommandExecutionResult)
  | threw (error : HandlerError)

inductive CommandAction where
  /-- A valid command message arrives. -/
  | deliver (envelope : Envelope) (written : Bool)
  /-- The running handler at an index finishes; the ack receipt may fail to be written, with an
  error of the file system, and so may the nack receipt. -/
  | finish (index : Nat) (outcome : HandlerOutcome) (ackFailure : Option HandlerError)
    (nackWritten : Bool)
  /-- A waiting delivery resumes. -/
  | resume (index : Nat)
  /-- A message that is no valid command arrives; its envelope may still be readable. -/
  | malformed (envelope : Option Envelope) (message : String) (written : Bool)
  | socket (isOpen : Bool)
  | elapse (milliseconds : Nat)
  /-- Anything else that the process does to the store. -/
  | storeCall (action : StoreAction) (written : Bool)

/-- `#send` throws on a socket that is not open; its callers only log that. -/
def CommandState.send (state : CommandState) (replies : List Reply) : CommandState :=
  if state.connected then { state with replies := state.replies ++ replies } else state

/-- The first call resolves the promise, later calls do nothing. -/
def CommandState.settle (state : CommandState) (commandId : String)
    (record : SettledCommandRecord) : CommandState :=
  match state.completions.get? commandId with
  | some _ => state
  | none => { state with completions := state.completions.set commandId record }

/-- `#commandRecords.set` and `setCommandReceipt`; the record stays when the write throws. -/
def CommandState.storeRecord (options : StoreOptions) (written : Bool) (commandId : String)
    (record : SettledCommandRecord) (state : CommandState) : Attempt CommandState :=
  let write := state.store.setCommandReceipt options ⟨state.clock, written⟩ commandId
    (record.receipt state.clock)
  ⟨{ state with
      records := state.records.set commandId (.settled record)
      store := write.state }, write.failure⟩

/-- The ack of a delivery has been stored. -/
def CommandState.accept (delivery : Delivery) (result : CommandExecutionResult)
    (state : CommandState) : CommandState :=
  { state with
    accepted := state.accepted ++ [{
      toDelivery := delivery
      snapshotPayload := result.snapshotPayload
      conversationPayload := result.conversationPayload
      settledAt := state.clock
      sentBefore := state.replies.length }] }

def mismatchNack (commandId : String) (now : Int) : CommandNack :=
  createNackPayload commandId now ⟨"duplicate_command_payload_mismatch",
    "Command '" ++ commandId ++ "' was already seen with a different payload.", false, none⟩

/-- The part of `#handleCommand` before the handler or the completion is awaited. -/
def CommandState.deliver (runtime : Runtime) (envelope : Envelope) (written : Bool)
    (state : CommandState) : CommandState :=
  let commandId := commandIdFor envelope
  let payloadHash := hashCommandPayload runtime.host envelope
  let read := state.store.pruneReceipts runtime.options ⟨state.clock, written⟩
  let state := { state with store := read.state }
  if read.failure ≠ none then state
  else
    let existing := (state.records.get? commandId).or
      ((state.store.data.commandReceipts.get? commandId).map fun receipt =>
        .settled (commandRecordFromReceipt receipt))
    match existing with
    | none =>
      { state with
        records := state.records.set commandId (.pending payloadHash)
        running := state.running ++ [⟨commandId, payloadHash⟩]
        handled := state.handled ++ [commandId] }
    | some record =>
      if record.payloadHash = payloadHash then
        match record with
        | .pending _ => { state with waiting := state.waiting ++ [⟨commandId, payloadHash⟩] }
        | .settled record => state.send (answer commandId payloadHash state.clock true record)
      else
        state.send [⟨commandId, some payloadHash, .nack (mismatchNack commandId state.clock)⟩]

/-- The catch block of `#handleCommand`. -/
def CommandState.reject (runtime : Runtime) (delivery : Delivery) (error : HandlerError)
    (written : Bool) (state : CommandState) : CommandState :=
  let nackPayload := createNackPayload delivery.commandId state.clock (toHcpError error)
  let record := SettledCommandRecord.nack delivery.payloadHash nackPayload
  let stored := state.storeRecord runtime.options written delivery.commandId record
  -- a failed write leaves the promise unresolved
  if stored.failure ≠ none then stored.state
  else (stored.state.settle delivery.commandId record).send
    (answer delivery.commandId delivery.payloadHash state.clock false record)

def notConnected : HandlerError := .error "Runner is not connected to the control plane."

/-- The part of `#handleCommand` after the handler. -/
def CommandState.finish (runtime : Runtime) (delivery : Delivery) (outcome : HandlerOutcome)
    (ackFailure : Option HandlerError) (nackWritten : Bool) (state : CommandState) :
    CommandState :=
  match outcome with
  | .threw error => state.reject runtime delivery error nackWritten
  | .returned result =>
    let record := SettledCommandRecord.ack delivery.payloadHash result.snapshotPayload
      result.conversationPayload
    let stored :=
      state.storeRecord runtime.options ackFailure.isNone delivery.commandId record
    match ackFailure with
    | some error => stored.state.reject runtime delivery error nackWritten
    | none =>
      let state := (stored.state.settle delivery.commandId record).accept delivery result
      -- `#sendAck` throws inside the try block when the socket is not open
      if state.connected then
        state.send (answer delivery.commandId delivery.payloadHash state.clock false record)
      else state.reject runtime delivery notConnected nackWritten

/-- `#sendParseNack`. -/
def CommandState.malformed (runtime : Runtime) (envelope : Option Envelope) (message : String)
    (written : Bool) (state : CommandState) : CommandState :=
  let receivedMessageId := envelope.elim "unknown" Envelope.id
  let nackPayload := createNackPayload receivedMessageId state.clock
    ⟨"invalid_message", message, false, none⟩
  match envelope with
  | none => state.send [⟨receivedMessageId, none, .nack nackPayload⟩]
  | some envelope =>
    let payloadHash := hashCommandPayload runtime.host envelope
    let record := SettledCommandRecord.nack payloadHash nackPayload
    let stored := state.storeRecord runtime.options written receivedMessageId record
    if stored.failure ≠ none then stored.state
    else stored.state.send [⟨receivedMessageId, some payloadHash, .nack nackPayload⟩]

def CommandState.step (runtime : Runtime) (state : CommandState) : CommandAction → CommandState
  | .deliver envelope written => state.deliver runtime envelope written
  | .finish index outcome ackFailure nackWritten =>
    match state.running[index]? with
    | none => state
    | some delivery =>
      { state with running := state.running.eraseIdx index }.finish runtime delivery outcome
        ackFailure nackWritten
  | .resume index =>
    match state.waiting[index]? with
    | none => state
    | some delivery =>
      match state.completions.get? delivery.commandId with
      | none => state
      | some record =>
        { state with waiting := state.waiting.eraseIdx index }.send
          (answer delivery.commandId delivery.payloadHash state.clock true record)
  | .malformed envelope message written => state.malformed runtime envelope message written
  | .socket isOpen => { state with connected := isOpen }
  | .elapse milliseconds => { state with clock := state.clock + milliseconds }
  | .storeCall action written =>
    match action with
    | .setCommandReceipt _ _ => state
    | action =>
      { state with store := (state.store.perform runtime ⟨state.clock, written⟩ action).state }

/-- A process that has just opened its store. -/
def CommandState.start (store : RunnerStore) (clock : Int) : CommandState :=
  { store, records := Dict.empty, completions := Dict.empty, running := [], waiting := []
    connected := false, clock, replies := [], handled := [], accepted := [] }

/-! ## A handler that throws an empty message -/

/-- A command to pause session `session-1`. -/
def pauseCommand : Envelope :=
  ⟨"command-1", .obj (.cons "session_id" (.str "session-1") .nil)⟩

/-- The nack receipt of an error without a message makes the state file unreadable. -/
theorem empty_message_unreadable :
    ¬Always (CommandState.step plainRuntime)
      (fun state => ∀ file ∈ state.store.disk,
        readRunnerState plainRuntime (some file) = some file)
      (CommandState.start RunnerStore.fresh 0)
      [.socket true, .deliver pauseCommand true, .finish 0 (.threw (.error "")) none true] := by
  intro h
  have hread := h.last _ rfl
  revert hread
  decide

end HarnessControl.Connection
