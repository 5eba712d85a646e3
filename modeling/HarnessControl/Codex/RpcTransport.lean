import HarnessControl.Library.Dict
import HarnessControl.Library.Frames
import HarnessControl.Library.Transition
import HarnessControl.Protocol.Json

/-!
# The transport of an app server

Messages stand on lines of the output of the process.  A response settles a call, a notification goes
to observers, a request of the peer goes to a handler, and the first failure ends all of it.

The handler of the output calls observers and handlers, which may call the transport again.  So each
round of its loop is a step, and other steps may come between two rounds.
-/

namespace HarnessControl.Codex

open HarnessControl.Library HarnessControl.Protocol

/-! ## Messages -/

inductive RpcId where
  | str (value : String)
  | num (value : Int)
deriving DecidableEq

structure RpcMessage where
  id : Option RpcId
  method : Option String
  params : Option Json
  result : Option Json
  error : Option Json

def readRpcId : Json → Option RpcId
  | .str value => if identity value then some (.str value) else none
  | .num value =>
    if -maxSafeInteger ≤ value ∧ value ≤ maxSafeInteger then some (.num value) else none
  | _ => none

def readText : Json → Option String
  | .str value => some value
  | _ => none

def readInteger : Json → Option Int
  | .num value => some value
  | _ => none

/-- A field that may be absent. -/
def readOptional {α : Type} (read : Json → Option α) (fields : JsonFields) (key : String) :
    Option (Option α) :=
  match fields.get? key with
  | none => some none
  | some value => (read value).map some

def messageSchema : Json → Option RpcMessage
  | .obj fields => do
    let id ← readOptional readRpcId fields "id"
    let method ← readOptional readText fields "method"
    some ⟨id, method, fields.get? "params", fields.get? "result", fields.get? "error"⟩
  | _ => none

/-- `messageSchema.parse(JSON.parse(line))`, `none` where it throws. -/
def parseLine (parseJson : List Char → Option Json) (line : List Char) : Option RpcMessage :=
  (parseJson line).bind messageSchema

/-- A method that is not empty. -/
def RpcMessage.called (message : RpcMessage) : Option String :=
  message.method.filter (· ≠ "")

def RpcMessage.responds (id : Int) (message : RpcMessage) : Bool :=
  message.called.isNone && message.id == some (.num id)

/-- `z.string().min(1)` under a key. -/
def textField (fields : JsonFields) (key : String) : Option String :=
  ((fields.get? key).bind readText).filter (· ≠ "")

def requestTurn : Option Json → Option (String × String)
  | some (.obj fields) => do
    let threadId ← textField fields "threadId"
    let turnId ← textField fields "turnId"
    some (threadId, turnId)
  | _ => none

/-- The request that `serverRequest/resolved` names. -/
def resolvedRequest : Option Json → Option RpcId
  | some (.obj fields) =>
    match fields.get? "requestId" with
    | some (.str value) => some (.str value)
    | some (.num value) => some (.num value)
    | _ => none
  | _ => none

/-- The thread and the turn that `turn/completed` names. -/
def terminalTurn : Option Json → Option (String × String)
  | some (.obj fields) =>
    match fields.get? "turn" with
    | some (.obj turn) => do
      let threadId ← textField fields "threadId"
      let turnId ← (turn.get? "id").bind readText
      let status ← (turn.get? "status").bind readText
      if status ∈ ["completed", "interrupted", "failed"] then some (threadId, turnId) else none
    | _ => none
  | _ => none

/-! ## Failures -/

structure RpcFailure where
  code : String
  message : String

namespace RpcFailure

def invalidMessage : RpcFailure :=
  ⟨"codex_protocol_error", "Codex returned an invalid protocol message."⟩

def processClosed : RpcFailure :=
  ⟨"codex_process_closed", "Codex process closed before the operation finished."⟩

def repeatedRequest : RpcFailure :=
  ⟨"codex_protocol_error", "Codex repeated an active native request."⟩

def toolRequestFailed : RpcFailure :=
  ⟨"native_tool_request_failed", "The native tool request could not complete."⟩

def transportClosed : RpcFailure := ⟨"codex_transport_closed", "Codex input transport closed."⟩

def unsupportedRequest : RpcFailure :=
  ⟨"unsupported_provider_request", "Codex requested unsupported interactive input."⟩

end RpcFailure

/-! ## Calls -/

/-- What a promise of `request` is settled with. -/
inductive Settlement where
  | resolved (result : Option Json)
  /-- `CodexRpcRequestError`, of the message and the code that the peer gave. -/
  | rejected (nativeMessage : Option String) (nativeCode : Option Int)
  | aborted (reason : String)
  | failed (failure : RpcFailure)

/-- `z.object({message: z.string(), code: z.number().int().optional()})`. -/
def nativeError : Json → Option (String × Option Int)
  | .obj fields => do
    let message ← (fields.get? "message").bind readText
    let code ← readOptional readInteger fields "code"
    some (message, code)
  | _ => none

def responseSettlement (message : RpcMessage) : Settlement :=
  match message.error with
  | none => .resolved message.result
  | some error =>
    match nativeError error with
    | some (nativeMessage, nativeCode) => .rejected (some nativeMessage) nativeCode
    | none => .rejected none none

structure RpcCall where
  /-- A call that is refused at once has no id. -/
  id : Option Int
  /-- The number of messages that were handled before the call. -/
  madeAt : Nat
  /-- The signal, with its reason once it is aborted. -/
  signal : Option (Option String)
  /-- `abort` listens to the signal. -/
  listening : Bool
  /-- Every `resolve` and `reject` of the promise. -/
  settlements : List Settlement

def RpcCall.settle (settlement : Settlement) (call : RpcCall) : RpcCall :=
  { call with listening := false, settlements := call.settlements ++ [settlement] }

structure RpcCalls where
  /-- `#pending`, by the index of the call. -/
  pending : Dict Int Nat
  nextId : Int
  /-- Every call of `request`. -/
  calls : List RpcCall

namespace RpcCalls

def opened : RpcCalls := ⟨Dict.empty, 1, []⟩

def refuse (madeAt : Nat) (signal : Option (Option String)) (settlement : Settlement)
    (table : RpcCalls) : RpcCalls :=
  { table with calls := table.calls ++ [⟨none, madeAt, signal, false, [settlement]⟩] }

/-- A call that waits for a response. -/
def send (madeAt : Nat) (signal : Option (Option String)) (table : RpcCalls) : RpcCalls where
  pending := table.pending.set table.nextId table.calls.length
  nextId := table.nextId + 1
  calls := table.calls ++ [⟨some table.nextId, madeAt, signal, signal.isSome, []⟩]

def abort (index : Nat) (reason : String) (table : RpcCalls) : RpcCalls :=
  match table.calls[index]? with
  | none => table
  | some call =>
    if call.signal ≠ some none then table
    else
      let table := { table with
        calls := table.calls.modify index fun call => { call with signal := some (some reason) } }
      match call.id with
      | some id =>
        if call.listening then
          { table with
            pending := table.pending.erase id
            calls := table.calls.modify index (RpcCall.settle (.aborted reason)) }
        else table
      | none => table

def respond (id : Int) (message : RpcMessage) (table : RpcCalls) : RpcCalls :=
  match table.pending.get? id with
  | none => table
  | some index =>
    { table with
      pending := table.pending.erase id
      calls := table.calls.modify index (RpcCall.settle (responseSettlement message)) }

/-- The pending calls are rejected. -/
def fail (failure : RpcFailure) (table : RpcCalls) : RpcCalls :=
  { table with
    pending := Dict.empty
    calls := table.calls.mapIdx fun index call =>
      if index ∈ table.pending.values then call.settle (.failed failure) else call }

end RpcCalls

/-! ## Requests of the peer -/

structure PeerRequest where
  id : RpcId
  /-- `controller.signal.aborted`. -/
  aborted : Bool
  /-- The handler has finished, before or after the transport failed. -/
  finished : Option Bool

structure RpcRequests where
  active : List RpcId
  signals : Dict RpcId Nat
  turns : Dict RpcId (String × String)
  /-- Every request that was given to a handler. -/
  requests : List PeerRequest

namespace RpcRequests

def opened : RpcRequests := ⟨[], Dict.empty, Dict.empty, []⟩

def start (id : RpcId) (params : Option Json) (table : RpcRequests) : RpcRequests where
  active := table.active ++ [id]
  signals := table.signals.set id table.requests.length
  turns :=
    match requestTurn params with
    | some turn => table.turns.set id turn
    | none => table.turns
  requests := table.requests ++ [⟨id, false, none⟩]

/-- `this.#requestSignals.get(id)?.abort()`. -/
def abort (id : RpcId) (table : RpcRequests) : RpcRequests :=
  match table.signals.get? id with
  | none => table
  | some index =>
    { table with
      requests := table.requests.modify index fun request => { request with aborted := true } }

def ended (method : String) (params : Option Json) (table : RpcRequests) : List RpcId :=
  (if method = "serverRequest/resolved" then (resolvedRequest params).toList else []) ++
    if method = "turn/completed" then
      (table.turns.entries.filter fun entry => terminalTurn params = some entry.2).map Prod.fst
    else []

def notified (method : String) (params : Option Json) (table : RpcRequests) : RpcRequests :=
  (table.ended method params).foldl (fun table id => table.abort id) table

def finish (index : Nat) (id : RpcId) (failed : Bool) (table : RpcRequests) : RpcRequests where
  active := table.active.erase id
  signals := table.signals.erase id
  turns := table.turns.erase id
  requests := table.requests.modify index fun request => { request with finished := some failed }

end RpcRequests

/-! ## The transport -/

inductive RpcWritten where
  | call (id : Int) (method : String) (params : Option Json)
  | notification (method : String)
  /-- The result of a handler, for the request at the index. -/
  | result (request : Nat) (id : RpcId) (result : Option Json)
  | error (request : Option Nat) (id : RpcId) (code : Int) (message : String)

structure CodexRpc where
  /-- The bytes of a character that has not ended. -/
  decoder : List UInt8
  buffer : List Char
  /-- The handler of the output is in its loop. -/
  reading : Bool
  failure : Option RpcFailure
  handlers : List String
  sessionHandlers : List String
  calls : RpcCalls
  requests : RpcRequests
  /-- The output of the process so far. -/
  output : List UInt8
  /-- The messages that `#receive` did not drop. -/
  handled : List RpcMessage
  /-- The notifications that observers were given. -/
  notified : List RpcMessage
  written : List RpcWritten

namespace CodexRpc

def opened : CodexRpc :=
  ⟨[], [], false, none, [], [], .opened, .opened, [], [], [], []⟩

/-- `HARNESS_CONTENT_MAX_BYTES`. -/
def maxContentBytes : Nat := 128 * 1024 * 1024

def oversized (text : List Char) : Prop := maxContentBytes < (Utf8.encode text).length

instance (text : List Char) : Decidable (oversized text) :=
  inferInstanceAs (Decidable (_ < _))

def write (message : RpcWritten) (rpc : CodexRpc) : CodexRpc :=
  { rpc with written := rpc.written ++ [message] }

def fail (failure : RpcFailure) (rpc : CodexRpc) : CodexRpc :=
  if rpc.failure.isSome then rpc
  else { rpc with failure := some failure, calls := rpc.calls.fail failure }

def request (method : String) (params : Option Json) (signal : Option (Option String))
    (rpc : CodexRpc) : CodexRpc :=
  match rpc.failure, signal with
  | some failure, _ =>
    { rpc with calls := rpc.calls.refuse rpc.handled.length signal (.failed failure) }
  | none, some (some reason) =>
    { rpc with calls := rpc.calls.refuse rpc.handled.length signal (.aborted reason) }
  | none, signal =>
    { rpc with calls := rpc.calls.send rpc.handled.length signal }.write
      (.call rpc.calls.nextId method params)

/-- `#handleRequest`, up to its `await`. -/
def handleRequest (id : RpcId) (params : Option Json) (rpc : CodexRpc) : CodexRpc :=
  if id ∈ rpc.requests.active then rpc.fail .repeatedRequest
  else { rpc with requests := rpc.requests.start id params }

/-- `#handleRequest` after its handler, which returned a result or threw. -/
def handlerFinished (index : Nat) (outcome : Option (Option Json)) (rpc : CodexRpc) : CodexRpc :=
  match rpc.requests.requests[index]? with
  | none => rpc
  | some request =>
    if request.finished.isSome then rpc
    else
      let finished := { rpc with
        requests := rpc.requests.finish index request.id rpc.failure.isSome }
      if rpc.failure.isSome || request.aborted then finished
      else
        match outcome with
        | some result => finished.write (.result index request.id result)
        | none =>
          (finished.write (.error (some index) request.id (-32603)
            "The native tool request could not complete.")).fail .toolRequestFailed

/-- `#receive`; the flag tells whether it threw, as it does when an observer throws. -/
def receive (message : RpcMessage) (observed : Bool) (rpc : CodexRpc) : CodexRpc × Bool :=
  if rpc.failure.isSome then (rpc, false)
  else
    let rpc := { rpc with handled := rpc.handled ++ [message] }
    match message.called, message.id with
    | some method, some id =>
      if method ∈ rpc.sessionHandlers ∨ method ∈ rpc.handlers then
        (rpc.handleRequest id message.params, false)
      else
        ((rpc.write (.error none id (-32601)
          "Interactive provider requests are not supported by this runner profile.")).fail
            .unsupportedRequest, false)
    | some method, none =>
      ({ rpc with
        requests := rpc.requests.notified method message.params
        notified := rpc.notified ++ [message] }, !observed)
    | none, some (.num id) => ({ rpc with calls := rpc.calls.respond id message }, false)
    | none, _ => (rpc, false)

/-- The handler of the output leaves its loop by an exception. -/
def invalid (rpc : CodexRpc) : CodexRpc := { rpc.fail .invalidMessage with reading := false }

/-- The handler of the output, up to its loop. -/
def data (chunk : List UInt8) (rpc : CodexRpc) : CodexRpc :=
  { rpc with
    decoder := Utf8.after rpc.decoder chunk
    buffer := rpc.buffer ++ Utf8.emitted rpc.decoder chunk
    reading := true
    output := rpc.output ++ chunk }

def round (parse : List Char → Option RpcMessage) (observed : Bool) (rpc : CodexRpc) : CodexRpc :=
  match firstFrame '\n' rpc.buffer with
  | some (line, rest) =>
    if oversized line then rpc.invalid
    else
      let rpc := { rpc with buffer := rest }
      match parse line with
      | none => rpc.invalid
      | some message =>
        let received := rpc.receive message observed
        if received.2 then received.1.invalid else received.1
  | none => if oversized rpc.buffer then rpc.invalid else { rpc with reading := false }

end CodexRpc

/-! ## Runs -/

inductive RpcAction where
  /-- A chunk of the output arrives. -/
  | data (chunk : List UInt8)
  | round (observed : Bool)
  | request (method : String) (params : Option Json) (signal : Option (Option String))
  | abort (index : Nat) (reason : String)
  | notify (method : String)
  | handlerFinished (index : Nat) (outcome : Option (Option Json))
  | setRequestHandler (method : String)
  | removeRequestHandler (method : String)
  | setSessionRequestHandler (method : String)
  /-- A write to the process fails. -/
  | writeFailed
  | processClosed

namespace CodexRpc

def step (parse : List Char → Option RpcMessage) (rpc : CodexRpc) : RpcAction → CodexRpc
  | .data chunk => if rpc.reading then rpc else rpc.data chunk
  | .round observed => if rpc.reading then rpc.round parse observed else rpc
  | .request method params signal => rpc.request method params signal
  | .abort index reason => { rpc with calls := rpc.calls.abort index reason }
  | .notify method => rpc.write (.notification method)
  | .handlerFinished index outcome => rpc.handlerFinished index outcome
  | .setRequestHandler method =>
    if method ∈ rpc.handlers then rpc else { rpc with handlers := rpc.handlers ++ [method] }
  | .removeRequestHandler method => { rpc with handlers := rpc.handlers.erase method }
  | .setSessionRequestHandler method =>
    if method ∈ rpc.sessionHandlers then rpc
    else { rpc with sessionHandlers := rpc.sessionHandlers ++ [method] }
  | .writeFailed => rpc.fail .transportClosed
  | .processClosed => rpc.fail .processClosed

end CodexRpc

end HarnessControl.Codex
