import HarnessControl.Library.Dict
import HarnessControl.Library.Transition
import HarnessControl.Protocol.Json

/-!
# Native interactions

One owner serves the approvals, questions and forms of a native provider, one at a time.  A request
is announced by an event, answered by a response, and lost when it expires, when its signal aborts
or when the owner closes.  An event is emitted by a call that may throw and that may call the owner
again before it returns; the calls that have not returned are the frames of the state.
-/

namespace HarnessControl.Harnesses

open HarnessControl.Library HarnessControl.Protocol

/-! ## Requests and responses -/

inductive NativeError where
  | adapter (code message : String)
  /-- A schema refuses what it is given, or the platform throws. -/
  | thrown (message : String)

/-- `bindingSchema`. -/
structure NativeBinding where
  threadId : String
  turnId : Option String
  itemId : String

inductive ApprovalType where
  | command
  | fileRead
  | fileChange
  | permissions
  | other
deriving DecidableEq

structure ApprovalParams where
  requestType : ApprovalType
  /-- The JSON text of the operation. -/
  action : String
  advertised : Option (List String)
  additionalPermissions : Bool
  grantRoot : Option String
  rejectionFeedback : Bool

structure QuestionParams where
  ids : List String
  isSecret : Bool
  /-- The answers that are admitted, as parsed. -/
  schema : Json → Option Json

/-- The parameters are `none` where their schema refuses them. -/
inductive NativeRequest where
  | approval (params : Option ApprovalParams)
  | questions (params : Option QuestionParams)
  | form (schema : Option (Json → Option Json))

structure NativeCall where
  binding : Option NativeBinding
  /-- The `native_reference` of the request identity, if one is given and valid. -/
  identity : Option (Option String)
  signal : Nat
  request : NativeRequest

structure ApprovalResponse where
  sessionId : String
  turnId : Option String
  requestId : String
  actionHash : String
  decision : String
  feedback : Option String
  actorId : String

structure InputResponse where
  sessionId : String
  turnId : Option String
  requestScope : Option String
  requestId : String
  actorId : String
  value : Json
  cancelled : Option Bool

inductive NativeResponse where
  | approval (response : ApprovalResponse)
  | input (response : InputResponse)

def NativeResponse.requestId : NativeResponse → String
  | .approval response => response.requestId
  | .input response => response.requestId

inductive NativeReply where
  | approval (decision : String) (feedback : Option String)
  | input (value : Json)

inductive RequestKind where
  | approval
  | input

inductive LostReason where
  | expired
  | ownerClosed
  | interrupted

inductive NativeEvent where
  | approvalRequested (requestId : String) (requestType : ApprovalType) (action actionHash : String)
    (allowed : List String) (rejectionFeedback : Bool) (expires : Int)
  | inputRequested (requestId : String) (expires : Int)
  | approvalResolved (response : ApprovalResponse)
  | inputResolved (requestId actorId : String) (cancelled : Bool)
  | lost (requestId : String) (kind : RequestKind) (reason : LostReason)

def NativeEvent.requestId : NativeEvent → String
  | .approvalRequested requestId _ _ _ _ _ _ | .inputRequested requestId _
  | .inputResolved requestId _ _ | .lost requestId _ _ => requestId
  | .approvalResolved response => response.requestId

/-- The event announces a request; the others tell its outcome. -/
def NativeEvent.announces : NativeEvent → Bool
  | .approvalRequested _ _ _ _ _ _ _ | .inputRequested _ _ => true
  | _ => false

inductive Settlement where
  | resolved (reply : NativeReply)
  | rejected (error : NativeError)

/-! ## The owner -/

/-- What the constructor is given, and what the owner takes from its platform. -/
structure NativeOwner where
  sessionId : String
  /-- The admitted turn; an owner without one has the scope of its session. -/
  turnId : Option String
  threadId : String
  sandboxMode : String
  executionProfile : Option String
  /-- The first turn of the session and its deadline, where that is a date. -/
  firstTurn : Option (String × Option Int)
  sha256 : String → String
  /-- `JSON.stringify` of a response. -/
  fingerprint : NativeResponse → String
  /-- `hcpApprovalResponsePayloadSchema`. -/
  admitsFeedback : ApprovalResponse → Bool
  /-- The identities that `randomUUID` draws, one after the other. -/
  uuid : Nat → String
  uuid_injective : Function.Injective uuid

def requestBinding : NativeError :=
  .adapter "native_request_binding" "Native request targets another conversation or turn."

def requestClosed : NativeError :=
  .adapter "native_request_closed" "Native turn is no longer active."

def foreignEvidence : NativeError :=
  .adapter "native_request_binding" "Native request evidence targets another physical conversation."

def responseBinding : NativeError :=
  .adapter "native_response_binding" "Native response targets another active session or turn."

def responseScope : NativeError :=
  .adapter "native_response_binding" "Native response targets another request scope."

def staleApproval : NativeError :=
  .adapter "native_response_binding"
    "Native approval response is stale, invalid, or targets another request."

def staleQuestion : NativeError :=
  .adapter "native_response_binding" "Native question response is stale or targets another request."

def feedbackUnsupported : NativeError :=
  .adapter "native_feedback_unsupported"
    "The native callback does not support this rejection feedback."

def interrupted : NativeError :=
  .adapter "native_request_lost"
    "Native request was interrupted or its provider process exited."

def expiredRequest : NativeError :=
  .adapter "native_request_expired" "Native interaction expired without a decision."

def closedRequest : NativeError :=
  .adapter "native_request_closed" "Native turn ended before the interaction completed."

def lostReason : NativeError → LostReason
  | .adapter "native_request_expired" _ => .expired
  | .adapter "native_request_closed" _ => .ownerClosed
  | _ => .interrupted

/-- `#bind`. -/
def NativeOwner.bind (owner : NativeOwner) (closed : Bool) (nativeTurn : Option String) :
    Option NativeBinding → Option NativeError
  | none => some (.thrown "Invalid input")
  | some value =>
    if value.threadId ≠ owner.threadId ∨ value.turnId ≠ nativeTurn ∨
        value.turnId.isSome ≠ owner.turnId.isSome then some requestBinding
    else if closed then some requestClosed
    else none

/-- `#requestIdentity`. -/
def NativeOwner.checkIdentity (owner : NativeOwner) : Option (Option String) → Option NativeError
  | none => none
  | some none => some (.thrown "Invalid input")
  | some (some reference) => if reference = owner.threadId then none else some foreignEvidence

/-- `#expires`. -/
def NativeOwner.expires (owner : NativeOwner) (now : Int) : Int :=
  let deadline := owner.firstTurn.bind fun first =>
    if some first.1 = owner.turnId then first.2 else none
  match deadline with
  | none => now + 5 * 60000
  | some deadline => min (now + 5 * 60000) deadline

def leavesDirectory (path : String) : Bool :=
  "/".toList.isPrefixOf path.toList || path == ".." || "../".toList.isPrefixOf path.toList

/-- A native approval cannot broaden a restricted consumer's file system. -/
def NativeOwner.permitsAccept (owner : NativeOwner) (params : ApprovalParams)
    (grantPath : String) : Bool :=
  owner.sandboxMode == "danger_full_access" ||
    (!params.additionalPermissions && (params.grantRoot.isNone || !leavesDirectory grantPath) &&
      (params.requestType != .fileChange || owner.sandboxMode == "workspace_write"))

def NativeOwner.allowed (owner : NativeOwner) (params : ApprovalParams) (grantPath : String) :
    List String :=
  ["accept", "accept_for_session", "decline", "cancel"].filter fun decision =>
    params.advertised.all (fun advertised => advertised.contains decision) &&
    (!(["accept", "accept_for_session"].contains decision) ||
      owner.permitsAccept params grantPath) &&
    (decision != "accept_for_session" ||
      (owner.executionProfile.any (fun profile => profile != "isolated") &&
        params.advertised.any fun advertised => advertised.contains decision))

/-! ## The state -/

inductive PendingKind where
  | approval (actionHash : String) (allowed : List String) (rejectionFeedback : Bool)
  /-- A form is answered by `null` when it is cancelled. -/
  | input (schema : Json → Option Json) (isForm : Bool)

def PendingKind.kind : PendingKind → RequestKind
  | .approval _ _ _ => .approval
  | .input _ _ => .input

structure PendingRequest where
  id : String
  kind : PendingKind
  signal : Nat
  expires : Int

/-- An operation that has been taken from the queue. -/
inductive Stage where
  /-- An approval awaits the real paths of the working directory and of its grant. -/
  | preparing (id : String) (signal : Nat) (params : ApprovalParams)
  | serving (id : String)

/-- A call of `emit` that has not returned, and what its caller does next. -/
inductive Frame where
  | publishing (request : PendingRequest) (event : NativeEvent)
  | resolving (request : PendingRequest) (event : NativeEvent) (response : NativeResponse)
    (reply : NativeReply)
  | losing (request : PendingRequest) (error : NativeError)

def Frame.settles : Frame → Bool
  | .publishing _ _ => false
  | _ => true

/-- A call of `emit` with a requested event. -/
structure NativePublication where
  requestId : String
  /-- The owner had been closed. -/
  closed : Bool
  /-- The request had awaited the file system. -/
  located : Bool

structure InteractionState where
  pending : Option PendingRequest
  closed : Bool
  count : Nat
  outstanding : Nat
  queue : List NativeCall
  current : Option Stage
  /-- `#resolved`, in the order of insertion. -/
  resolved : Dict String String
  /-- Identities drawn so far. -/
  drawn : Nat
  aborted : List Nat
  clock : Int
  frames : List Frame
  published : List NativePublication
  /-- The events that were emitted. -/
  events : List NativeEvent
  /-- The calls that settle a promise. -/
  settlements : List (String × Settlement)
  /-- The requests whose lost event could not be emitted. -/
  unrecorded : List String
  accepted : List NativeResponse

inductive InteractionAction where
  /-- `approval`, `questions` or `form` is called. -/
  | request (call : NativeCall)
  /-- The first operation of the queue starts; the provider tells its current turn. -/
  | begin (nativeTurn : Option String)
  /-- The path of a grant relative to the working directory is found, or is not. -/
  | located (grantPath : Option String)
  /-- The operation ends once its promise is settled. -/
  | finish
  | respond (response : NativeResponse)
  /-- The innermost call of `emit` returns, or throws. -/
  | emitted (thrown : Option NativeError)
  | abort (signal : Nat)
  /-- The timer of the pending request fires. -/
  | expire
  | close
  | elapse (milliseconds : Nat)

def InteractionState.start (clock : Int) : InteractionState :=
  { pending := none, closed := false, count := 0, outstanding := 0, queue := [], current := none
    resolved := Dict.empty, drawn := 0, aborted := [], clock, frames := [], published := []
    events := [], settlements := [], unrecorded := [], accepted := [] }

/-! ## Operations -/

/-- `#serialize`; an owner without a turn takes forms only. -/
def InteractionState.request (owner : NativeOwner) (call : NativeCall)
    (state : InteractionState) : InteractionState :=
  let enqueue (state : InteractionState) : InteractionState :=
    { state with outstanding := state.outstanding + 1, queue := state.queue ++ [call] }
  match owner.turnId, call.request with
  | some _, _ =>
    let state := { state with count := state.count + 1 }
    if 128 < state.count then state else enqueue state
  | none, .form _ => if 128 ≤ state.outstanding then state else enqueue state
  | none, _ => state

/-- The current operation ends. -/
def InteractionState.leave (state : InteractionState) : InteractionState :=
  { state with current := none, outstanding := state.outstanding - 1 }

/-- `#wait`, up to the call that announces the request. -/
def InteractionState.wait (request : PendingRequest) (event : NativeEvent) (located : Bool)
    (state : InteractionState) : InteractionState :=
  if request.signal ∈ state.aborted then state.leave
  else
    { state with
      pending := some request
      current := some (.serving request.id)
      frames := [.publishing request event]
      published := state.published ++ [⟨request.id, state.closed, located⟩] }

/-- The part of `approval` after the paths are known. -/
def InteractionState.approve (owner : NativeOwner) (id : String) (signal : Nat)
    (params : ApprovalParams) (grantPath : String) (located : Bool) (state : InteractionState) :
    InteractionState :=
  let allowed := owner.allowed params grantPath
  if allowed = [] then state.leave
  else
    let actionHash := owner.sha256 params.action
    let expires := owner.expires state.clock
    state.wait ⟨id, .approval actionHash allowed params.rejectionFeedback, signal, expires⟩
      (.approvalRequested id params.requestType params.action actionHash allowed
        params.rejectionFeedback expires) located

def InteractionState.ask (owner : NativeOwner) (id : String) (signal : Nat)
    (schema : Json → Option Json) (isForm : Bool) (state : InteractionState) : InteractionState :=
  let expires := owner.expires state.clock
  state.wait ⟨id, .input schema isForm, signal, expires⟩ (.inputRequested id expires) false

def InteractionState.operate (owner : NativeOwner) (nativeTurn : Option String) (call : NativeCall)
    (state : InteractionState) : InteractionState :=
  let refusal := (owner.bind state.closed nativeTurn call.binding).or
    (owner.checkIdentity call.identity)
  let id := "native-" ++ owner.uuid state.drawn
  let drawn := { state with drawn := state.drawn + 1 }
  match refusal, call.request with
  | some _, _ => state.leave
  | none, .approval none | none, .questions none | none, .form none => state.leave
  | none, .approval (some params) =>
    match params.grantRoot with
    | none => drawn.approve owner id call.signal params "" false
    | some _ => { drawn with current := some (.preparing id call.signal params) }
  | none, .questions (some params) =>
    -- duplicate or secret questions throw before an identity is drawn
    if ¬params.ids.Nodup ∨ params.isSecret = true then state.leave
    else drawn.ask owner id call.signal params.schema false
  | none, .form (some schema) => drawn.ask owner id call.signal schema true

/-! ## Outcomes -/

inductive Verdict where
  /-- The response was accepted before. -/
  | repeated
  | refused (error : NativeError)
  | accepted (request : PendingRequest) (event : NativeEvent) (reply : NativeReply)

/-- `#responseBinding`. -/
def NativeOwner.checkResponse (owner : NativeOwner) (closed : Bool) (sessionId actorId : String)
    (turnId requestScope : Option String) : Option NativeError :=
  if closed = true ∨ sessionId ≠ owner.sessionId ∨ turnId ≠ owner.turnId ∨ actorId = "" then
    some responseBinding
  else if requestScope.getD "turn" ≠ (if owner.turnId.isSome then "turn" else "session") then
    some responseScope
  else none

/-- `respondApproval`, up to the emission of the outcome. -/
def InteractionState.judgeApproval (owner : NativeOwner) (response : ApprovalResponse)
    (state : InteractionState) : Verdict :=
  match owner.checkResponse state.closed response.sessionId response.actorId response.turnId
      none with
  | some error => .refused error
  | none =>
    if state.resolved.get? response.requestId = some (owner.fingerprint (.approval response)) then
      .repeated
    else
      match state.pending with
      | none => .refused staleApproval
      | some request =>
        match request.kind with
        | .input _ _ => .refused staleApproval
        | .approval actionHash allowed rejectionFeedback =>
          if request.id ≠ response.requestId ∨ actionHash ≠ response.actionHash ∨
              response.decision ∉ allowed ∨ request.expires ≤ state.clock then
            .refused staleApproval
          else if response.feedback.isSome = true ∧
              ¬(rejectionFeedback = true ∧ owner.admitsFeedback response = true) then
            .refused feedbackUnsupported
          else
            .accepted request (.approvalResolved response)
              (.approval response.decision response.feedback)

/-- The value of an input response, unless the schema refuses it. -/
def inputValue (schema : Json → Option Json) (isForm : Bool) (response : InputResponse) :
    Option Json :=
  if response.cancelled = some true then
    some (if isForm then .null else .obj (.cons "answers" (.obj .nil) .nil))
  else schema response.value

/-- `respondInput`, up to the emission of the outcome. -/
def InteractionState.judgeInput (owner : NativeOwner) (response : InputResponse)
    (state : InteractionState) : Verdict :=
  match owner.checkResponse state.closed response.sessionId response.actorId response.turnId
      response.requestScope with
  | some error => .refused error
  | none =>
    if state.resolved.get? response.requestId = some (owner.fingerprint (.input response)) then
      .repeated
    else
      match state.pending with
      | none => .refused staleQuestion
      | some request =>
        match request.kind with
        | .approval _ _ _ => .refused staleQuestion
        | .input schema isForm =>
          if request.id ≠ response.requestId ∨ request.expires ≤ state.clock then
            .refused staleQuestion
          else
            match inputValue schema isForm response with
            | none => .refused (.thrown "Invalid input")
            | some value =>
              .accepted request
                (.inputResolved request.id response.actorId
                  (response.cancelled.getD false))
                (.input value)

def InteractionState.judge (owner : NativeOwner) (response : NativeResponse)
    (state : InteractionState) : Verdict :=
  match response with
  | .approval response => state.judgeApproval owner response
  | .input response => state.judgeInput owner response

def InteractionState.respond (owner : NativeOwner) (response : NativeResponse)
    (state : InteractionState) : InteractionState :=
  match state.judge owner response with
  | .repeated | .refused _ => state
  | .accepted request event reply =>
    { state with frames := .resolving request event response reply :: state.frames }

/-- The `reject` of a pending request, which emits the lost event first. -/
def InteractionState.fail (request : PendingRequest) (error : NativeError)
    (state : InteractionState) : InteractionState :=
  { state with frames := .losing request error :: state.frames }

/-- `#remember`: the oldest of more than 128 responses is forgotten. -/
def remember (resolved : Dict String String) (id fingerprint : String) : Dict String String :=
  let resolved := resolved.set id fingerprint
  if 128 < resolved.size then
    match resolved.keys with
    | [] => resolved
    | oldest :: _ => resolved.erase oldest
  else resolved

/-- `cleanup`, and the call that settles the promise. -/
def InteractionState.settle (id : String) (settlement : Settlement) (state : InteractionState) :
    InteractionState :=
  { state with pending := none, settlements := state.settlements ++ [(id, settlement)] }

def lostEvent (request : PendingRequest) (error : NativeError) : NativeEvent :=
  .lost request.id request.kind.kind (lostReason error)

/-- What the caller of `emit` does when it returns or throws. -/
def InteractionState.emitted (owner : NativeOwner) (thrown : Option NativeError)
    (state : InteractionState) : InteractionState :=
  match state.frames, thrown with
  | [], _ => state
  | .publishing _ event :: frames, none =>
    { state with frames, events := state.events ++ [event] }
  | .publishing request _ :: frames, some error => { state with frames }.fail request error
  | .resolving request event response reply :: frames, none =>
    { state with
      frames
      events := state.events ++ [event]
      resolved := remember state.resolved request.id (owner.fingerprint response)
      accepted := state.accepted ++ [response] }.settle request.id (.resolved reply)
  | .resolving _ _ _ _ :: frames, some _ => { state with frames }
  | .losing request error :: frames, none =>
    { state with
      frames
      events := state.events ++ [lostEvent request error] }.settle request.id (.rejected error)
  -- an unavailable journal cannot resurrect a callback
  | .losing request error :: frames, some _ =>
    { state with
      frames
      unrecorded := state.unrecorded ++ [request.id] }.settle request.id (.rejected error)

/-! ## Steps -/

/-- One step.  Timers and continuations of promises run only when no call of `emit` is open. -/
def InteractionState.step (owner : NativeOwner) (state : InteractionState) :
    InteractionAction → InteractionState
  | .request call => state.request owner call
  | .begin nativeTurn =>
    match state.frames, state.current, state.queue with
    | [], none, call :: queue => { state with queue }.operate owner nativeTurn call
    | _, _, _ => state
  | .located grantPath =>
    match state.frames, state.current, grantPath with
    | [], some (.preparing id signal params), some path =>
      state.approve owner id signal params path true
    | [], some (.preparing _ _ _), none => state.leave
    | _, _, _ => state
  | .finish =>
    match state.frames, state.current with
    | [], some (.serving id) =>
      if id ∈ state.settlements.map Prod.fst then state.leave else state
    | _, _ => state
  | .respond response => state.respond owner response
  | .emitted thrown => state.emitted owner thrown
  | .abort signal =>
    if signal ∈ state.aborted then state
    else
      let state := { state with aborted := state.aborted ++ [signal] }
      match state.pending with
      | some request => if request.signal = signal then state.fail request interrupted else state
      | none => state
  | .expire =>
    match state.frames, state.pending with
    | [], some request =>
      if request.expires ≤ state.clock then state.fail request expiredRequest else state
    | _, _ => state
  | .close =>
    let state := { state with closed := true }
    match state.pending with
    | some request => state.fail request closedRequest
    | none => state
  | .elapse milliseconds => { state with clock := state.clock + milliseconds }

end HarnessControl.Harnesses
