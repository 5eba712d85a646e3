import HarnessControl.Sdk.HostConnection

/-!
# Native sessions of a client

`HcpNativeSessions` opens and closes physical sessions over one connection.  Each call claims its
session with a token, sends one command and waits for its ack and, apart from that, for an event of
the session; what is observed meanwhile, an abort and the disposal revoke the token, and a call whose
token is gone changes nothing any more.
-/

namespace HarnessControl.Sdk

open HarnessControl.Library HarnessControl.Protocol

/-! ## Sessions -/

inductive SessionPhase where
  | opening
  | reserved
  | active
  | closing
  | closed
  | unconfirmed
deriving DecidableEq

/-- `HcpNativeSessionState`. -/
structure NativeSession where
  payload : SessionStartPayload
  phase : SessionPhase
  closeAttempted : Bool
  configured : Option HarnessEvent
  exited : Option HarnessEvent
  /-- What was observed of the session since it was opened, until it is closed. -/
  observed : List SessionObservation
  /-- The number of these observations when the stop was sent. -/
  stoppedAt : Option Nat
deriving DecidableEq

/-- `event.data.native_reference`, if it is a string. -/
def nativeReference (event : HarnessEvent) : Option String :=
  match event.data.field? "native_reference" with
  | some (.str reference) => some reference
  | _ => none

def hasProfile (event : HarnessEvent) (profile : Option String) : Bool :=
  event.data.field? "execution_profile" == profile.map Json.str

def ready (event : HarnessEvent) (profile : Option String) : Bool :=
  event.eventType == "session.configured" && hasProfile event profile &&
  event.data.field? "native_conversation_ready" == some (.bool true) &&
  (nativeReference event).isSome

/-- The proof that `close` waits for. -/
def confirmsExit (providerInstanceId : String) (event : HarnessEvent) : Bool :=
  event.eventType == "session.exited" &&
  event.data.field? "provider_instance_id" == some (.str providerInstanceId) &&
  event.data.field? "native_owner_closed" == some (.bool true)

namespace NativeSession

/-- The session has another conversation than the one it was expected to continue. -/
def mismatches (event : HarnessEvent) (record : NativeSession) : Bool :=
  record.payload.expectedNativeReference.isSome &&
  record.payload.expectedNativeReference != nativeReference event

def unconfirm (record : NativeSession) : NativeSession :=
  if record.phase = .closed then record else { record with phase := .unconfirmed }

/-- The rest of `#observe`, for an event that is new; `none` where the session is no longer
confirmed. -/
def observe (event : HarnessEvent) (record : NativeSession) : Option NativeSession :=
  if event.eventType = "session.exited" ∧ record.phase ≠ .closing then none
  else if (record.phase = .reserved ∨ record.phase = .active) ∧
      ready event record.payload.executionProfile = true then
    if record.mismatches event = true ∨ record.phase = .active ∧
        record.configured.bind nativeReference ≠ nativeReference event then none
    else some { record with configured := some event, phase := .active }
  else if event.eventType = "native.work.owner_lost" ∧ record.phase ≠ .closing then none
  else some record

end NativeSession

/-! ## Calls -/

inductive Readiness where
  | configured
  | conversation
deriving DecidableEq

inductive NativeOperation where
  | openSession (payload : SessionStartPayload) (readiness : Readiness)
  | closeSession (providerInstanceId : String)

/-- The event that the call waits for. -/
def NativeOperation.awaits (event : HarnessEvent) : NativeOperation → Bool
  | .openSession payload readiness =>
    event.eventType == "session.configured" && hasProfile event payload.executionProfile &&
    (readiness == .configured || ready event payload.executionProfile)
  | .closeSession providerInstanceId => confirmsExit providerInstanceId event

inductive EventWait where
  | pending
  | met (event : HarnessEvent)
  | failed
deriving DecidableEq

inductive CallStage where
  | awaiting
  /-- The rest of `#operation` has not run yet. -/
  | throwing
  | returning
  | ended
deriving DecidableEq

/-- A call that has claimed its session; its place in the list of calls is its token. -/
structure NativeCall where
  sessionId : String
  operation : NativeOperation
  afterSequence : Nat
  stage : CallStage
  /-- The promise of `send`, and whether it was acked. -/
  reply : Option Bool
  wait : EventWait
  aborted : Bool

namespace NativeCall

/-- The waiters of `#observeEvent`. -/
def wake (event : HarnessEvent) (call : NativeCall) : NativeCall :=
  if call.wait = .pending ∧ call.sessionId = event.sessionId ∧
      call.afterSequence < event.sequence ∧ call.operation.awaits event = true then
    { call with wait := .met event }
  else call

/-- The waiters of `#failEventWaiters`. -/
def lose (sessionId : Option String) (call : NativeCall) : NativeCall :=
  if call.wait = .pending ∧ sessionId.all (· == call.sessionId) = true then
    { call with wait := .failed }
  else call

/-- The command has failed, unless it was answered. -/
def reject (call : NativeCall) : NativeCall :=
  { call with reply := some (call.reply.getD false) }

end NativeCall

inductive NativeCommand where
  | start (sessionId : String)
  | stop (sessionId : String)
deriving DecidableEq

/-! ## The registry -/

structure NativeSessions where
  state : ConnectionState
  events : SessionEventReducer
  /-- What the connection has not told yet, the next first. -/
  untold : List SessionObservation
  subscribed : Bool
  disposed : Bool
  records : Dict String NativeSession
  mutations : Dict String Nat
  positions : Dict String Nat
  calls : List NativeCall
  sent : List NativeCommand

namespace NativeSessions

def opened (state : ConnectionState) (events : SessionEventReducer) : NativeSessions where
  state
  events
  untold := []
  subscribed := true
  disposed := false
  records := Dict.empty
  mutations := Dict.empty
  positions := Dict.empty
  calls := []
  sent := []

def put (id : String) (record : NativeSession) (run : NativeSessions) : NativeSessions :=
  { run with records := run.records.set id record }

def release (id : String) (run : NativeSessions) : NativeSessions :=
  { run with mutations := run.mutations.erase id }

def setCall (index : Nat) (call : NativeCall) (run : NativeSessions) : NativeSessions :=
  { run with calls := run.calls.set index call }

/-! ### Observations -/

def observeEvent (event : HarnessEvent) (run : NativeSessions) : NativeSessions :=
  match run.records.get? event.sessionId with
  | none => run
  | some record =>
    if record.phase = .closed then run
    else
      let record := { record with observed := record.observed ++ [.event event] }
      if event.sequence ≤ (run.positions.get? event.sessionId).getD 0 then
        run.put event.sessionId record
      else
        let run := { run with positions := run.positions.set event.sessionId event.sequence }
        match record.observe event with
        | none => (run.put event.sessionId record.unconfirm).release event.sessionId
        | some next => run.put event.sessionId next

def concerns (sessionId : Option String) (id : String) : Bool :=
  sessionId.all fun lost => lost == "" || lost == id

def observeLoss (reason : UnconfirmedReason) (sessionId : Option String) (run : NativeSessions) :
    NativeSessions :=
  { run with
    records := run.records.map fun record =>
      if concerns sessionId record.payload.sessionId && record.phase != .closed then
        NativeSession.unconfirm { record with
          observed := record.observed ++ [.unconfirmed reason sessionId] }
      else record
    mutations := run.mutations.filter fun id _ =>
      !(concerns sessionId id && (run.records.get? id).any fun record => record.phase != .closed) }

/-- An observation reaches the registry and the waiters. -/
def tell (observation : SessionObservation) (run : NativeSessions) : NativeSessions :=
  match observation with
  | .event event =>
    let told := if run.subscribed then run.observeEvent event else run
    { told with calls := told.calls.map (NativeCall.wake event) }
  | .unconfirmed reason sessionId =>
    let told := if run.subscribed then run.observeLoss reason sessionId else run
    { told with calls := told.calls.map (NativeCall.lose sessionId) }

/-- What `receive` commits and then tells, before what is not told yet. -/
def receive (schemas : PayloadSchemas) (texts : JsonTexts) (message : RunnerMessage)
    (run : NativeSessions) : NativeSessions :=
  if message.valid schemas = true then
    match run.state, message with
    | .awaitingHello, .hostHello => { run with state := .awaitingAccept }
    | .accepted, .replayUnavailable sessionId =>
      { run with
        untold := .unconfirmed .reconciliationRequired (some sessionId) :: run.untold }
    | .accepted, .harnessEvent payload =>
      match run.events.applyEvent texts payload with
      | (.applied _, events) => { run with events, untold := .event payload :: run.untold }
      | (.duplicate _, _) => run
      | (_, events) =>
        { run with
          events
          untold := .unconfirmed .reconciliationRequired (some payload.sessionId) ::
            run.untold }
    | .accepted, .sessionSnapshot payload =>
      match run.events.applySnapshot texts payload with
      | (.applied _ _ _ _, events) =>
        let observed := (events.events texts).filter fun event =>
          event.sessionId == payload.sessionId
        { run with events, untold := observed.map SessionObservation.event ++ run.untold }
      | (_, events) =>
        { run with
          events
          untold := .unconfirmed .reconciliationRequired (some payload.sessionId) ::
            run.untold }
    | _, _ => run
  else run

/-- The commands that wait have an unknown outcome; the observers are told, and are then cleared. -/
def disconnect (run : NativeSessions) : NativeSessions :=
  let closed := { run with
    state := .closed
    calls := run.calls.map NativeCall.reject }
  let told := closed.tell (.unconfirmed .disconnected none)
  { told with subscribed := false }

/-! ### Operations -/

def lastSequence (texts : JsonTexts) (sessionId : String) (run : NativeSessions) : Nat :=
  (run.events.events texts).foldl (fun last event =>
    if event.sessionId = sessionId then max last event.sequence else last) 0

/-- The call claims its session, waits for its event and sends its command. -/
def dispatch (texts : JsonTexts) (sends : Bool) (sessionId : String) (operation : NativeOperation)
    (command : NativeCommand) (record : NativeSession) (run : NativeSessions) : NativeSessions :=
  { run with
    records := run.records.set sessionId record
    mutations := run.mutations.set sessionId run.calls.length
    calls := run.calls ++ [{
      sessionId
      operation
      afterSequence := run.lastSequence texts sessionId
      stage := if sends then .awaiting else .throwing
      reply := none
      wait := .pending
      aborted := false }]
    sent := if sends then run.sent ++ [command] else run.sent }

def maxNativeSessions : Nat := 4096

def holdsGroup (key : String) (run : NativeSessions) : Bool :=
  run.records.values.any fun record =>
    record.payload.continuationGroupKey == some key && record.phase != .closed

/-- `open`; the wait or the command may be refused, as they are without a connection. -/
def openSession (schemas : PayloadSchemas) (texts : JsonTexts) (payload : SessionStartPayload)
    (readiness : Readiness) (sends : Bool) (run : NativeSessions) : NativeSessions :=
  if run.disposed = true ∨ payload.executionProfile.getD "" = "" ∨ payload.firstTurn.isSome = true then
    run
  else if (run.records.get? payload.sessionId).isSome = true ∨
      maxNativeSessions ≤ run.records.size then run
  else if payload.continuationGroupKey.any run.holdsGroup = true then run
  else if payload.valid schemas = false then run
  else
    run.dispatch texts (sends && run.state == .accepted) payload.sessionId
      (.openSession payload readiness) (.start payload.sessionId)
      ⟨payload, .opening, false, none, none, [], none⟩

/-- `close`. -/
def closeSession (texts : JsonTexts) (sessionId : String) (sends : Bool) (run : NativeSessions) :
    NativeSessions :=
  if run.disposed = true then run
  else
    match run.records.get? sessionId with
    | none => run
    | some record =>
      if record.phase = .closed ∨ record.phase = .opening ∨ record.phase = .closing ∨
          record.closeAttempted = true then run
      else
        let sends := sends && run.state == .accepted
        run.dispatch texts sends sessionId
          (.closeSession record.payload.providerInstanceId) (.stop sessionId)
          { record with
            phase := .closing
            closeAttempted := true
            stoppedAt := if sends then some record.observed.length else none }

def dispose (run : NativeSessions) : NativeSessions :=
  { run with
    disposed := true
    subscribed := false
    mutations := Dict.empty
    records := run.records.map NativeSession.unconfirm }

/-- `#operation`'s `fence`. -/
def fence (index : Nat) (sessionId : String) (run : NativeSessions) : NativeSessions :=
  if run.mutations.get? sessionId = some index then
    match run.records.get? sessionId with
    | none => run.release sessionId
    | some record => (run.put sessionId record.unconfirm).release sessionId
  else run

/-- The signal of the call is aborted; its wait and its command fail. -/
def abort (index : Nat) (run : NativeSessions) : NativeSessions :=
  match run.calls[index]? with
  | none => run
  | some call =>
    if call.stage = .ended then run
    else
      (run.fence index call.sessionId).setCall index { call with
        aborted := true
        reply := some (call.reply.getD false)
        wait := if call.wait = .pending then .failed else call.wait }

/-- The command has been acked and its event was observed. -/
def commit (texts : JsonTexts) (index : Nat) (call : NativeCall) (event : HarnessEvent)
    (run : NativeSessions) : NativeSessions :=
  match run.records.get? call.sessionId with
  | none => run
  | some record =>
    match call.operation with
    | .openSession payload _ =>
      let profile := payload.executionProfile
      let latest := ((run.events.events texts).filter fun later =>
        later.sessionId == call.sessionId && decide (event.sequence ≤ later.sequence) &&
        ready later profile).getLast?
      let configured := latest.getD event
      if ready configured profile = true ∧ record.mismatches configured = true then
        (run.put call.sessionId { record with configured := some configured }).setCall index
          { call with stage := .throwing }
      else
        (run.put call.sessionId { record with
          configured := some configured
          phase := if ready configured profile then .active else .reserved }).setCall index
          { call with stage := .returning }
    | .closeSession _ =>
      (run.put call.sessionId { record with exited := some event, phase := .closed }).setCall
        index { call with stage := .returning }

/-- The call goes on after its command and its event, if both are settled. -/
def proceed (texts : JsonTexts) (index : Nat) (run : NativeSessions) : NativeSessions :=
  match run.calls[index]? with
  | none => run
  | some call =>
    if call.stage = .awaiting then
      match call.reply, call.wait with
      | none, _ | some true, .pending => run
      | some false, _ | some true, .failed => run.setCall index { call with stage := .throwing }
      | some true, .met event =>
        if call.aborted = true ∨ run.mutations.get? call.sessionId ≠ some index then
          run.setCall index { call with stage := .throwing }
        else run.commit texts index call event
    else run

/-- The rest of `#operation`: a call that throws is fenced, and any call gives its token back. -/
def finish (index : Nat) (run : NativeSessions) : NativeSessions :=
  match run.calls[index]? with
  | none => run
  | some call =>
    if call.stage = .throwing then
      (run.fence index call.sessionId).setCall index { call with stage := .ended }
    else if call.stage = .returning then
      let ended := run.setCall index { call with stage := .ended }
      if run.mutations.get? call.sessionId = some index then ended.release call.sessionId
      else ended
    else run

end NativeSessions

/-! ## Runs -/

inductive NativeAction where
  | receive (message : RunnerMessage)
  | accept
  | disconnect
  /-- The next observation is told. -/
  | tell
  | openSession (payload : SessionStartPayload) (readiness : Readiness) (sends : Bool)
  | closeSession (sessionId : String) (sends : Bool)
  | dispose
  /-- The command is acked, or rejected or its outcome is unknown. -/
  | settle (index : Nat) (acked : Bool)
  /-- The wait for the event times out. -/
  | expire (index : Nat)
  | abort (index : Nat)
  | proceed (index : Nat)
  | finish (index : Nat)

def NativeSessions.step (schemas : PayloadSchemas) (texts : JsonTexts) (run : NativeSessions) :
    NativeAction → NativeSessions
  | .receive message => run.receive schemas texts message
  | .accept => if run.state = .awaitingAccept then { run with state := .accepted } else run
  | .disconnect => run.disconnect
  | .tell =>
    match run.untold with
    | [] => run
    | observation :: rest => { run with untold := rest }.tell observation
  | .openSession payload readiness sends => run.openSession schemas texts payload readiness sends
  | .closeSession sessionId sends => run.closeSession texts sessionId sends
  | .dispose => run.dispose
  | .settle index acked =>
    { run with
      calls := run.calls.modify index fun call =>
        { call with reply := some (call.reply.getD acked) } }
  | .expire index =>
    { run with
      calls := run.calls.modify index fun call =>
        { call with wait := if call.wait = .pending then .failed else call.wait } }
  | .abort index => run.abort index
  | .proceed index => run.proceed texts index
  | .finish index => run.finish index

end HarnessControl.Sdk
