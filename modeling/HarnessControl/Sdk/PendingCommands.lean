import HarnessControl.Harnesses.InputFiles

/-!
# Commands that wait for the runner

`send` returns a promise that waits in a map under the id of its command.  A message of the runner
settles the promise it correlates with, by the id of the command or, for local actions, by the id of
the request; timers, aborts, failures of the transport and the end of the connection settle it too.
-/

namespace HarnessControl.Sdk

open HarnessControl.Library HarnessControl.Protocol HarnessControl.Harnesses

/-! ## Commands -/

/-- `harnessNativeGoalOperationSchema`. -/
inductive GoalOperation where
  | read
  | pause (expectedNativeCreatedAt : Int)
  | clear (expectedNativeCreatedAt : Int)
deriving DecidableEq

/-- `harnessNativeWorkOperationSchema`. -/
inductive WorkOperation where
  | read
  | cancel (workId : String)
  | retire (workId : String)
  | history (workId : String) (expectedRevision : Int) (retained : Bool)
  | fork (workId : String) (expectedRevision : Int) (targetSessionId : String)
    (continuationGroupKey : String)
  | reconcile (workId : String) (expectedRevision : Int)
deriving DecidableEq

/-- The operation of a conversation request, with what its result is compared with. -/
inductive ConversationOperation where
  | read
  | rollback
  | retire
  | policy
  | inject (messageCount : Nat)
  | steer (turnId : String)
  | fork (targetSessionId : String) (continuationGroupKey : String)
  | content (contentId : String) (offset : Nat)
  | work (operation : WorkOperation)
  | inputFile (request : InputFileRequest)
  | feedback (classification : String) (includeDiagnostics : Bool)
  | goal (operation : GoalOperation)
deriving DecidableEq

def ConversationOperation.kind : ConversationOperation → ConversationOperationKind
  | .read => .read
  | .rollback => .rollback
  | .retire => .retire
  | .policy => .policy
  | .inject _ => .inject
  | .steer _ => .steer
  | .fork _ _ => .fork
  | .content _ _ => .content
  | .work _ => .work
  | .inputFile _ => .inputFile
  | .feedback _ _ => .feedback
  | .goal _ => .goal

inductive AckedCommand where
  | sessionStart
  | turnSend
  | turnCancel
  | sessionStop
  | approvalRespond
  | inputRespond
  | toolServersDetach
deriving DecidableEq

inductive AppCommandPayload where
  | acked (command : AckedCommand)
  | accountsRead (providerInstanceIds : Option (List String))
  | workspacesRequest
  | snapshotRequest (sessionId : String)
  | conversationRequest (sessionId : String) (operation : ConversationOperation)
  | localAction (requestId : String) (sessionId : String) (action : String)
deriving DecidableEq

structure AppCommand where
  id : String
  payload : AppCommandPayload
deriving DecidableEq

/-! ## Messages of the runner -/

/-- `harnessNativeWorkResultSchema`, with what is compared with the operation. -/
inductive WorkReply where
  | read
  | cancel (workId : String)
  | retire (workId : String)
  | history (workId : String) (revision : Int) (retained : Bool)
  | fork (workId : String) (revision : Int) (fork : ConversationFork)
  | reconcile (workId : String) (revision : Int)
deriving DecidableEq

inductive InputFileReplyAction where
  | create
  | append
  | sealUpload
  | read
  | release
deriving DecidableEq

structure InputFileReply where
  action : InputFileReplyAction
  reference : InputFileReference
  receivedBytes : Nat
deriving DecidableEq

structure ContentReply where
  contentId : String
  offset : Nat
deriving DecidableEq

/-- `harness.conversation.result`. -/
structure ConversationReply where
  commandId : String
  sessionId : String
  operation : ConversationOperationKind
  injection : Option InjectionOutcome := none
  turnId : Option String := none
  goal : Option GoalResult := none
  feedback : Option FeedbackResult := none
  inputFile : Option InputFileReply := none
  content : Option ContentReply := none
  fork : Option ConversationFork := none
  work : Option WorkReply := none
deriving DecidableEq

/-- `local.action.response` and `local.action.error`. -/
structure LocalActionReply where
  requestId : String
  sessionId : String
  action : String
  failed : Bool
deriving DecidableEq

inductive RunnerReply where
  | hostHello (hostId : String)
  | ack (commandId : String)
  | nack (commandId : String) (error : HcpError)
  | accountsSnapshot (requestId hostId : String) (providerInstanceIds : List String)
  | workspacesResult (requestId : String)
  | sessionSnapshot (commandId sessionId : String)
  | conversationResult (reply : ConversationReply)
  | localAction (reply : LocalActionReply)
  /-- Heartbeats, capabilities, events and the like. -/
  | other
deriving DecidableEq

/-! ## Correlation -/

def replyAction : InputFileRequest → InputFileReplyAction
  | .create _ => .create
  | .append _ _ _ => .append
  | .sealUpload _ => .sealUpload
  | .read _ => .read
  | .release _ => .release

def base64Size (text : String) : Nat :=
  text.length / 4 * 3 -
    (if "==".toList.isSuffixOf text.toList then 2
    else if "=".toList.isSuffixOf text.toList then 1 else 0)

/-- What `#settle` asks of the result of an operation beside its kind. -/
def ConversationOperation.accepts (operation : ConversationOperation)
    (reply : ConversationReply) : Bool :=
  match operation with
  | .read | .rollback | .retire | .policy => true
  | .inject messageCount =>
    match reply.injection with
    | some (.applied count) => count == messageCount
    | _ => true
  | .steer turnId => reply.turnId == some turnId
  | .goal operation =>
    match operation, reply.goal with
    | .read, some (.read _ _) => true
    | .pause expected, some (.pause _ target _) => target == expected
    | .clear expected, some (.clear _ target) => target == expected
    | _, _ => false
  | .feedback classification includeDiagnostics =>
    reply.feedback.any fun feedback => feedback.classification == classification &&
      feedback.diagnosticsRequested == includeDiagnostics
  | .inputFile request =>
    match reply.inputFile with
    | none => false
    | some file =>
      file.action == replyAction request &&
        match request with
        | .create description => file.reference.toInputFileDescription == description
        | .append fileId offset dataBase64 =>
          file.reference.fileId == fileId &&
            decide (offset + base64Size dataBase64 ≤ file.receivedBytes)
        | .sealUpload fileId | .read fileId | .release fileId =>
          file.reference.fileId == fileId
  | .content contentId offset => reply.content == some ⟨contentId, offset⟩
  | .fork targetSessionId continuationGroupKey =>
    reply.fork.any fun fork => fork.sessionId == targetSessionId &&
      fork.continuationGroupKey == continuationGroupKey
  | .work operation =>
    match operation, reply.work with
    | .read, some .read => true
    | .cancel workId, some (.cancel found) => found == workId
    | .retire workId, some (.retire found) => found == workId
    | .history workId expectedRevision retained, some (.history found revision kept) =>
      found == workId && revision == expectedRevision && kept == retained
    | .fork workId expectedRevision targetSessionId continuationGroupKey,
      some (.fork found revision target) =>
      found == workId && revision == expectedRevision && target.sessionId == targetSessionId &&
        target.continuationGroupKey == continuationGroupKey
    | .reconcile workId expectedRevision, some (.reconcile found revision) =>
      found == workId && revision == expectedRevision + 1
    | _, _ => false

structure PendingCommand where
  command : AppCommand
  promise : Nat
deriving DecidableEq

abbrev Pending := Dict String PendingCommand

/-- The request ids of local actions that wait. -/
def PendingCommand.awaits (reply : LocalActionReply) (pending : PendingCommand) : Bool :=
  match pending.command.payload with
  | .localAction requestId _ action => requestId == reply.requestId && action == reply.action
  | _ => false

/-- `#settle`: the command that a message settles. -/
def settledBy (pending : Pending) : RunnerReply → Option PendingCommand
  | .ack commandId =>
    (pending.get? commandId).filter fun waiting =>
      match waiting.command.payload with
      | .acked _ => true
      | _ => false
  | .nack commandId _ => pending.get? commandId
  | .conversationResult reply =>
    (pending.get? reply.commandId).filter fun waiting =>
      match waiting.command.payload with
      | .conversationRequest sessionId operation =>
        sessionId == reply.sessionId && operation.kind == reply.operation &&
          operation.accepts reply
      | _ => false
  | .accountsSnapshot requestId _ _ =>
    (pending.get? requestId).filter fun waiting =>
      match waiting.command.payload with
      | .accountsRead _ => true
      | _ => false
  -- the session of the reply is not compared
  | .localAction reply => pending.values.find? (PendingCommand.awaits reply)
  | .workspacesResult requestId =>
    (pending.get? requestId).filter fun waiting =>
      match waiting.command.payload with
      | .workspacesRequest => true
      | _ => false
  | .sessionSnapshot commandId sessionId =>
    (pending.get? commandId).filter fun waiting =>
      match waiting.command.payload with
      | .snapshotRequest requested => requested == sessionId
      | _ => false
  | .hostHello _ | .other => none

/-- The providers of a snapshot are those that were requested. -/
def selectionMatches (requested : Option (List String)) (providers : List String) : Bool :=
  match requested with
  | none => true
  | some requested =>
    requested.length == providers.length && providers.all requested.contains

/-- `receive` rejects the snapshot before it settles anything. -/
def snapshotRefused (pending : Pending) (hostId : String) : RunnerReply → Bool
  | .accountsSnapshot requestId host providers =>
    host != hostId ||
      (pending.get? requestId).any fun waiting =>
        match waiting.command.payload with
        | .accountsRead requested => !selectionMatches requested providers
        | _ => false
  | _ => false

/-! ## Runs -/

inductive PeerState where
  | awaitingHello
  | awaitingAccept (hostId : String)
  | accepted (hostId : String)
  | closed

/-- How a promise was settled, with the number of the message that did. -/
inductive CommandOutcome where
  | resolved (received : Nat) (message : RunnerReply)
  | rejected (received : Nat) (message : RunnerReply)
  /-- `HcpOutcomeUnknownError`. -/
  | unknown (reason : String)
deriving DecidableEq

structure CommandRun where
  state : PeerState
  pending : Pending
  /-- The transport is still sending the commands of these promises, the innermost first. -/
  sending : List Nat
  /-- The commands of the promises so far. -/
  sent : List AppCommand
  settled : Dict Nat CommandOutcome
  received : Nat

inductive CommandAction where
  | receive (message : RunnerReply)
  /-- The runner is accepted; the message may fail to be sent. -/
  | accept (fails : Bool)
  | send (command : AppCommand)
  /-- The innermost call of the transport returns or throws. -/
  | transportEnds (throws : Bool)
  | timeout (promise : Nat)
  | abort (promise : Nat)
  | disconnect

namespace CommandRun

def initial : CommandRun := ⟨.awaitingHello, Dict.empty, [], [], Dict.empty, 0⟩

/-- A promise is settled by the first call only. -/
def settle (promise : Nat) (outcome : CommandOutcome) (run : CommandRun) : CommandRun :=
  if (run.settled.get? promise).isSome then run
  else { run with settled := run.settled.set promise outcome }

/-- `fail` of the promise. -/
def fail (promise : Nat) (reason : String) (run : CommandRun) : CommandRun :=
  match run.sent[promise]? with
  | none => run
  | some command =>
    CommandRun.settle promise (.unknown reason)
      { run with pending := run.pending.erase command.id }

def maxPending : Nat := 256

/-- A local action with the request id of the command is waiting. -/
def requestPending (command : AppCommand) (run : CommandRun) : Bool :=
  match command.payload with
  | .localAction requestId _ _ =>
    run.pending.values.any fun waiting =>
      match waiting.command.payload with
      | .localAction other _ _ => other == requestId
      | _ => false
  | _ => false

/-- `send`, up to the call of the transport; what it throws before leaves no promise. -/
def send (command : AppCommand) (run : CommandRun) : CommandRun :=
  match run.state with
  | .accepted _ =>
    if maxPending ≤ run.pending.size ∨ (run.pending.get? command.id).isSome ∨
        run.requestPending command = true then run
    else
      { run with
        pending := run.pending.set command.id ⟨command, run.sent.length⟩
        sending := run.sent.length :: run.sending
        sent := run.sent ++ [command] }
  | _ => run

def disconnect (run : CommandRun) : CommandRun :=
  let closed : CommandRun := { run with state := .closed, pending := Dict.empty }
  run.pending.values.foldl (fun run waiting =>
    run.settle waiting.promise (.unknown "Runner disconnected.")) closed

def receive (message : RunnerReply) (run : CommandRun) : CommandRun :=
  match run.state, message with
  | .awaitingHello, .hostHello hostId => { run with state := .awaitingAccept hostId }
  | .accepted _, .hostHello _ => run
  | .accepted hostId, message =>
    if snapshotRefused run.pending hostId message then run
    else
      match settledBy run.pending message with
      | none => run
      | some waiting =>
        let outcome : CommandOutcome :=
          match message with
          | .nack _ _ => .rejected run.received message
          | _ => .resolved run.received message
        CommandRun.settle waiting.promise outcome
          { run with pending := run.pending.erase waiting.command.id }
  | _, _ => run

/-- A timer or an abort listener runs while its promise waits. -/
def waits (promise : Nat) (run : CommandRun) : Bool :=
  run.pending.values.any fun waiting => waiting.promise == promise

def step (run : CommandRun) : CommandAction → CommandRun
  | .receive message => { run.receive message with received := run.received + 1 }
  | .accept fails =>
    match run.state with
    | .awaitingAccept hostId =>
      let accepted : CommandRun := { run with state := .accepted hostId }
      if fails then accepted.disconnect else accepted
    | _ => run
  | .send command => run.send command
  | .transportEnds throws =>
    match run.sending with
    | [] => run
    | promise :: sending =>
      let ended : CommandRun := { run with sending }
      if throws then ended.fail promise "Sending to the runner failed." else ended
  | .timeout promise =>
    if run.waits promise then run.fail promise "Timed out waiting for the runner." else run
  | .abort promise =>
    if run.waits promise then run.fail promise "Stopped waiting for the runner." else run
  | .disconnect => run.disconnect

end CommandRun

end HarnessControl.Sdk
