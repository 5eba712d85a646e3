import HarnessControl.Library.Schema
import HarnessControl.Protocol.Json

/-!
# Protocol payloads

The payloads that the runner stores or sends, with the schemas they are read back through.  Times
are milliseconds; the texts of timestamps are never compared.  Payloads whose inner shape no
modelled function looks into are JSON values, checked by the schemas of a `PayloadSchemas`.
-/

namespace HarnessControl.Protocol

open HarnessControl.Library

structure PayloadSchemas where
  /-- `knownHcpEventDataSchemas` and `hcpExtensionEventDataSchema`, by event type. -/
  eventData : String → Json → Bool
  history : Json → Bool
  contentChunk : Json → Bool
  inputFileResult : Json → Bool
  contentReference : Json → Bool
  approvalOptions : Json → Bool
  nativeWorkPage : Json → Bool
  /-- The settings of a session start that no modelled function reads. -/
  startSettings : Json → Bool
  turnSettings : Json → Bool
  localActionRequest : Json → Bool
  localActionResponse : Json → Bool
  localActionError : Json → Bool
  /-- The request has a method of the MCP client with valid parameters. -/
  inputRequest : Json → Bool
  /-- The response has the type that its request asks for. -/
  inputResponse : Json → Json → Bool
  /-- `Buffer.byteLength(JSON.stringify(value), "utf8")`. -/
  jsonBytes : Json → Nat

/-! ## Events -/

structure HarnessEvent where
  sessionId : String
  turnId : Option String
  sequence : Nat
  eventType : String
  createdAt : Int
  data : Json
deriving DecidableEq

/-- `KNOWN_HCP_EVENT_TYPES`. -/
def knownEventTypes : List String :=
  ["session.started", "session.configured", "settings.effective", "settings.options.effective",
    "settings.tools.effective", "session.state.changed", "session.exited", "thread.started",
    "thread.state.changed", "thread.metadata.updated", "thread.token_usage.updated",
    "thread.realtime.started", "thread.realtime.item_added", "thread.realtime.audio_delta",
    "thread.realtime.error", "thread.realtime.closed", "auth.status", "account.updated",
    "account.rate_limits.updated", "turn.started", "turn.completed", "turn.failed", "turn.aborted",
    "turn.cancelled", "turn.plan.updated", "turn.proposed.delta", "turn.proposed.completed",
    "turn.proposed.observed", "turn.diff.updated", "item.started", "item.updated",
    "item.completed", "content.delta", "reasoning.delta", "command.started", "command.completed",
    "local_capability.lease.created", "local_capability.lease.revoked",
    "local_capability.lease.expired", "local_capability.action.started",
    "local_capability.action.completed", "local_capability.action.failed", "file_change.started",
    "file_change.completed", "mcp_tool.started", "mcp_tool.completed", "mcp.status.updated",
    "mcp.oauth.completed", "approval.requested", "approval.resolved", "input.requested",
    "input.resolved", "request.opened", "request.resolved", "user_input.requested",
    "user_input.resolved", "task.started", "task.progress", "task.completed", "hook.started",
    "hook.progress", "hook.completed", "tool.progress", "tool.summary", "model.rerouted",
    "config.warning", "deprecation.notice", "files.persisted", "workspace.preflight.completed",
    "usage.updated", "context.updated", "context.input.prepared", "native.work.updated",
    "native.execution.admitted", "native.execution.completed", "native.goal.updated",
    "native.goal.observed", "native.work.retired", "native.work.owner_lost",
    "native.request.lost", "native.output.updated", "native.retry.updated", "runtime.warning",
    "runtime.error"]

def startsWith (text start : String) : Bool := start.toList.isPrefixOf text.toList

def isHcpEventType (value : String) : Bool :=
  knownEventTypes.contains value || startsWith value "provider." || startsWith value "extension."

def turnlessEventTypes : List String :=
  ["native.output.updated", "native.retry.updated", "native.goal.observed"]

def turnEventTypes : List String :=
  ["settings.effective", "settings.options.effective", "context.input.prepared",
    "native.execution.admitted", "native.execution.completed", "native.goal.updated"]

def requestEventTypes : List String :=
  ["input.requested", "input.resolved", "user_input.requested", "user_input.resolved",
    "native.request.lost"]

/-- `hcpHarnessEventPayloadSchema`. -/
def HarnessEvent.valid (schemas : PayloadSchemas) (event : HarnessEvent) : Bool :=
  event.sessionId != "" && event.turnId != some "" && decide (0 < event.sequence) &&
  isHcpEventType event.eventType &&
  !(turnlessEventTypes.contains event.eventType && event.turnId.isSome) &&
  !(turnEventTypes.contains event.eventType && event.turnId.isNone) &&
  schemas.eventData event.eventType event.data &&
  !(requestEventTypes.contains event.eventType &&
    event.data.field? "request_scope" == some (.str "session") && event.turnId.isSome) &&
  !(startsWith event.eventType "local_capability.action." && event.turnId.isNone)

def eventSchema (schemas : PayloadSchemas) : Schema HarnessEvent :=
  Schema.refine (HarnessEvent.valid schemas)

/-! ## Command outcomes -/

structure HcpError where
  code : String
  message : String
  retryable : Bool
  details : Option JsonFields
deriving DecidableEq

def HcpError.kept (error : HcpError) : HcpError :=
  { error with details := error.details.map JsonFields.recordKept }

theorem HcpError.kept_kept (error : HcpError) : error.kept.kept = error.kept := by
  rcases error with ⟨code, message, retryable, details⟩
  cases details with
  | none => rfl
  | some fields =>
    have h := fields.recordKept_recordKept
    simp only [HcpError.kept, Option.map_some, h]

/-- `hcpErrorSchema`. -/
def HcpError.valid (error : HcpError) : Bool := error.code != "" && error.message != ""

structure CommandNack where
  commandId : String
  rejectedAt : Int
  error : HcpError
deriving DecidableEq

/-- `hcpCommandNackPayloadSchema`. -/
def CommandNack.valid (nack : CommandNack) : Bool := nack.commandId != "" && nack.error.valid

structure CommandAck where
  commandId : String
  acceptedAt : Int
  duplicate : Bool

/-! ## Native policy -/

/-- The pairs of approval policy and approval reviewer that a policy control may select. -/
inductive PolicySelection where
  | askUser
  | autoEditsUser
  | autoEditsNativeAuto
  | fullAccessUser
deriving DecidableEq

inductive ApprovalPolicy where
  | ask
  | autoEdits
  | fullAccess
deriving DecidableEq

inductive ApprovalReviewer where
  | user
  | nativeAuto
deriving DecidableEq

def PolicySelection.approvalPolicy : PolicySelection → ApprovalPolicy
  | .askUser => .ask
  | .autoEditsUser | .autoEditsNativeAuto => .autoEdits
  | .fullAccessUser => .fullAccess

def PolicySelection.approvalReviewer : PolicySelection → ApprovalReviewer
  | .askUser | .autoEditsUser | .fullAccessUser => .user
  | .autoEditsNativeAuto => .nativeAuto

structure PolicyResult where
  nativeReference : String
  revision : Int
  selection : PolicySelection
  observedAt : Int
  nativeSource : String
  nativePermissionMode : String
deriving DecidableEq

/-- `harnessNativePolicyControlResultSchema`. -/
def PolicyResult.valid (policy : PolicyResult) : Bool :=
  identity policy.nativeReference && decide (1 ≤ policy.revision) &&
  decide (policy.revision ≤ 1024) && tokenText ['_', '.'] 127 policy.nativeSource &&
  boundedText 128 policy.nativePermissionMode

/-! ## Sessions and turns -/

inductive TransitionChange where
  | policy
  | mcpCatalog
deriving DecidableEq

structure ConversationTransition where
  transitionId : String
  expectedHistoryHash : String
  change : Option TransitionChange
deriving DecidableEq

structure SessionStartPayload where
  sessionId : String
  workspaceId : String
  providerInstanceId : String
  driverKind : String
  continuationGroupKey : Option String
  cwd : String
  continueSession : Bool
  conversationTransition : Option ConversationTransition
  expectedNativeReference : Option String
  policyControlAuthority : Option (List PolicySelection)
  executionProfile : Option String
  approvalPolicy : ApprovalPolicy
  approvalReviewer : Option ApprovalReviewer
  approvalOptions : Option Json
  firstTurn : Option Json
  /-- Instructions, sandbox, tools, model selection, workspace preflight, MCP attachments. -/
  settings : Json
deriving DecidableEq

def SessionStartPayload.selects (start : SessionStartPayload) (selection : PolicySelection) :
    Bool :=
  selection.approvalPolicy == start.approvalPolicy &&
  selection.approvalReviewer == start.approvalReviewer.getD .user

/-- `hcpSessionStartPayloadSchema`. -/
def SessionStartPayload.valid (schemas : PayloadSchemas) (start : SessionStartPayload) : Bool :=
  start.sessionId != "" && start.workspaceId != "" && start.providerInstanceId != "" &&
  start.driverKind != "" && start.continuationGroupKey != some "" && start.cwd != "" &&
  optionally identity start.expectedNativeReference &&
  optionally (fun transition => identity transition.transitionId &&
    sha256Hex transition.expectedHistoryHash) start.conversationTransition &&
  optionally (fun selections => decide (1 ≤ selections.length) &&
    decide (selections.length ≤ 4) && uniqueBy id selections) start.policyControlAuthority &&
  optionally schemas.approvalOptions start.approvalOptions && schemas.startSettings start.settings &&
  !(start.expectedNativeReference.isSome &&
    (!start.continueSession || start.continuationGroupKey.isNone || start.firstTurn.isSome)) &&
  (start.policyControlAuthority.all fun selections =>
    start.executionProfile == some "interactive" && start.continuationGroupKey.isSome &&
    selections.any start.selects) &&
  !(start.conversationTransition.isSome &&
    (!start.continueSession || start.continuationGroupKey.isNone || start.firstTurn.isSome))

structure TurnSendPayload where
  sessionId : String
  turnId : String
  settings : Json
deriving DecidableEq

/-- `hcpTurnSendPayloadSchema`. -/
def TurnSendPayload.valid (schemas : PayloadSchemas) (turn : TurnSendPayload) : Bool :=
  turn.sessionId != "" && turn.turnId != "" && schemas.turnSettings turn.settings

/-! ## Native goals, feedback, injection -/

inductive GoalStatus where
  | active
  | paused
  | blocked
  | usageLimited
  | budgetLimited
  | complete
deriving DecidableEq

structure GoalObservation where
  nativeReference : String
  nativeCreatedAt : Int
  nativeUpdatedAt : Int
  objective : String
  status : GoalStatus
  tokensUsed : Int
  timeUsedSeconds : Int
  tokenBudget : Option Int
deriving DecidableEq

/-- `harnessNativeGoalObservationSchema`. -/
def GoalObservation.valid (goal : GoalObservation) : Bool :=
  identity goal.nativeReference && counter goal.nativeCreatedAt && counter goal.nativeUpdatedAt &&
  boundedText (128 * 1024) goal.objective && counter goal.tokensUsed &&
  counter goal.timeUsedSeconds &&
  optionally (fun budget => counter budget && decide (0 < budget)) goal.tokenBudget

inductive GoalAction where
  | pause
  | clear
deriving DecidableEq

/-- `harnessNativeGoalResultSchema`, one constructor for each `action`. -/
inductive GoalResult where
  | read (nativeReference : String) (goal : Option GoalObservation)
  | pause (nativeReference : String) (targetNativeCreatedAt : Int) (goal : GoalObservation)
  | clear (nativeReference : String) (targetNativeCreatedAt : Int)
deriving DecidableEq

def GoalResult.valid : GoalResult → Bool
  | .read reference goal =>
    identity reference && optionally GoalObservation.valid goal &&
    optionally (fun g => g.nativeReference == reference) goal
  | .pause reference target goal =>
    identity reference && counter target && goal.valid && goal.status == .paused &&
    goal.nativeReference == reference && goal.nativeCreatedAt == target
  | .clear reference target => identity reference && counter target

structure FeedbackResult where
  feedbackId : String
  classification : String
  diagnosticsRequested : Bool
deriving DecidableEq

def classificationText (s : String) : Bool := tokenText ['_', '-'] 63 s

/-- `harnessNativeFeedbackResultSchema`. -/
def FeedbackResult.valid (feedback : FeedbackResult) : Bool :=
  identity feedback.feedbackId && classificationText feedback.classification

inductive InjectionOutcome where
  | applied (messageCount : Int)
  | unsupported
deriving DecidableEq

def InjectionOutcome.valid : InjectionOutcome → Bool
  | .applied count => decide (1 ≤ count) && decide (count ≤ 100)
  | .unsupported => true

/-! ## Native work -/

inductive WorkStatus where
  | running
  | waiting
  | completed
  | failed
  | cancelled
  | unknown
deriving DecidableEq

def isNativeWorkTerminal : WorkStatus → Bool
  | .completed | .failed | .cancelled => true
  | .running | .waiting | .unknown => false

structure ConversationFork where
  sessionId : String
  continuationGroupKey : String
  nativeReference : String
deriving DecidableEq

/-- `harnessNativeWorkResultSchema`, one constructor for each `action`. -/
inductive WorkResult where
  | reconcile (workId : String) (revision : Int) (status : WorkStatus)
  | fork (workId : String) (revision : Int) (fork : ConversationFork)
  | history (workId : String) (revision : Int) (history : Json)
  | read (page : Json)
  | cancel (workId : String) (alreadyTerminal : Bool)
  | retire (workId : String)
deriving DecidableEq

def positiveRevision (revision : Int) : Bool :=
  decide (0 < revision) && decide (revision ≤ maxSafeInteger)

def WorkResult.valid (schemas : PayloadSchemas) : WorkResult → Bool
  | .reconcile workId revision status =>
    identity workId && positiveRevision revision && isNativeWorkTerminal status
  | .fork workId revision target =>
    identity workId && positiveRevision revision && identity target.sessionId &&
    identity target.continuationGroupKey && target.nativeReference != ""
  | .history workId revision turns =>
    identity workId && positiveRevision revision && schemas.history turns
  | .read page => schemas.nativeWorkPage page
  | .cancel workId _ => identity workId
  | .retire workId => identity workId

/-! ## Conversation results -/

inductive ConversationOperationKind where
  | read
  | rollback
  | retire
  | steer
  | fork
  | content
  | work
  | inject
  | inputFile
  | feedback
  | goal
  | policy
deriving DecidableEq

structure ConversationResult where
  commandId : String
  sessionId : String
  operation : ConversationOperationKind
  policy : Option PolicyResult := none
  goal : Option GoalResult := none
  feedback : Option FeedbackResult := none
  inputFile : Option Json := none
  injection : Option InjectionOutcome := none
  work : Option WorkResult := none
  content : Option Json := none
  nativeReference : Option String := none
  nativeFresh : Bool := false
  turnId : Option String := none
  fork : Option ConversationFork := none
  history : Option Json := none
deriving DecidableEq

def ConversationFork.valid (fork : ConversationFork) : Bool :=
  fork.sessionId != "" && fork.continuationGroupKey != "" && fork.nativeReference != ""

/-- The refinement of `hcpConversationResultPayloadSchema`: which parts an operation requires and
which it excludes. -/
def ConversationResult.partsMatch (result : ConversationResult) : Bool :=
  (result.operation == .policy) == result.policy.isSome &&
  (result.operation != .policy ||
    result.history.isNone && result.nativeReference.isNone && result.turnId.isNone &&
    result.fork.isNone && result.content.isNone && result.work.isNone &&
    result.inputFile.isNone && result.feedback.isNone && result.goal.isNone &&
    result.injection.isNone) &&
  (!(result.operation == .read || result.operation == .rollback) || result.history.isSome) &&
  (result.operation != .fork || result.fork.isSome) &&
  (result.operation != .steer || result.turnId.isSome) &&
  (result.operation != .content || result.content.isSome) &&
  (result.operation != .work || result.work.isSome) &&
  (result.operation == .inputFile) == result.inputFile.isSome &&
  (result.operation == .feedback) == result.feedback.isSome &&
  (result.operation == .goal) == result.goal.isSome &&
  (result.operation == .inject) == result.injection.isSome &&
  (!result.nativeFresh || result.operation == .fork || result.operation == .rollback)

/-- `hcpConversationResultPayloadSchema`. -/
def ConversationResult.valid (schemas : PayloadSchemas) (result : ConversationResult) : Bool :=
  result.commandId != "" && result.sessionId != "" && optionally PolicyResult.valid result.policy &&
  optionally GoalResult.valid result.goal && optionally FeedbackResult.valid result.feedback &&
  optionally schemas.inputFileResult result.inputFile &&
  optionally InjectionOutcome.valid result.injection &&
  optionally (WorkResult.valid schemas) result.work &&
  optionally schemas.contentChunk result.content && result.nativeReference != some "" &&
  result.turnId != some "" && optionally ConversationFork.valid result.fork &&
  optionally schemas.history result.history && result.partsMatch

/-! ## Snapshots -/

structure SessionSnapshot where
  commandId : String
  sessionId : String
  generatedAt : Int
  complete : Bool
  /-- `reason` of a partial snapshot: `size_limit`, otherwise `retention_gap`. -/
  sizeLimited : Bool
  fromSequence : Nat
  throughSequence : Nat
  events : List HarnessEvent
deriving DecidableEq

/-- The events are numbered one by one from `first`. -/
def contiguousFrom (sessionId : String) : Nat → List HarnessEvent → Bool
  | _, [] => true
  | first, event :: rest =>
    event.sessionId == sessionId && event.sequence == first &&
    contiguousFrom sessionId (first + 1) rest

/-- `hcpSessionSnapshotPayloadSchema`, for the snapshots without tombstones that a runner makes. -/
def SessionSnapshot.valid (schemas : PayloadSchemas) (snapshot : SessionSnapshot) : Bool :=
  snapshot.commandId != "" && snapshot.sessionId != "" && !snapshot.events.isEmpty &&
  snapshot.events.all (HarnessEvent.valid schemas) && decide (0 < snapshot.fromSequence) &&
  (!snapshot.complete || snapshot.fromSequence == 1) &&
  decide (snapshot.fromSequence ≤ snapshot.throughSequence) &&
  contiguousFrom snapshot.sessionId snapshot.fromSequence snapshot.events &&
  (snapshot.events.getLast?.map HarnessEvent.sequence) == some snapshot.throughSequence

def plainSchemas : PayloadSchemas where
  eventData _ _ := true
  history _ := true
  contentChunk _ := true
  inputFileResult _ := true
  contentReference _ := true
  approvalOptions _ := true
  nativeWorkPage _ := true
  startSettings _ := true
  turnSettings _ := true
  localActionRequest _ := true
  localActionResponse _ := true
  localActionError _ := true
  inputRequest _ := true
  inputResponse _ _ := true
  jsonBytes _ := 0

end HarnessControl.Protocol
