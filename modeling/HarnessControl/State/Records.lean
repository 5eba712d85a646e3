import HarnessControl.Protocol.Payloads

/-!
# The records of the runner state

What the state file holds for a native conversation, for the native work of a session and for a
settled command, each with its schema.  An optional array is a list, absent and empty being the
same to every reader; an optional `true` is a `Bool`.
-/

namespace HarnessControl.State

open HarnessControl.Library HarnessControl.Protocol

/-! ## Checks -/

/-- `if (failed) throw new Error(message);` -/
def refuseIf (failed : Bool) (message : String) : Option String :=
  if failed then some message else none

@[simp] theorem refuseIf_eq_none {failed : Bool} {message : String} :
    refuseIf failed message = none ↔ failed = false := by
  cases failed <;> simp [refuseIf]

/-- Checks made one after the other: the first that fails is the one that throws. -/
def firstProblem (problems : List (Option String)) : Option String := problems.findSome? id

theorem firstProblem_eq_none {problems : List (Option String)} :
    firstProblem problems = none ↔ ∀ problem ∈ problems, problem = none := by
  unfold firstProblem
  rw [List.findSome?_eq_none_iff]
  rfl

/-- Pending from the dispatch fence on, completed once the outcome is confirmed. -/
inductive Phase where
  | pending
  | completed
deriving DecidableEq

/-! ## Receipts of a native conversation -/

structure PolicyControlReceipt where
  commandId : String
  sourceSessionId : String
  nativeReference : String
  requestHash : String
  sourceBindingHash : String
  targetBindingHash : String
  sourceRevision : Int
  executionInventoryHash : Option String
  selection : PolicySelection
  phase : Phase
  result : Option ConversationResult
deriving DecidableEq

def PolicyControlReceipt.confirmedBy (receipt : PolicyControlReceipt)
    (result : ConversationResult) : Bool :=
  receipt.executionInventoryHash.isSome && result.commandId == receipt.commandId &&
  result.sessionId == receipt.sourceSessionId && result.operation == .policy &&
  result.policy.any fun policy =>
    policy.nativeReference == receipt.nativeReference &&
    policy.revision == receipt.sourceRevision + 1 && policy.selection == receipt.selection

/-- `nativePolicyControlReceiptSchema`. -/
def PolicyControlReceipt.valid (schemas : PayloadSchemas) (receipt : PolicyControlReceipt) :
    Bool :=
  identity receipt.commandId && identity receipt.sourceSessionId &&
  identity receipt.nativeReference && sha256Hex receipt.requestHash &&
  sha256Hex receipt.sourceBindingHash && sha256Hex receipt.targetBindingHash &&
  decide (0 ≤ receipt.sourceRevision) && decide (receipt.sourceRevision ≤ 1023) &&
  optionally sha256Hex receipt.executionInventoryHash &&
  optionally (ConversationResult.valid schemas) receipt.result &&
  receipt.sourceBindingHash != receipt.targetBindingHash &&
  match receipt.phase with
  | .pending => receipt.result.isNone
  | .completed => receipt.result.any receipt.confirmedBy

/-- Revisions form a confirmed chain; `before` lists the earlier receipts, the latest first. -/
def policyChain (before : List PolicyControlReceipt) : List PolicyControlReceipt → Bool
  | [] => true
  | receipt :: rest =>
    (before.all fun other => other.commandId != receipt.commandId) &&
    (match before.find? fun other => other.sourceSessionId == receipt.sourceSessionId with
      | none => receipt.sourceRevision == 0
      | some previous =>
        receipt.sourceRevision == previous.sourceRevision + 1 &&
        previous.nativeReference == receipt.nativeReference &&
        previous.targetBindingHash == receipt.sourceBindingHash) &&
    (before.head?.all fun last => last.phase == .completed) &&
    policyChain (receipt :: before) rest

structure GoalControlReceipt where
  commandId : String
  requestHash : String
  sourceSessionId : String
  nativeThreadId : String
  action : GoalAction
  nativeCreatedAt : Int
  phase : Phase
  result : Option GoalResult
deriving DecidableEq

def GoalControlReceipt.confirmedBy (receipt : GoalControlReceipt) : GoalResult → Bool
  | .read _ _ => false
  | .pause reference target _ =>
    receipt.action == .pause && reference == receipt.nativeThreadId &&
    target == receipt.nativeCreatedAt
  | .clear reference target =>
    receipt.action == .clear && reference == receipt.nativeThreadId &&
    target == receipt.nativeCreatedAt

def GoalControlReceipt.valid (receipt : GoalControlReceipt) : Bool :=
  identity receipt.commandId && sha256Hex receipt.requestHash &&
  identity receipt.sourceSessionId && identity receipt.nativeThreadId &&
  counter receipt.nativeCreatedAt && optionally GoalResult.valid receipt.result &&
  match receipt.phase with
  | .pending => receipt.result.isNone
  | .completed => receipt.result.any receipt.confirmedBy

structure FeedbackReceipt where
  commandId : String
  requestHash : String
  sourceSessionId : String
  nativeThreadId : String
  classification : String
  includeDiagnostics : Bool
  phase : Phase
  result : Option FeedbackResult
deriving DecidableEq

def FeedbackReceipt.valid (receipt : FeedbackReceipt) : Bool :=
  identity receipt.commandId && sha256Hex receipt.requestHash &&
  identity receipt.sourceSessionId && identity receipt.nativeThreadId &&
  classificationText receipt.classification && optionally FeedbackResult.valid receipt.result &&
  match receipt.phase with
  | .pending => receipt.result.isNone
  | .completed => receipt.result.any fun result =>
    result.classification == receipt.classification &&
    result.diagnosticsRequested == receipt.includeDiagnostics

structure ConfigurationTransition where
  transitionId : String
  change : Option TransitionChange
  sourceBindingHash : String
  targetBindingHash : String
  expectedHistoryHash : String
  targetSessionId : String
  phase : Phase
deriving DecidableEq

def ConfigurationTransition.valid (transition : ConfigurationTransition) : Bool :=
  identity transition.transitionId && sha256Hex transition.sourceBindingHash &&
  sha256Hex transition.targetBindingHash && sha256Hex transition.expectedHistoryHash &&
  identity transition.targetSessionId

structure InjectionReceipt where
  commandId : String
  requestHash : String
  phase : Phase
  result : Option ConversationResult
deriving DecidableEq

def InjectionReceipt.valid (schemas : PayloadSchemas) (receipt : InjectionReceipt) : Bool :=
  identity receipt.commandId && sha256Hex receipt.requestHash &&
  optionally (ConversationResult.valid schemas) receipt.result &&
  match receipt.phase with
  | .pending => receipt.result.isNone
  | .completed => receipt.result.any fun result =>
    result.commandId == receipt.commandId && result.operation == .inject

structure RollbackReceipt where
  commandId : String
  sourceHash : String
  targetHash : String
  phase : Phase
  replacementNativeThreadId : Option String
  nativeFresh : Bool
deriving DecidableEq

structure ForkReceipt where
  commandId : String
  targetKey : String
  targetSessionId : String
  phase : Phase
  requestHash : Option String
  result : Option ConversationResult
deriving DecidableEq

def ForkReceipt.valid (schemas : PayloadSchemas) (receipt : ForkReceipt) : Bool :=
  optionally sha256Hex receipt.requestHash &&
  optionally (ConversationResult.valid schemas) receipt.result

structure NativeConversation where
  nativeThreadId : String
  bindingHash : String
  policyControls : List PolicyControlReceipt := []
  goalControls : List GoalControlReceipt := []
  feedbackSubmissions : List FeedbackReceipt := []
  configurationBaseHash : Option String := none
  configurationAuthorityHash : Option String := none
  configurationTransitions : List ConfigurationTransition := []
  updatedAt : Int
  lastSessionId : String
  providerInstanceId : String
  providerBindingHash : String
  workspaceId : String
  cwd : String
  fresh : Bool := false
  approvalPolicy : Option ApprovalPolicy := none
  approvalReviewer : Option ApprovalReviewer := none
  approvalOptions : Option Json := none
  injections : List InjectionReceipt := []
  rollback : Option RollbackReceipt := none
  fork : Option ForkReceipt := none
deriving DecidableEq

/-- `z.array(..).max(1024)` with unique identities. -/
def receiptList {α : Type} (key : α → String) (valid : α → Bool) (receipts : List α) : Bool :=
  decide (receipts.length ≤ 1024) && receipts.all valid && uniqueBy key receipts

/-- `nativeConversationSchema`. -/
def NativeConversation.valid (schemas : PayloadSchemas) (conversation : NativeConversation) :
    Bool :=
  conversation.nativeThreadId != "" && sha256Hex conversation.bindingHash &&
  (decide (conversation.policyControls.length ≤ 1024) &&
    conversation.policyControls.all (PolicyControlReceipt.valid schemas) &&
    policyChain [] conversation.policyControls) &&
  receiptList GoalControlReceipt.commandId GoalControlReceipt.valid conversation.goalControls &&
  receiptList FeedbackReceipt.commandId FeedbackReceipt.valid conversation.feedbackSubmissions &&
  optionally sha256Hex conversation.configurationBaseHash &&
  optionally sha256Hex conversation.configurationAuthorityHash &&
  receiptList ConfigurationTransition.transitionId ConfigurationTransition.valid
    conversation.configurationTransitions &&
  optionally schemas.approvalOptions conversation.approvalOptions &&
  receiptList InjectionReceipt.commandId (InjectionReceipt.valid schemas) conversation.injections &&
  optionally (ForkReceipt.valid schemas) conversation.fork

def nativeConversationSchema (schemas : PayloadSchemas) : Schema NativeConversation :=
  Schema.refine (NativeConversation.valid schemas)

/-! ## Native work of a session -/

inductive WorkKind where
  | agent
  | task
  | command
deriving DecidableEq

structure WorkProgress where
  totalTokens : Int
  toolUses : Int
  durationMs : Int
  lastToolName : Option String
deriving DecidableEq

def WorkProgress.valid (progress : WorkProgress) : Bool :=
  counter progress.totalTokens && counter progress.toolUses && counter progress.durationMs &&
  optionally identity progress.lastToolName

inductive CancelPhase where
  | pending
  | accepted
deriving DecidableEq

structure CancelControl where
  commandId : String
  requestHash : String
  phase : CancelPhase
deriving DecidableEq

def CancelControl.valid (control : CancelControl) : Bool :=
  identity control.commandId && sha256Hex control.requestHash

structure NativeWorkRecord where
  workId : String
  nativeReference : String
  originTurnId : String
  parentWorkId : Option String
  kind : WorkKind
  background : Bool
  status : WorkStatus
  supportsCancel : Bool
  summary : Option String
  model : Option String
  progress : Option WorkProgress
  contentRef : Option Json
  revision : Int
  control : Option CancelControl
deriving DecidableEq

/-- `harnessNativeWorkRecordSchema`. -/
def NativeWorkRecord.valid (schemas : PayloadSchemas) (work : NativeWorkRecord) : Bool :=
  identity work.workId && identity work.nativeReference && identity work.originTurnId &&
  optionally identity work.parentWorkId &&
  optionally (fun text => decide (utf16Length text ≤ 2048)) work.summary &&
  optionally identity work.model && optionally WorkProgress.valid work.progress &&
  optionally schemas.contentReference work.contentRef && positiveRevision work.revision &&
  optionally CancelControl.valid work.control

structure WorkScope where
  providerInstanceId : String
  providerBindingHash : String
  workspaceId : String
  cwd : String
  executionBindingHash : String
  executionProfile : Option String
  conversationKey : Option String
deriving DecidableEq

inductive AdmissionKind where
  | root
  | work
deriving DecidableEq

structure ExecutionBinding where
  kind : AdmissionKind
  admissionId : String
  bindingHash : String
deriving DecidableEq

def ExecutionBinding.valid (binding : ExecutionBinding) : Bool :=
  identity binding.admissionId && identity binding.bindingHash

structure NativeWorkCustody where
  source : String
  workId : String
  nativeReference : String
  originTurnId : String
  parentWorkId : Option String
  rootNativeReference : String
  parentNativeReference : String
  launchNativeReference : String
  nativeExecutionReference : Option String
deriving DecidableEq

/-- `nativeWorkCustodySchema`. -/
def NativeWorkCustody.valid (custody : NativeWorkCustody) : Bool :=
  tokenText ['_', '.', '-'] 63 custody.source && identity custody.workId &&
  identity custody.nativeReference && identity custody.originTurnId &&
  optionally identity custody.parentWorkId && identity custody.rootNativeReference &&
  identity custody.parentNativeReference && identity custody.launchNativeReference &&
  optionally identity custody.nativeExecutionReference

structure GoalRecord where
  admissionId : String
  originTurnId : String
  observation : GoalObservation
deriving DecidableEq

inductive GoalPhase where
  | pending
  | confirmed
deriving DecidableEq

structure GoalAdmission where
  admissionId : String
  originTurnId : String
  nativeReference : String
  objective : String
  tokenBudget : Option Int
  expectedNativeCreatedAt : Option Int
  phase : GoalPhase
  snapshot : Option GoalRecord
deriving DecidableEq

def GoalAdmission.shownBy (goal : GoalAdmission) (snapshot : GoalRecord) : Bool :=
  snapshot.admissionId == goal.admissionId && snapshot.originTurnId == goal.originTurnId &&
  snapshot.observation.nativeReference == goal.nativeReference &&
  snapshot.observation.objective == goal.objective &&
  snapshot.observation.tokenBudget == goal.tokenBudget &&
  (goal.expectedNativeCreatedAt.all fun created => snapshot.observation.nativeCreatedAt == created)

def GoalAdmission.valid (goal : GoalAdmission) : Bool :=
  identity goal.admissionId && identity goal.originTurnId && identity goal.nativeReference &&
  boundedText (128 * 1024) goal.objective &&
  optionally (fun budget => counter budget && decide (0 < budget)) goal.tokenBudget &&
  optionally counter goal.expectedNativeCreatedAt &&
  optionally (fun snapshot => snapshot.observation.valid) goal.snapshot &&
  match goal.phase with
  | .pending => goal.snapshot.isNone
  | .confirmed => goal.snapshot.any goal.shownBy

inductive TerminalStatus where
  | completed
  | interrupted
  | failed
deriving DecidableEq

structure RootExecution where
  admissionId : String
  originTurnId : String
  nativeReference : String
  goalAdmissionId : Option String
  nativeExecutionReference : Option String
  requiresTerminalProof : Bool
  phaseStatus : Option TerminalStatus
deriving DecidableEq

def RootExecution.valid (execution : RootExecution) : Bool :=
  identity execution.admissionId && identity execution.originTurnId &&
  identity execution.nativeReference && optionally identity execution.goalAdmissionId &&
  optionally identity execution.nativeExecutionReference &&
  (execution.phaseStatus.isNone || execution.nativeExecutionReference.isSome)

structure Reconciliation where
  commandId : String
  requestHash : String
  result : ConversationResult
deriving DecidableEq

def Reconciliation.valid (schemas : PayloadSchemas) (receipt : Reconciliation) : Bool :=
  identity receipt.commandId && sha256Hex receipt.requestHash && receipt.result.valid schemas &&
  receipt.result.commandId == receipt.commandId && receipt.result.operation == .work &&
  receipt.result.work.any fun work => match work with
    | .reconcile _ _ _ => true
    | _ => false

structure ChildForkReceipt where
  commandId : String
  requestHash : String
  workId : String
  phase : Phase
  result : Option ConversationResult
deriving DecidableEq

def ChildForkReceipt.confirmedBy (receipt : ChildForkReceipt) (result : ConversationResult) :
    Bool :=
  result.commandId == receipt.commandId && result.operation == .work &&
  result.work.any fun work => match work with
    | .fork workId _ _ => workId == receipt.workId
    | _ => false

def ChildForkReceipt.valid (schemas : PayloadSchemas) (receipt : ChildForkReceipt) : Bool :=
  identity receipt.commandId && sha256Hex receipt.requestHash && identity receipt.workId &&
  optionally (ConversationResult.valid schemas) receipt.result &&
  match receipt.phase with
  | .pending => receipt.result.isNone
  | .completed => receipt.result.any receipt.confirmedBy

structure NativeWorkState where
  scope : WorkScope
  items : Dict String NativeWorkRecord := Dict.empty
  retired : Dict String NativeWorkRecord := Dict.empty
  executionBindings : List ExecutionBinding := []
  custody : Dict String NativeWorkCustody := Dict.empty
  goals : List GoalAdmission := []
  rootExecutions : List RootExecution := []
  reconciliations : List Reconciliation := []
  forks : List ChildForkReceipt := []
  closureUnconfirmed : Bool := false
deriving DecidableEq

/-- `nativeWorkDictionarySchema`: every key names its own work, none is dropped. -/
def workDictionary (schemas : PayloadSchemas) (items : Dict String NativeWorkRecord) : Bool :=
  items.entries.all fun entry => entry.2.valid schemas && entry.2.workId == entry.1

/-- A record schema has no entry at `__proto__`. -/
def recordKept {α : Type} (d : Dict String α) : Dict String α := d.filter fun key _ => key != protoKey

theorem recordKept_recordKept {α : Type} (d : Dict String α) :
    recordKept (recordKept d) = recordKept d := Dict.filter_filter_self d _

/-- The custody of a state is a record, its items and tombstones are not. -/
def NativeWorkState.kept (state : NativeWorkState) : NativeWorkState :=
  { state with custody := recordKept state.custody }

def NativeWorkState.valid (schemas : PayloadSchemas) (state : NativeWorkState) : Bool :=
  optionally identity state.scope.conversationKey && workDictionary schemas state.items &&
  workDictionary schemas state.retired &&
  (decide (state.executionBindings.length ≤ 2176) &&
    state.executionBindings.all ExecutionBinding.valid &&
    uniqueBy (fun binding => (binding.kind, binding.admissionId)) state.executionBindings) &&
  (decide (state.goals.length ≤ 128) && state.goals.all GoalAdmission.valid &&
    uniqueBy GoalAdmission.admissionId state.goals) &&
  (state.custody.entries.all fun entry => entry.2.valid) &&
  receiptList RootExecution.admissionId RootExecution.valid state.rootExecutions &&
  receiptList Reconciliation.commandId (Reconciliation.valid schemas) state.reconciliations &&
  receiptList ChildForkReceipt.commandId (ChildForkReceipt.valid schemas) state.forks

/-- `nativeWorkStateSchema`. -/
def nativeWorkStateSchema (schemas : PayloadSchemas) : Schema NativeWorkState :=
  Schema.normalized NativeWorkState.kept
    (fun state => congrArg (fun custody => { state with custody })
      (recordKept_recordKept state.custody))
    (NativeWorkState.valid schemas)

/-! ## Receipts of settled commands and local actions -/

inductive CommandReceipt where
  | ack (payloadHash : String) (settledAt : Int) (snapshotPayload : Option SessionSnapshot)
    (conversationPayload : Option ConversationResult)
  | nack (payloadHash : String) (settledAt : Int) (nackPayload : CommandNack)
deriving DecidableEq

def CommandReceipt.payloadHash : CommandReceipt → String
  | .ack payloadHash _ _ _ => payloadHash
  | .nack payloadHash _ _ => payloadHash

def CommandReceipt.settledAt : CommandReceipt → Int
  | .ack _ settledAt _ _ => settledAt
  | .nack _ settledAt _ => settledAt

def CommandReceipt.kept : CommandReceipt → CommandReceipt
  | .ack payloadHash settledAt snapshot conversation =>
    .ack payloadHash settledAt snapshot conversation
  | .nack payloadHash settledAt nackPayload =>
    .nack payloadHash settledAt { nackPayload with error := nackPayload.error.kept }

theorem CommandReceipt.kept_kept (receipt : CommandReceipt) : receipt.kept.kept = receipt.kept := by
  cases receipt with
  | ack payloadHash settledAt snapshot conversation => rfl
  | nack payloadHash settledAt nackPayload =>
    simp only [CommandReceipt.kept, HcpError.kept_kept]

def CommandReceipt.valid (schemas : PayloadSchemas) : CommandReceipt → Bool
  | .ack payloadHash _ snapshot conversation =>
    payloadHash != "" && optionally (SessionSnapshot.valid schemas) snapshot &&
    optionally (ConversationResult.valid schemas) conversation
  | .nack payloadHash _ nackPayload => payloadHash != "" && nackPayload.valid

/-- `persistedCommandReceiptSchema`. -/
def commandReceiptSchema (schemas : PayloadSchemas) : Schema CommandReceipt :=
  Schema.normalized CommandReceipt.kept CommandReceipt.kept_kept (CommandReceipt.valid schemas)

inductive LocalActionOutcome where
  | response (payload : Json)
  | error (payload : Json)
deriving DecidableEq

structure LocalActionReceipt where
  payloadHash : String
  requestPayload : Json
  settledAt : Int
  outcome : LocalActionOutcome
deriving DecidableEq

def LocalActionReceipt.valid (schemas : PayloadSchemas) (receipt : LocalActionReceipt) : Bool :=
  receipt.payloadHash != "" && schemas.localActionRequest receipt.requestPayload &&
  match receipt.outcome with
  | .response payload => schemas.localActionResponse payload
  | .error payload => schemas.localActionError payload

/-- `persistedLocalActionReceiptSchema`. -/
def localActionReceiptSchema (schemas : PayloadSchemas) : Schema LocalActionReceipt :=
  Schema.refine (LocalActionReceipt.valid schemas)

/-! ## The platform -/

/-- What the runner takes from its platform. -/
structure Host where
  /-- `createHash("sha256").update(text).digest("hex")`. -/
  sha256 : String → String
  sha256_hex : ∀ text, sha256Hex (sha256 text) = true
  /-- `JSON.parse`. -/
  parseJson : String → Option Json
  /-- `JSON.stringify`, of JSON values and of a work state. -/
  stringify : Json → String
  workText : NativeWorkState → String
  /-- `Date.parse` of a timestamp with an offset. -/
  parseTime : Json → Option Int
  /-- `left.localeCompare(right) <= 0`. -/
  localeLe : String → String → Bool

end HarnessControl.State
