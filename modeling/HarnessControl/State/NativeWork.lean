import HarnessControl.State.NativeConversation

/-!
# Native work

`saveNativeWorkState` replaces the work state of a session, with the event that reports the change,
after it has compared the evidence of the new state with the stored one.
-/

namespace HarnessControl.State

open HarnessControl.Library HarnessControl.Protocol

def NativeWorkState.work? (state : NativeWorkState) (workId : String) : Option NativeWorkRecord :=
  (state.items.get? workId).or (state.retired.get? workId)

/-! ## What a state has to show by itself -/

/-- The admission that a binding speaks of is part of the state. -/
def ExecutionBinding.admitted (binding : ExecutionBinding) (state : NativeWorkState) : Bool :=
  match binding.kind with
  | .root => state.rootExecutions.any fun root => root.admissionId == binding.admissionId
  | .work => (state.work? binding.admissionId).isSome

def findBinding (bindings : List ExecutionBinding) (binding : ExecutionBinding) :
    Option ExecutionBinding :=
  bindings.find? fun value =>
    value.kind == binding.kind && value.admissionId == binding.admissionId

/-- The custody proof is about an admitted child agent. -/
def custodyMatches (state : NativeWorkState) (id : String) (proof : NativeWorkCustody) : Bool :=
  (state.work? id).any fun work =>
    id == proof.workId && work.nativeReference == proof.nativeReference &&
    work.originTurnId == proof.originTurnId && work.parentWorkId == proof.parentWorkId &&
    work.kind == .agent

/-- An autonomous execution continues a confirmed goal of its own turn. -/
def RootExecution.continues (execution : RootExecution) (goals : List GoalAdmission) : Bool :=
  execution.goalAdmissionId.all fun admission => goals.any fun goal =>
    goal.admissionId == admission && goal.phase == .confirmed &&
    goal.originTurnId == execution.originTurnId &&
    goal.nativeReference == execution.nativeReference

/-! ## What a state has to keep of the stored one -/

/-- The new binding is the stored one, or belongs to the current configuration. -/
def bindingAccepted (previous : Option NativeWorkState) (state : NativeWorkState)
    (binding : ExecutionBinding) : Bool :=
  binding.admitted state &&
  ((previous.any fun old => (findBinding old.executionBindings binding).isSome) ||
    binding.bindingHash == state.scope.executionBindingHash)

def bindingKept (state : NativeWorkState) (binding : ExecutionBinding) : Bool :=
  findBinding state.executionBindings binding == some binding

def custodyKept (state : NativeWorkState) (id : String) (proof : NativeWorkCustody) : Bool :=
  (state.custody.get? id).any fun next =>
    { next with nativeExecutionReference := proof.nativeExecutionReference } == proof &&
    (proof.nativeExecutionReference.isNone ||
      next.nativeExecutionReference == proof.nativeExecutionReference)

def forkKept (state : NativeWorkState) (receipt : ChildForkReceipt) : Bool :=
  (state.forks.find? fun value => value.commandId == receipt.commandId).any fun next =>
    next.workId == receipt.workId && next.requestHash == receipt.requestHash &&
    (receipt.phase == .pending || next == receipt)

def reconciliationKept (state : NativeWorkState) (receipt : Reconciliation) : Bool :=
  (state.reconciliations.find? fun value => value.commandId == receipt.commandId) == some receipt

def rootKept (state : NativeWorkState) (execution : RootExecution) : Bool :=
  (state.rootExecutions.find? fun value => value.admissionId == execution.admissionId).any
    fun next =>
      next.originTurnId == execution.originTurnId &&
      next.nativeReference == execution.nativeReference &&
      next.goalAdmissionId == execution.goalAdmissionId &&
      next.requiresTerminalProof == execution.requiresTerminalProof &&
      (execution.nativeExecutionReference.isNone ||
        next.nativeExecutionReference == execution.nativeExecutionReference) &&
      (execution.phaseStatus.isNone || next.phaseStatus == execution.phaseStatus)

/-- A later snapshot shows the same native goal and no less progress. -/
def GoalObservation.progresses (old new : GoalObservation) : Bool :=
  new.nativeCreatedAt == old.nativeCreatedAt &&
  decide (old.nativeUpdatedAt ≤ new.nativeUpdatedAt) && decide (old.tokensUsed ≤ new.tokensUsed) &&
  decide (old.timeUsedSeconds ≤ new.timeUsedSeconds)

def goalKept (state : NativeWorkState) (goal : GoalAdmission) : Bool :=
  (state.goals.find? fun value => value.admissionId == goal.admissionId).any fun next =>
    next.originTurnId == goal.originTurnId && next.nativeReference == goal.nativeReference &&
    next.objective == goal.objective && next.tokenBudget == goal.tokenBudget &&
    next.expectedNativeCreatedAt == goal.expectedNativeCreatedAt &&
    (goal.phase == .pending || next.phase == .confirmed) &&
    (goal.snapshot.all fun old => next.snapshot.any fun new =>
      GoalObservation.progresses old.observation new.observation)

/-- Why `saveNativeWorkState` refuses a parsed state; `input` is the state before parsing. -/
def saveNativeWorkStateProblem (stored : Nat) (previous : Option NativeWorkState)
    (state : NativeWorkState) : Option String :=
  let kept {α : Type} (field : NativeWorkState → List α) (p : α → Bool) : Bool :=
    (previous.elim [] field).all p
  firstProblem [
    refuseIf ((previous.any fun old => old.closureUnconfirmed) && !state.closureUnconfirmed)
      ("Unconfirmed native closure requires authoritative reconciliation; " ++
        "it cannot be cleared by metadata updates."),
    refuseIf (previous.isNone && decide (1024 ≤ stored)) "Native work session capacity exceeded.",
    refuseIf (decide (128 < state.items.size))
      "Native work capacity exceeded; retire completed work before admitting another child.",
    refuseIf (decide (1024 < state.retired.size))
      ("Native work tombstone capacity exceeded; close the execution lease before retiring " ++
        "further work."),
    refuseIf (state.items.entries.any fun entry => entry.1 != entry.2.workId)
      "Native work identity mismatch.",
    refuseIf (previous.any fun old => old.scope != state.scope)
      "Native work execution scope changed.",
    refuseIf (!(state.executionBindings.all (bindingAccepted previous state)))
      "Native execution policy history must belong to its admitted configuration.",
    refuseIf (!(kept (·.executionBindings) (bindingKept state)))
      "Native execution policy history cannot be erased or replaced.",
    refuseIf (decide (1152 < state.custody.size)) "Native work custody capacity exceeded.",
    refuseIf (!(state.custody.entries.all fun entry => custodyMatches state entry.1 entry.2))
      "Native work custody does not match its admitted child.",
    refuseIf (!(kept (·.custody.entries) fun entry => custodyKept state entry.1 entry.2))
      "Native work custody cannot be replaced or removed.",
    refuseIf (!(kept (·.forks) (forkKept state)))
      "Native child fork dispatch receipts cannot be removed or replaced.",
    refuseIf (!(kept (·.reconciliations) (reconciliationKept state)))
      "Native reconciliation receipts cannot be removed or replaced.",
    refuseIf (!(kept (·.rootExecutions) (rootKept state)))
      "Native root execution admissions cannot be removed or replaced.",
    refuseIf (!(state.rootExecutions.all fun root => root.continues state.goals))
      "Native autonomous execution requires its confirmed original goal admission.",
    refuseIf (!(kept (·.goals) (goalKept state)))
      "Native goal admissions cannot be removed, replaced or regressed."]

/-- The rollback leaves the exit marker that the event may have set. -/
def restoreWork (sessionId : String) (before data : RunnerStateData) : RunnerStateData :=
  { data with
    nativeWork := data.nativeWork.restore sessionId (before.nativeWork.get? sessionId)
    events := data.events.restore sessionId (before.events.get? sessionId) }

def RunnerStore.saveNativeWorkState (runtime : Runtime) (moment : Moment) (sessionId : String)
    (input : NativeWorkState) (event : Option HarnessEvent) (store : RunnerStore) :
    Attempt RunnerStore :=
  match (nativeWorkStateSchema runtime.schemas).parse input with
  | none => store.refuse .invalid
  | some state =>
    match saveNativeWorkStateProblem store.data.nativeWork.size
        (store.data.nativeWork.get? sessionId) state with
    | some message => store.refuse (.refused message)
    | none =>
      if event.any fun event => event.sessionId != sessionId then
        store.refuse (.refused "Native work event targets another session.")
      else
        store.attempt moment.written
          (RunnerStateData.appendOptional runtime event
            { store.data with nativeWork := store.data.nativeWork.set sessionId state })
          (restoreWork sessionId store.data)

def NativeWorkState.removable (state : NativeWorkState) : Bool :=
  !state.closureUnconfirmed && state.items.size == 0 && state.retired.size == 0 &&
  state.rootExecutions.isEmpty && state.goals.isEmpty && state.forks.isEmpty &&
  state.reconciliations.isEmpty && state.custody.size == 0

def RunnerStore.removeEmptyNativeWorkState (moment : Moment) (sessionId : String)
    (store : RunnerStore) : Attempt RunnerStore :=
  match store.data.nativeWork.get? sessionId with
  | none => ⟨store, none⟩
  | some previous =>
    if previous.removable then
      store.attempt moment.written
        ({ store.data with nativeWork := store.data.nativeWork.erase sessionId }, none)
        fun data => { data with nativeWork := data.nativeWork.set sessionId previous }
    else ⟨store, none⟩

/-! ## Work of runs on given inputs -/

def plainScope : WorkScope where
  providerInstanceId := "provider-1"
  providerBindingHash := emptyHash
  workspaceId := "workspace-1"
  cwd := "/workspace"
  executionBindingHash := emptyHash
  executionProfile := some "profile-1"
  conversationKey := some "key-1"

def plainWorkState : NativeWorkState := { scope := plainScope }

/-- A child that has ended. -/
def plainWork : NativeWorkRecord where
  workId := "work-1"
  nativeReference := "thread-3"
  originTurnId := "turn-1"
  parentWorkId := none
  kind := .agent
  background := false
  status := .completed
  supportsCancel := false
  summary := none
  model := none
  progress := none
  contentRef := none
  revision := 1
  control := none

end HarnessControl.State
