import HarnessControl.Harnesses.Conversations

/-!
# Operations on native work

`#nativeWorkOperation` for the two mutations of a child: a fork of a terminal child into a new
conversation, and the cancellation of a running one.  Their receipts are part of the work state of
the session, the one in a list, the other in a field of the child's record.
-/

namespace HarnessControl.Harnesses

open HarnessControl.Library HarnessControl.Protocol HarnessControl.State

/-! ## Requests -/

structure ChildForkOperation where
  workId : String
  expectedRevision : Int
  expectedHistoryHash : String
  targetSessionId : String
  continuationGroupKey : String
  lastTurnId : Option String

structure CancelOperation where
  workId : String
  expectedRevision : Int

def ChildForkOperation.toJson (operation : ChildForkOperation) : Json :=
  .obj (JsonFields.ofList ([("action", .str "fork"),
    ("continuation_group_key", .str operation.continuationGroupKey),
    ("expected_history_hash", .str operation.expectedHistoryHash),
    ("expected_revision", .num operation.expectedRevision), ("kind", .str "work")] ++
    textField "last_turn_id" operation.lastTurnId ++
    [("target_session_id", .str operation.targetSessionId), ("work_id", .str operation.workId)]))

def CancelOperation.toJson (operation : CancelOperation) : Json :=
  .obj (JsonFields.ofList [("action", .str "cancel"),
    ("expected_revision", .num operation.expectedRevision), ("kind", .str "work"),
    ("work_id", .str operation.workId)])

/-! ## Admission -/

/-- The work state of the session, whose provider has not changed. -/
def Manager.ownedWork (manager : Manager) (store : RunnerStore) (sessionId : String) :
    Except HarnessError (NativeWorkState × ProviderInstance) :=
  match store.data.nativeWork.get? sessionId with
  | none => .error ⟨"native_work_unavailable",
    "This session has no retained native-work contract."⟩
  | some state =>
    (manager.ownedProvider state.scope.workspaceId state.scope.cwd state.scope.providerInstanceId
      state.scope.providerBindingHash ⟨"native_work_binding",
        "Native work belongs to the original provider configuration."⟩).map fun provider =>
          (state, provider)

structure ChildForkPlan where
  sessionId : String
  work : NativeWorkRecord
  custody : NativeWorkCustody
  /-- The source conversation with its key. -/
  key : String
  conversation : NativeConversation
deriving DecidableEq

/-- The conversation that the work belongs to. -/
def sourceBinding (store : RunnerStore) (sessionId : String) (scope : WorkScope) :
    Option (String × NativeConversation) :=
  ((scope.conversationKey.bind fun key =>
    (store.data.nativeConversations.get? key).map fun conversation => (key, conversation))).or
    (store.nativeConversationForSession sessionId)

/-- The conversation still has the configuration that the work was admitted under. -/
def NativeConversation.sameScope (conversation : NativeConversation) (scope : WorkScope) : Bool :=
  conversation.bindingHash == scope.executionBindingHash &&
  conversation.providerBindingHash == scope.providerBindingHash &&
  conversation.workspaceId == scope.workspaceId && conversation.cwd == scope.cwd

def childForkProblem (store : RunnerStore) (sessionId : String)
    (operation : ChildForkOperation) (state : NativeWorkState) (adapter : Adapter)
    (work : NativeWorkRecord) : Option HarnessError :=
  let profile := adapter.profile? state.scope.executionProfile
  let binding := sourceBinding store sessionId state.scope
  firstError [
    errorIf (state.custody.get? work.workId).isNone "native_work_fork_unavailable"
      "This child has no declared custody-verified native fork control.",
    errorIf (!(adapter.forkNativeWork && profile.any ExecutionProfile.nativeWorkFork))
      "native_work_fork_unavailable"
      "This child has no declared custody-verified native fork control.",
    errorIf (work.revision != operation.expectedRevision) "native_work_changed"
      "Read the current child revision before forking.",
    errorIf (!(isNativeWorkTerminal work.status)) "native_work_pending"
      "Fork requires a terminal child transcript.",
    errorIf (state.forks.any fun receipt => receipt.phase == .pending) "native_fork_unknown"
      "An earlier child fork needs reconciliation before another mutation.",
    errorIf (decide (1024 ≤ state.forks.length)) "native_fork_receipt_limit"
      "Child fork receipt capacity exceeded.",
    errorIf (!(binding.any fun bound => NativeConversation.sameScope bound.2 state.scope))
      "native_work_binding"
      "Child fork requires the retained original conversation configuration.",
    errorIf (binding.any fun bound => bound.2.policyControls.any fun receipt =>
        receipt.phase == .pending) "native_policy_control_unknown"
      "Native child forks cannot bypass an uncertain policy control.",
    errorIf (forkDestinationExists store sessionId operation.targetSessionId
        operation.continuationGroupKey) "fork_destination_exists"
      "Child fork requires a fresh destination session and conversation key."]

def Manager.admitChildFork (manager : Manager) (store : RunnerStore) (commandId sessionId : String)
    (operation : ChildForkOperation) : Admission ChildForkPlan :=
  match manager.ownedWork store sessionId with
  | .error error => .refused error
  | .ok (state, provider) =>
    let prior := state.forks.find? fun receipt => receipt.commandId == commandId
    -- a retired child is found again only by the command that forked it
    match (state.items.get? operation.workId).or
        (if prior.isSome then state.retired.get? operation.workId else none) with
    | none => .refused ⟨"native_work_not_found", "Native work is not owned by this session."⟩
    | some work =>
      match prior with
      | some receipt =>
        if receipt.requestHash ≠ manager.hash operation.toJson then
          .refused ⟨"command_conflict", "The original child fork has different parameters."⟩
        else
          match receipt.phase, receipt.result with
          | .completed, some result => .answered result
          | _, _ => .refused ⟨"native_fork_unknown",
            "A child fork may have dispatched; it will not be repeated."⟩
      | none =>
        match manager.requireAdapter provider.driverKind with
        | .error error => .refused error
        | .ok adapter =>
          match childForkProblem store sessionId operation state adapter work,
              state.custody.get? work.workId,
              sourceBinding store sessionId state.scope with
          | none, some custody, some (key, conversation) =>
            .admitted ⟨sessionId, work, custody, key, conversation⟩
          | some error, _, _ => .refused error
          | none, _, _ => .refused ⟨"native_work_binding",
            "Child fork requires the retained original conversation configuration."⟩

structure AdmittedChildFork (store : RunnerStore) (commandId sessionId : String)
    (operation : ChildForkOperation) (plan : ChildForkPlan) : Prop where
  session : plan.sessionId = sessionId
  stored : ∃ state, store.data.nativeWork.get? sessionId = some state ∧
    (state.forks.find? fun receipt => receipt.commandId == commandId) = none ∧
    sourceBinding store sessionId state.scope = some (plan.key, plan.conversation) ∧
    ∃ adapter, childForkProblem store sessionId operation state adapter plan.work = none

theorem Manager.ownedWork_ok {manager : Manager} {store : RunnerStore} {sessionId : String}
    {state : NativeWorkState} {provider : ProviderInstance}
    (h : manager.ownedWork store sessionId = .ok (state, provider)) :
    store.data.nativeWork.get? sessionId = some state := by
  unfold Manager.ownedWork at h
  split at h
  · cases h
  · rename_i found hfound
    cases howned : manager.ownedProvider found.scope.workspaceId found.scope.cwd
        found.scope.providerInstanceId found.scope.providerBindingHash ⟨"native_work_binding",
          "Native work belongs to the original provider configuration."⟩ with
    | error error =>
      rw [howned] at h
      cases h
    | ok owner =>
      rw [howned] at h
      cases h
      exact hfound

theorem Manager.admitChildFork_admitted {manager : Manager} {store : RunnerStore}
    {commandId sessionId : String} {operation : ChildForkOperation} {plan : ChildForkPlan}
    (h : manager.admitChildFork store commandId sessionId operation = .admitted plan) :
    AdmittedChildFork store commandId sessionId operation plan := by
  unfold Manager.admitChildFork at h
  split at h
  · cases h
  · rename_i state provider howned
    dsimp only at h
    split at h
    · cases h
    · rename_i work hwork
      split at h
      · split at h
        · cases h
        · split at h <;> cases h
      · rename_i hprior
        split at h
        · cases h
        · rename_i adapter hadapter
          split at h
          · rename_i hproblem hcustody hbinding
            cases h
            exact ⟨rfl, state, Manager.ownedWork_ok howned, hprior, hbinding, adapter, hproblem⟩
          · cases h
          · cases h

theorem sourceBinding_stored {store : RunnerStore} {sessionId : String} {scope : WorkScope}
    {key : String} {conversation : NativeConversation}
    (h : sourceBinding store sessionId scope = some (key, conversation)) :
    store.data.nativeConversations.get? key = some conversation := by
  unfold sourceBinding at h
  rcases Option.or_eq_some_iff.mp h with hkey | ⟨-, hsession⟩
  · simp only [Option.bind_eq_some_iff, Option.map_eq_some_iff, Prod.mk.injEq] at hkey
    rcases hkey with ⟨found, -, bound, hfound, rfl, rfl⟩
    exact hfound
  · exact nativeConversationForSession_stored hsession

/-! ## Fence and confirmation of a child fork -/

/-- The stored state, if the child and its custody are as they were read. -/
def ChildForkPlan.current (plan : ChildForkPlan) (store : RunnerStore) : Option NativeWorkState :=
  (store.data.nativeWork.get? plan.sessionId).filter fun current =>
    ((current.items.get? plan.work.workId).any fun work => work.revision == plan.work.revision) &&
    current.custody.get? plan.work.workId == some plan.custody

/-- `beginMutation` of a child fork: its pending receipt is saved. -/
def Manager.fenceChildFork (manager : Manager) (moment : Moment) (commandId : String)
    (operation : ChildForkOperation) (plan : ChildForkPlan) (store : RunnerStore) :
    RunnerStore × Option OperationFailure :=
  match plan.current store with
  | none => (store, some (.thrown ⟨"native_work_changed",
    "Child custody changed before fork dispatch."⟩))
  | some current =>
    let attempt := store.saveNativeWorkState manager.runtime moment plan.sessionId { current with
      forks := current.forks ++
        [⟨commandId, manager.hash operation.toJson, plan.work.workId, .pending, none⟩] } none
    (attempt.state, attempt.failure.map .store)

def ChildForkPlan.response (plan : ChildForkPlan) (commandId nativeReference : String)
    (operation : ChildForkOperation) : ConversationResult where
  commandId
  sessionId := plan.sessionId
  operation := .work
  work := some (.fork plan.work.workId plan.work.revision
    ⟨operation.targetSessionId, operation.continuationGroupKey, nativeReference⟩)

/-- The record of the destination; unlike a conversation's fork it does not inherit `fresh`. -/
def childConversation (conversation : NativeConversation) (now : Int)
    (target : ConversationFork) : NativeConversation :=
  forkedConversation { conversation with fresh := false } now target false

/-- What follows the adapter's confirmation: the destination is saved, then the receipt. -/
def Manager.recordChildFork (manager : Manager) (target source : Moment) (commandId : String)
    (operation : ChildForkOperation) (plan : ChildForkPlan) (nativeReference : String)
    (store : RunnerStore) : RunnerStore × Option OperationFailure :=
  if nativeReference = "" ∨ nativeReference = plan.work.nativeReference ∨
      nativeReference = plan.conversation.nativeThreadId then
    (store, some (.thrown ⟨"native_fork_unknown",
      "Child fork did not confirm an independent fenced destination."⟩))
  else
    match plan.current store with
    | none => (store, some (.thrown ⟨"native_fork_unknown",
      "Child custody changed during native fork dispatch."⟩))
    | some current =>
      let response := plan.response commandId nativeReference operation
      if !(response.valid manager.runtime.schemas) then (store, some (.store .invalid))
      else
        thenSave
          (store.saveNativeConversation manager.runtime target operation.continuationGroupKey
            (childConversation plan.conversation target.now
              ⟨operation.targetSessionId, operation.continuationGroupKey, nativeReference⟩))
          fun saved => saved.saveNativeWorkState manager.runtime source plan.sessionId
            { current with
              forks := current.forks.map fun receipt =>
                if receipt.commandId = commandId then
                  { receipt with phase := .completed, result := some response }
                else receipt } none

end HarnessControl.Harnesses
