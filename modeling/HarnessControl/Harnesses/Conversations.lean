import HarnessControl.Harnesses.Manager

/-!
# Operations on a retained conversation

`conversationOperation` for the mutations of a conversation that no live session owns: fork, inject
and retire.  A mutation saves its pending receipt before the adapter dispatches it, and its completed
receipt after the adapter has confirmed it.
-/

namespace HarnessControl.Harnesses

open HarnessControl.Library HarnessControl.Protocol HarnessControl.State

/-! ## Requests -/

structure ForkOperation where
  targetSessionId : String
  continuationGroupKey : String
  expectedHistoryHash : String
  lastTurnId : Option String

structure InjectedMessage where
  role : String
  content : String

structure InjectOperation where
  expectedHistoryHash : String
  messages : List InjectedMessage

inductive ConversationOperation where
  | fork (operation : ForkOperation)
  | inject (operation : InjectOperation)
  | retire

def ConversationOperation.kind : ConversationOperation → ConversationOperationKind
  | .fork _ => .fork
  | .inject _ => .inject
  | .retire => .retire

def ForkOperation.toJson (operation : ForkOperation) : Json :=
  .obj (JsonFields.ofList ([("continuation_group_key", .str operation.continuationGroupKey),
    ("expected_history_hash", .str operation.expectedHistoryHash), ("kind", .str "fork")] ++
    textField "last_turn_id" operation.lastTurnId ++
    [("target_session_id", .str operation.targetSessionId)]))

def InjectOperation.toJson (sessionId : String) (operation : InjectOperation) : Json :=
  .obj (JsonFields.ofList [("session_id", .str sessionId), ("kind", .str "inject"),
    ("expected_history_hash", .str operation.expectedHistoryHash),
    ("messages", .arr (JsonList.ofList (operation.messages.map fun message =>
      .obj (JsonFields.ofList [("role", .str message.role), ("content", .str message.content)]))))])

structure ConversationRequest where
  commandId : String
  sessionId : String
  operation : ConversationOperation

/-! ## Admission -/

/-- A mutation that the adapter may dispatch: the source with its key, as it was read. -/
structure ConversationPlan where
  key : String
  conversation : NativeConversation
deriving DecidableEq

/-- The conversation is bound to the session and its provider, and no control of it is uncertain. -/
def Manager.boundConversation (manager : Manager) (store : RunnerStore) (sessionId : String) :
    Except HarnessError (ConversationPlan × ProviderInstance) :=
  match store.nativeConversationForSession sessionId with
  | none => .error ⟨"native_conversation_unavailable",
    "No durable native conversation binding exists for this session."⟩
  | some (key, conversation) =>
    if conversation.policyControls.any fun receipt => receipt.phase == .pending then
      .error ⟨"native_policy_control_unknown",
        "Native conversation mutations cannot bypass an uncertain policy control."⟩
    else if conversation.goalControls.any fun receipt => receipt.phase == .pending then
      .error ⟨"native_goal_control_unknown",
        "Conversation mutations cannot bypass an uncertain native goal control."⟩
    else
      (manager.ownedProvider conversation.workspaceId conversation.cwd
        conversation.providerInstanceId conversation.providerBindingHash
        ⟨"native_continuation_binding", "The native provider identity changed; " ++
          "retained history belongs to the original provider."⟩).map fun provider =>
            (⟨key, conversation⟩, provider)

/-- What the receipt of an injection decides about its command. -/
def retainedInjection (commandId hash : String) (conversation : NativeConversation) :
    Option (Except HarnessError ConversationResult) :=
  match conversation.injections.find? fun receipt => receipt.commandId == commandId with
  | none => none
  | some receipt =>
    if receipt.requestHash ≠ hash then
      some (.error ⟨"command_conflict", "The original injection has different parameters."⟩)
    else if receipt.phase = .completed then receipt.result.map .ok
    else none

def Manager.mutationProblem (manager : Manager) (store : RunnerStore) (plan : ConversationPlan) :
    Option HarnessError :=
  let conversation := plan.conversation
  firstError [
    errorIf (manager.liveOwner plan.key).isSome "native_conversation_unavailable"
      ("Live history requires explicit read support; " ++
        "conversation changes require an idle retained owner."),
    errorIf (conversation.injections.any fun receipt => receipt.phase == .pending)
      "native_injection_unknown" ("An earlier context injection may have dispatched; " ++
        "automatic repetition or another mutation is forbidden."),
    errorIf (conversation.configurationTransitions.any fun receipt => receipt.phase == .pending)
      "native_configuration_unknown" ("A configuration transition requires reconciliation " ++
        "before another mutation or retirement."),
    errorIf (conversation.fork.any fun receipt => receipt.phase == .pending) "native_fork_unknown"
      ("A prior native fork may have dispatched; automatic repetition, mutation and " ++
        "retirement require reconciliation."),
    errorIf (conversation.rollback.any fun receipt => receipt.phase == .pending)
      "native_rollback_unknown"
      "A prior rollback needs reconciliation before another mutation or retirement.",
    errorIf (workUnconfirmed (store.data.nativeWork.get? conversation.lastSessionId))
      "native_work_shutdown_unknown" ("Native work closure is unconfirmed; retained " ++
        "conversation mutations require authoritative reconciliation.")]

def Manager.operationProblem (manager : Manager) (provider : ProviderInstance)
    (kind : ConversationOperationKind) (text : String) : Option HarnessError :=
  match manager.requireAdapter provider.driverKind with
  | .error error => some error
  | .ok adapter => errorIf (!(adapter.conversationOperations.contains kind))
    "conversation_operation_unsupported"
    ("Provider '" ++ provider.driverKind ++ "' does not support '" ++ text ++ "'.")

/-- Neither the session nor the key of the destination is in use. -/
def forkDestinationExists (store : RunnerStore) (sessionId targetSessionId key : String) : Bool :=
  targetSessionId == sessionId || store.hasSessionEvents targetSessionId ||
  (store.nativeConversationForSession targetSessionId).isSome ||
  (store.data.nativeConversations.get? key).isSome

def Manager.admitFork (manager : Manager) (store : RunnerStore) (request : ConversationRequest)
    (operation : ForkOperation) (plan : ConversationPlan) : Admission ConversationPlan :=
  let prior := plan.conversation.fork.filter fun receipt =>
    receipt.commandId == request.commandId && receipt.phase == .completed && receipt.result.isSome
  match prior.bind fun receipt => receipt.result.map fun result => (receipt, result) with
  | some (receipt, result) =>
    if receipt.requestHash ≠ some (manager.hash operation.toJson) then
      .refused ⟨"command_conflict", "The original fork has different parameters."⟩
    else .answered result
  | none =>
    if plan.conversation.fork.any fun receipt => receipt.phase == .pending then
      .refused ⟨"native_fork_unknown",
        "A prior native fork may have dispatched; automatic repetition is forbidden."⟩
    else if forkDestinationExists store request.sessionId operation.targetSessionId
        operation.continuationGroupKey then
      .refused ⟨"fork_destination_exists",
        "Fork requires a fresh session identity and conversation key."⟩
    else .admitted plan

/-- The checks of `conversationOperation` in their order. -/
def Manager.admitConversation (manager : Manager) (store : RunnerStore)
    (request : ConversationRequest) : Admission ConversationPlan :=
  match manager.boundConversation store request.sessionId with
  | .error error => .refused error
  | .ok (plan, provider) =>
    let retained := match request.operation with
      | .inject operation => retainedInjection request.commandId
        (manager.hash (operation.toJson request.sessionId)) plan.conversation
      | _ => none
    match retained with
    | some (.error error) => .refused error
    | some (.ok result) => .answered result
    | none =>
      match manager.mutationProblem store plan with
      | some error => .refused error
      | none =>
        match request.operation with
        | .retire => .admitted plan
        | .inject _ =>
          match firstError [manager.operationProblem provider .inject "inject",
              errorIf (decide (1024 ≤ plan.conversation.injections.length))
                "native_injection_receipt_limit"
                ("Context injection receipts reached their bounded retention limit; " ++
                  "begin an independent conversation.")] with
          | some error => .refused error
          | none => .admitted plan
        | .fork operation =>
          match manager.operationProblem provider .fork "fork" with
          | some error => .refused error
          | none => manager.admitFork store request operation plan

/-! ### What an admission has checked -/

variable {store : RunnerStore}

theorem nativeConversationForSession_stored {sessionId key : String}
    {conversation : NativeConversation}
    (h : store.nativeConversationForSession sessionId = some (key, conversation)) :
    store.data.nativeConversations.get? key = some conversation :=
  Dict.get?_eq_some_iff.mpr (List.mem_of_find?_eq_some h)

variable {manager : Manager}

theorem Manager.boundConversation_ok {sessionId : String}
    {plan : ConversationPlan} {provider : ProviderInstance}
    (h : manager.boundConversation store sessionId = .ok (plan, provider)) :
    store.nativeConversationForSession sessionId = some (plan.key, plan.conversation) := by
  unfold Manager.boundConversation at h
  split at h
  · cases h
  · rename_i key conversation hbound
    split at h
    · cases h
    · split at h
      · cases h
      · cases howned : manager.ownedProvider conversation.workspaceId conversation.cwd
            conversation.providerInstanceId conversation.providerBindingHash
            ⟨"native_continuation_binding", "The native provider identity changed; " ++
              "retained history belongs to the original provider."⟩ with
        | error error =>
          rw [howned] at h
          cases h
        | ok owner =>
          rw [howned] at h
          cases h
          exact hbound

structure AdmittedConversation (manager : Manager) (store : RunnerStore)
    (request : ConversationRequest) (plan : ConversationPlan) : Prop where
  bound : store.nativeConversationForSession request.sessionId = some (plan.key, plan.conversation)
  mutable : manager.mutationProblem store plan = none
  uninjected : ∀ operation, request.operation = .inject operation →
    retainedInjection request.commandId (manager.hash (operation.toJson request.sessionId))
      plan.conversation = none
  unforked : ∀ operation, request.operation = .fork operation →
    manager.admitFork store request operation plan = .admitted plan

variable {request : ConversationRequest}

theorem Manager.admitFork_plan {operation : ForkOperation} {plan next : ConversationPlan}
    (h : manager.admitFork store request operation plan = .admitted next) : next = plan := by
  unfold Manager.admitFork at h
  dsimp only at h
  split at h
  · split at h <;> cases h
  · split at h
    · cases h
    · split at h <;> cases h
      rfl

theorem Manager.admitConversation_admitted {plan : ConversationPlan}
    (h : manager.admitConversation store request = .admitted plan) :
    AdmittedConversation manager store request plan := by
  unfold Manager.admitConversation at h
  cases hbound : manager.boundConversation store request.sessionId with
  | error error =>
    rw [hbound] at h
    cases h
  | ok bound =>
    rcases bound with ⟨found, provider⟩
    have hconversation := Manager.boundConversation_ok hbound
    rw [hbound] at h
    dsimp only at h
    split at h
    · cases h
    · cases h
    · rename_i hretained
      split at h
      · cases h
      · rename_i hmutable
        have hkind : ∀ {kind}, request.operation = kind → ∀ {other}, request.operation = other →
            kind = other := fun hkind _ hother => hkind.symm.trans hother
        cases hoperation : request.operation with
        | retire =>
          rw [hoperation] at h
          cases h
          exact ⟨hconversation, hmutable, fun _ heq => (nomatch hkind hoperation heq),
            fun _ heq => (nomatch hkind hoperation heq)⟩
        | inject operation =>
          rw [hoperation] at h hretained
          dsimp only at h
          split at h <;> cases h
          refine ⟨hconversation, hmutable, fun other heq => ?_,
            fun _ heq => (nomatch hkind hoperation heq)⟩
          cases hkind hoperation heq
          exact hretained
        | fork operation =>
          rw [hoperation] at h
          dsimp only at h
          split at h
          · cases h
          · have hplan := Manager.admitFork_plan h
            subst hplan
            refine ⟨hconversation, hmutable, fun _ heq => (nomatch hkind hoperation heq),
              fun other heq => ?_⟩
            cases hkind hoperation heq
            exact h

/-! ## Fences -/

def Manager.forkReceipt (manager : Manager) (commandId : String) (operation : ForkOperation)
    (phase : Phase) (result : Option ConversationResult) : ForkReceipt where
  commandId
  targetKey := operation.continuationGroupKey
  targetSessionId := operation.targetSessionId
  phase
  requestHash := some (manager.hash operation.toJson)
  result

/-- `beginMutation` of a fork: its pending receipt is saved. -/
def Manager.fenceFork (manager : Manager) (moment : Moment) (commandId : String)
    (operation : ForkOperation) (plan : ConversationPlan) (store : RunnerStore) :
    Attempt RunnerStore :=
  store.saveNativeConversation manager.runtime moment plan.key { plan.conversation with
    fork := some (manager.forkReceipt commandId operation .pending none) }

/-- `beginMutation` of an injection. -/
def Manager.fenceInjection (manager : Manager) (moment : Moment) (commandId hash : String)
    (plan : ConversationPlan) (store : RunnerStore) : Attempt RunnerStore :=
  store.saveNativeConversation manager.runtime moment plan.key { plan.conversation with
    injections := plan.conversation.injections ++ [⟨commandId, hash, .pending, none⟩] }

/-! ## Confirmations -/

/-- What an adapter's result has to be, whatever the operation. -/
def Manager.resultProblem (manager : Manager) (request : ConversationRequest)
    (result : ConversationResult) : Option OperationFailure :=
  if !(result.valid manager.runtime.schemas) then some (.store .invalid)
  else (errorIf (result.commandId != request.commandId || result.sessionId != request.sessionId ||
      result.operation != request.operation.kind) "native_history_binding"
    "Conversation result targets another command, session, or operation.").map .thrown

theorem Manager.resultProblem_none
    {result : ConversationResult} (h : manager.resultProblem request result = none) :
    result.valid manager.runtime.schemas = true ∧ result.commandId = request.commandId ∧
      result.sessionId = request.sessionId ∧ result.operation = request.operation.kind := by
  unfold Manager.resultProblem at h
  split at h
  · cases h
  · rename_i hvalid
    rw [Option.map_eq_none_iff, errorIf_eq_none] at h
    simp only [Bool.or_eq_false_iff, bne_eq_false_iff_eq, and_assoc] at h
    exact ⟨by simpa using hvalid, h⟩

/-- One of the turns has no fidelity, or neither its items nor a reference to them. -/
def turnsUnportable : JsonList → Bool
  | .nil => false
  | .cons turn rest =>
    (turn.field? "portable_fidelity").isNone ||
      (turn.field? "portable_items").isNone && (turn.field? "portable_items_ref").isNone ||
      turnsUnportable rest

def historyUnportable (result : ConversationResult) : Bool :=
  match result.history.bind fun history => history.field? "turns" with
  | some (.arr turns) => turnsUnportable turns
  | _ => false

/-- The conversation's adapter declares portable histories, and the result has another. -/
def Manager.portableMissing (manager : Manager) (conversation : NativeConversation)
    (result : ConversationResult) : Bool :=
  (match manager.requireProvider conversation.providerInstanceId with
    | .ok provider => (manager.adapter? provider.driverKind).any Adapter.portableHistory
    | .error _ => false) && historyUnportable result

def portableHistoryMissing : OperationFailure :=
  .thrown ⟨"portable_history_missing",
    "This adapter did not supply its declared portable history contract."⟩

/-- The record of the destination: the source without its receipts, but with its policy controls. -/
def forkedConversation (conversation : NativeConversation) (now : Int)
    (target : ConversationFork) (nativeFresh : Bool) : NativeConversation :=
  { conversation with
    rollback := none
    fork := none
    injections := []
    configurationTransitions := []
    feedbackSubmissions := []
    goalControls := []
    fresh := conversation.fresh || nativeFresh
    nativeThreadId := target.nativeReference
    lastSessionId := target.sessionId
    updatedAt := now }

/-- Two saves after each other; the second is not made where the first fails. -/
def thenSave (first : Attempt RunnerStore) (second : RunnerStore → Attempt RunnerStore) :
    RunnerStore × Option OperationFailure :=
  match first.failure with
  | some failure => (first.state, some (.store failure))
  | none => ((second first.state).state, (second first.state).failure.map .store)

/-- What follows the adapter's confirmation of a fork: the destination is saved, then the receipt. -/
def Manager.recordFork (manager : Manager) (target source : Moment) (request : ConversationRequest)
    (operation : ForkOperation) (plan : ConversationPlan) (result : ConversationResult)
    (store : RunnerStore) : RunnerStore × Option OperationFailure :=
  match manager.resultProblem request result with
  | some failure => (store, some failure)
  | none =>
    if manager.portableMissing plan.conversation result then (store, some portableHistoryMissing)
    else
      match result.fork.filter fun fork => fork.sessionId == operation.targetSessionId &&
          fork.continuationGroupKey == operation.continuationGroupKey &&
          fork.nativeReference != plan.conversation.nativeThreadId with
      | none => (store, some (.thrown ⟨"native_history_binding",
        "Native fork did not confirm an independent destination."⟩))
      | some fork =>
        thenSave
          (store.saveNativeConversation manager.runtime target fork.continuationGroupKey
            (forkedConversation plan.conversation target.now fork result.nativeFresh))
          fun saved => saved.saveNativeConversation manager.runtime source plan.key
            { plan.conversation with
              fork := some (manager.forkReceipt request.commandId operation .completed result) }

/-- What follows the adapter's confirmation of an injection. -/
def Manager.recordInjection (manager : Manager) (moment : Moment) (request : ConversationRequest)
    (operation : InjectOperation) (plan : ConversationPlan) (result : ConversationResult)
    (store : RunnerStore) : RunnerStore × Option OperationFailure :=
  match manager.resultProblem request result with
  | some failure => (store, some failure)
  | none =>
    let confirmed := result.injection.any fun outcome => match outcome with
      | .applied messageCount => messageCount == operation.messages.length
      | .unsupported => true
    if !confirmed then
      (store, some (.thrown ⟨"native_injection_unknown",
        "Context injection did not confirm its fenced request."⟩))
    else
      let attempt := store.saveNativeConversation manager.runtime moment plan.key
        { plan.conversation with
          injections := plan.conversation.injections ++ [⟨request.commandId,
            manager.hash (operation.toJson request.sessionId), .completed, some result⟩] }
      -- the portable history is asked for when the receipt is saved
      (attempt.state, (attempt.failure.map OperationFailure.store).or
        (if manager.portableMissing plan.conversation result then some portableHistoryMissing
          else none))

end HarnessControl.Harnesses
