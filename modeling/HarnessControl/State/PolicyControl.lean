import HarnessControl.State.NativeWork

/-!
# Native policy controls

The receipts of policy controls are only written here: one operation appends the pending receipt,
the other completes it and installs the new binding in the conversation and in the work state.
-/

namespace HarnessControl.State

open HarnessControl.Library HarnessControl.Protocol

/-- The receipt speaks of the conversation and of the work that own the native thread. -/
def PolicyControlReceipt.owned (receipt : PolicyControlReceipt) (key : String)
    (conversation : NativeConversation) (work : NativeWorkState) : Bool :=
  conversation.lastSessionId == receipt.sourceSessionId &&
  conversation.nativeThreadId == receipt.nativeReference &&
  conversation.bindingHash == receipt.sourceBindingHash &&
  work.scope.conversationKey == some key &&
  work.scope.executionBindingHash == receipt.sourceBindingHash &&
  work.scope.providerBindingHash == conversation.providerBindingHash &&
  work.scope.workspaceId == conversation.workspaceId && work.scope.cwd == conversation.cwd

def RootExecution.unresolved (execution : RootExecution) : Bool :=
  execution.nativeExecutionReference.isNone ||
  execution.requiresTerminalProof && execution.phaseStatus.isNone

def GoalAdmission.unresolved (goal : GoalAdmission) : Bool :=
  goal.phase == .pending ||
  goal.snapshot.any fun snapshot => snapshot.observation.status == .active

def NativeWorkState.outstanding (work : NativeWorkState) : Bool :=
  work.closureUnconfirmed ||
  (work.items.values.any fun item => !isNativeWorkTerminal item.status) ||
  work.rootExecutions.any RootExecution.unresolved || work.goals.any GoalAdmission.unresolved ||
  work.forks.any fun fork => fork.phase == .pending

def NativeConversation.uncertain (conversation : NativeConversation) : Bool :=
  (conversation.policyControls.any fun control => control.phase == .pending) ||
  (conversation.configurationTransitions.any fun control => control.phase == .pending) ||
  (conversation.injections.any fun control => control.phase == .pending) ||
  (conversation.fork.any fun control => control.phase == .pending) ||
  (conversation.rollback.any fun control => control.phase == .pending) ||
  (conversation.goalControls.any fun control => control.phase == .pending) ||
  conversation.feedbackSubmissions.any fun control => control.phase == .pending

def inventoryHash (host : Host) (work : NativeWorkState) : String :=
  host.sha256 (host.workText work)

def RunnerStore.beginNativePolicyControl (runtime : Runtime) (moment : Moment) (key : String)
    (receipt : PolicyControlReceipt) (store : RunnerStore) : Attempt RunnerStore :=
  let ownership := StoreFailure.refused
    "Native policy dispatch requires its original conversation and execution owner."
  if !(receipt.valid runtime.schemas) then store.refuse .invalid
  else match store.data.nativeConversations.get? key,
      store.data.nativeWork.get? receipt.sourceSessionId with
    | some previous, some work =>
      if receipt.phase ≠ .pending ∨ !(receipt.owned key previous work) then
        store.refuse ownership
      else if work.outstanding || (store.data.mcpReviews.get? receipt.sourceSessionId).isSome ||
          previous.uncertain then
        store.refuse (.refused
          "Native policy dispatch cannot bypass outstanding work, callbacks or uncertain mutations.")
      else if receipt.executionInventoryHash.any fun hash =>
          hash != inventoryHash runtime.host work then
        store.refuse (.refused
          "Native policy dispatch inventory changed before its durable fence.")
      else
        let next := { previous with
          policyControls := previous.policyControls ++
            [{ receipt with executionInventoryHash := some (inventoryHash runtime.host work) }] }
        if next.valid runtime.schemas then
          store.attempt moment.written
            ({ store.data with
                nativeConversations := store.data.nativeConversations.set key next }, none)
            fun data => { data with
              nativeConversations := data.nativeConversations.set key previous }
        else store.refuse .invalid
    | _, _ => store.refuse ownership

/-- Admissions made before a policy change keep the binding they were made under. -/
def retainBinding (bindingHash : String) (bindings : List ExecutionBinding)
    (admission : AdmissionKind × String) : List ExecutionBinding :=
  if bindings.any fun binding =>
      binding.kind == admission.1 && binding.admissionId == admission.2 then bindings
  else bindings ++ [⟨admission.1, admission.2, bindingHash⟩]

def NativeWorkState.admissions (work : NativeWorkState) : List (AdmissionKind × String) :=
  (work.rootExecutions.map fun root => (.root, root.admissionId)) ++
    ((work.items.keys ++ work.retired.keys).map fun id => (.work, id))

/-- The work state under the binding that a policy control selected. -/
def NativeWorkState.rebound (work : NativeWorkState) (targetBindingHash : String) :
    NativeWorkState :=
  { work with
    executionBindings := work.admissions.foldl (retainBinding work.scope.executionBindingHash)
      work.executionBindings
    scope := { work.scope with executionBindingHash := targetBindingHash } }

/-- The conversation under that binding, with the completed receipt. -/
def NativeConversation.rebound (conversation : NativeConversation) (now : Int)
    (receipt completed : PolicyControlReceipt) : NativeConversation :=
  { conversation with
    bindingHash := receipt.targetBindingHash
    approvalPolicy := some receipt.selection.approvalPolicy
    approvalReviewer := some receipt.selection.approvalReviewer
    updatedAt := now
    policyControls := conversation.policyControls.map fun control =>
      if control.commandId = receipt.commandId then completed else control }

/-- The pending receipt that a confirmation may complete. -/
def confirmableControl (runtime : Runtime) (data : RunnerStateData) (key sessionId commandId : String)
    (previous : NativeConversation) (work : NativeWorkState) : Option PolicyControlReceipt :=
  (previous.policyControls.find? fun control => control.commandId == commandId).filter
    fun receipt =>
      receipt.phase == .pending && receipt.sourceSessionId == sessionId &&
      previous.lastSessionId == sessionId && previous.nativeThreadId == receipt.nativeReference &&
      previous.bindingHash == receipt.sourceBindingHash &&
      work.scope.executionBindingHash == receipt.sourceBindingHash &&
      work.scope.conversationKey == some key && !work.closureUnconfirmed &&
      (data.mcpReviews.get? sessionId).isNone &&
      receipt.executionInventoryHash == some (inventoryHash runtime.host work)

def RunnerStore.completeNativePolicyControl (runtime : Runtime) (moment : Moment)
    (key sessionId commandId : String) (result : ConversationResult) (event : Option HarnessEvent)
    (store : RunnerStore) : Attempt RunnerStore :=
  match (do
      let previous ← store.data.nativeConversations.get? key
      let work ← store.data.nativeWork.get? sessionId
      let receipt ← confirmableControl runtime store.data key sessionId commandId previous work
      return (previous, work, receipt)) with
  | none => store.refuse (.refused
    "Native policy confirmation requires its retained original dispatch fence.")
  | some (previous, work, receipt) =>
    let completed := { receipt with phase := .completed, result := some result }
    let nextWork := work.rebound receipt.targetBindingHash
    let nextConversation := previous.rebound moment.now receipt completed
    if !(result.valid runtime.schemas && completed.valid runtime.schemas &&
        nextWork.valid runtime.schemas && nextConversation.valid runtime.schemas) then
      store.refuse .invalid
    else if event.any fun event =>
        event.sessionId != sessionId || event.eventType != "session.configured" then
      store.refuse (.refused ("Native policy configuration events require " ++
        "the same physical owner's session."))
    else
      store.attempt moment.written
        (RunnerStateData.appendOptional runtime event
          { store.data with
            nativeConversations := store.data.nativeConversations.set key nextConversation
            nativeWork := store.data.nativeWork.set sessionId nextWork })
        fun data => { data with
          nativeConversations := data.nativeConversations.set key previous
          nativeWork := data.nativeWork.set sessionId work
          events := data.events.restore sessionId (store.data.events.get? sessionId) }

/-! ## A control of runs on given inputs -/

/-- The digest of the text "1". -/
def otherHash : String := "6b86b273ff34fce19d6b804eff5a3f5747ada4eaa22f1d49c01e52ddb7875b4b"

def plainWorkText : String :=
  "\x7b\"scope\":\x7b\"provider_instance_id\":\"provider-1\",\"provider_binding_hash\":\"" ++
    emptyHash ++ "\",\"workspace_id\":\"workspace-1\",\"cwd\":\"/workspace\"," ++
    "\"execution_binding_hash\":\"" ++ emptyHash ++ "\",\"execution_profile\":\"profile-1\"," ++
    "\"conversation_key\":\"key-1\"\x7d,\"items\":\x7b\x7d,\"retired\":\x7b\x7d\x7d"

def plainWorkHash : String := "70c92a4a78b9fa84577b924d4ce96e5551ebafba7a0ba386e646510af551aac0"

def plainControl : PolicyControlReceipt where
  commandId := "command-0"
  sourceSessionId := "session-1"
  nativeReference := "thread-1"
  requestHash := emptyHash
  sourceBindingHash := emptyHash
  targetBindingHash := otherHash
  sourceRevision := 0
  executionInventoryHash := none
  selection := .askUser
  phase := .pending
  result := none

def plainConfirmation : ConversationResult where
  commandId := "command-0"
  sessionId := "session-1"
  operation := .policy
  policy := some ⟨"thread-1", 1, .askUser, 3, "source", "default"⟩

end HarnessControl.State
