import HarnessControl.Harnesses.ForkRecording

/-!
# Preparation of a session

`#prepareSession` as far as it reads and writes the store: which conversation a session continues,
the fence of a configuration transition, the work state of the session, and the record that binds
the conversation to the session once the adapter has started it.
-/

namespace HarnessControl.Harnesses

open HarnessControl.Library HarnessControl.Protocol HarnessControl.State

/-! ## Digests of a configuration -/

/-- What `nativeBindingHash` takes the digest of. -/
structure BindingScope where
  provider : ProviderInstance
  workspaceId : String
  cwd : String
  sandbox : Option Json
  approval : ApprovalPolicy
  sandboxOptions : Option Json
  approvalOptions : Option Json
  toolSelection : Option Json
  policyControlAuthority : Option (List PolicySelection)
  /-- The reviewer is `"native_auto"`. -/
  nativeReview : Bool
  /-- A profile other than `"isolated"`. -/
  executionProfile : Option String
  instructions : Option Json
  attachments : Option Json
  tools : Json

/-- What `nativeConfigurationBaseHash` takes the digest of. -/
structure ConfigurationScope where
  binding : String
  inheritance : Option Json
  localCapabilityLease : Option Json

structure ConfigurationTexts where
  binding : BindingScope → String
  configuration : ConfigurationScope → String

/-- A start with what `#prepareSession` has resolved of it. -/
structure SessionStart where
  /-- With the canonical directories. -/
  payload : SessionStartPayload
  provider : ProviderInstance
  adapter : Adapter
  /-- The tools of the attached MCP servers. -/
  toolsets : Json
  inheritance : Option Json
  /-- What the checks of the start by itself find: its lease, its settings, its attachments. -/
  refusal : Option HarnessError

def SessionStart.profile? (start : SessionStart) : Option ExecutionProfile :=
  start.adapter.profile? (some (start.payload.executionProfile.getD "isolated"))

def SessionStart.bindingScope (start : SessionStart) : BindingScope where
  provider := start.provider
  workspaceId := start.payload.workspaceId
  cwd := start.payload.cwd
  sandbox := start.payload.settings.field? "sandbox_mode"
  approval := start.payload.approvalPolicy
  sandboxOptions := start.payload.settings.field? "sandbox_options"
  approvalOptions := start.payload.approvalOptions
  toolSelection := start.payload.settings.field? "tool_selection"
  policyControlAuthority := start.payload.policyControlAuthority
  nativeReview := start.payload.approvalReviewer == some .nativeAuto
  executionProfile := start.payload.executionProfile.filter fun profile => profile != "isolated"
  instructions := start.payload.settings.field? "instructions"
  attachments := start.payload.settings.field? "mcp_servers"
  tools := start.toolsets

section Digests

variable (texts : ConfigurationTexts) (host : Host) (start : SessionStart)

def SessionStart.bindingHash : String := host.sha256 (texts.binding start.bindingScope)

/-- The digest of a scope whose sandbox, approval and profile are set to fixed values. -/
def SessionStart.configurationHash (scope : BindingScope) : String :=
  host.sha256 (texts.configuration {
    binding := host.sha256 (texts.binding { scope with
      sandbox := some (.str "read_only"),
      approval := .ask,
      nativeReview := false,
      executionProfile := none })
    inheritance := start.inheritance
    localCapabilityLease := start.payload.settings.field? "local_capability_lease" })

def SessionStart.configurationBaseHash : String :=
  start.configurationHash texts host start.bindingScope

/-- `nativeConfigurationAuthorityHash`: without MCP servers and their tools. -/
def SessionStart.configurationAuthorityHash : String :=
  start.configurationHash texts host { start.bindingScope with
    attachments := some (.arr .nil), tools := .arr .nil }

end Digests

/-! ## Checks before the adapter starts -/

section Checks

variable (texts : ConfigurationTexts) (manager : Manager) (store : RunnerStore)
  (start : SessionStart)

/-- The conversation at the continuation key. -/
def SessionStart.stored? : Option NativeConversation :=
  start.payload.continuationGroupKey.bind store.data.nativeConversations.get?

def SessionStart.problem : Option HarnessError :=
  let payload := start.payload
  let transition := payload.conversationTransition
  firstError [
    errorIf (transition.isSome && (!payload.continueSession ||
        payload.continuationGroupKey.isNone || payload.firstTurn.isSome))
      "native_configuration_transition_invalid"
      "A transition requires explicit continuation without a model turn.",
    manager.assertWorkspaceAllowed payload.workspaceId payload.cwd,
    errorIf (payload.expectedNativeReference.isSome &&
        (start.stored? store).map (fun old => start.adapter.publicNativeReference
          old.nativeThreadId) != payload.expectedNativeReference)
      "native_continuation_reference_mismatch" ("The retained conversation does not match the " ++
        "application's last confirmed native identity."),
    errorIf (transition.any (fun transition => transition.change == some .mcpCatalog) &&
        !(start.profile?.any (·.idleMcpCatalogTransition)))
      "native_mcp_catalog_transition_unsupported" ("The profile does not declare native catalog " ++
        "replacement before model admission."),
    errorIf (transition.isSome && !(start.profile?.any (·.idleConfigurationTransition)))
      "native_configuration_transition_unsupported" ("The target execution profile does not " ++
        "declare confirmed idle configuration replacement."),
    start.refusal,
    errorIf (payload.continuationGroupKey.any fun key => (manager.liveOwner key).isSome)
      "native_conversation_busy" "This native conversation already has an active session."]

def SessionStart.continuationProblem (conversation : NativeConversation) : Option HarnessError :=
  let payload := start.payload
  let host := manager.runtime.host
  firstError [
    errorIf (conversation.providerBindingHash != start.provider.hash ||
        conversation.providerInstanceId != start.provider.id ||
        conversation.workspaceId != payload.workspaceId || conversation.cwd != payload.cwd)
      "native_continuation_binding"
      "The original provider and canonical workspace must own this continuation.",
    errorIf (conversation.configurationTransitions.any fun receipt => receipt.phase == .pending)
      "native_configuration_unknown" ("A prior configuration transition has no confirmed " ++
        "outcome; it cannot be repeated by starting another owner."),
    errorIf (conversation.policyControls.any fun receipt => receipt.phase == .pending)
      "native_policy_control_unknown" ("An uncertain in-place policy control cannot be bypassed " ++
        "by starting another owner."),
    errorIf (conversation.goalControls.any fun receipt => receipt.phase == .pending)
      "native_goal_control_unknown"
      "An earlier goal mutation remains uncertain; another owner cannot bypass it.",
    errorIf (!(payload.conversationTransition.any fun transition =>
          transition.change == some .mcpCatalog) &&
        conversation.configurationBaseHash.any fun hash =>
          hash != start.configurationBaseHash texts host)
      "native_configuration_transition_binding" ("Retained instructions, inheritance, tools and " ++
        "local authority must remain in the original configuration scope."),
    errorIf (payload.conversationTransition.isNone &&
        conversation.bindingHash != start.bindingHash texts host)
      "native_continuation_binding" ("Native conversation is missing or its workspace, provider, " ++
        "tools, instructions, or policy changed."),
    errorIf (conversation.rollback.any fun receipt => receipt.phase == .pending)
      "native_rollback_unknown"
      "The previous rollback needs reconciliation; starting another turn is unsafe.",
    errorIf (conversation.fork.any fun receipt => receipt.phase == .pending) "native_fork_unknown"
      "A previous fork has an unknown outcome; reconcile it before resuming.",
    errorIf (conversation.injections.any fun receipt => receipt.phase == .pending)
      "native_injection_unknown" ("An earlier context injection has an unknown outcome; " ++
        "resuming cannot redeliver it."),
    errorIf (workUnconfirmed (store.data.nativeWork.get? conversation.lastSessionId))
      "native_work_shutdown_unknown" ("Earlier native work has unconfirmed closure; resuming " ++
        "cannot reclaim its execution owner.")]

/-- The conversation that the session continues, if it continues one. -/
def SessionStart.retained : Except HarnessError (Option NativeConversation) :=
  if start.payload.continueSession then
    match start.stored? store with
    | none => .error ⟨"native_continuation_binding",
      "The original provider and canonical workspace must own this continuation."⟩
    | some conversation =>
      match start.continuationProblem texts manager store conversation with
      | some error => .error error
      | none => .ok (some conversation)
  else if (start.stored? store).isSome then
    .error ⟨"native_continuation_exists",
      "An existing native conversation requires explicit continuation."⟩
  else .ok none

/-- Why a transition cannot be fenced; the history is read before. -/
def SessionStart.transitionProblem (transition : ConversationTransition)
    (conversation : NativeConversation) (sourceHistory : Option String) : Option HarnessError :=
  let host := manager.runtime.host
  let adapter := start.adapter
  let (base, original) :=
    if transition.change = some .mcpCatalog then
      (start.configurationAuthorityHash texts host, conversation.configurationAuthorityHash)
    else (start.configurationBaseHash texts host, conversation.configurationBaseHash)
  firstError [
    errorIf (!(adapter.liveHistoryRead && adapter.conversationOperations.contains .read))
      "native_configuration_transition_unsupported" ("An explicit no-model transition requires " ++
        "a declared confirmed native continuation owner."),
    errorIf ((store.data.sessionEvents conversation.lastSessionId).getLast?.map (·.eventType) !=
        some "session.exited") "native_configuration_transition_busy"
      "The original execution lease must confirm shutdown before configuration replacement.",
    errorIf (original != some base) "native_configuration_transition_binding"
      ("Only policy and execution profile may change; retain the verified provider, workspace, " ++
        "instructions, inheritance and tools."),
    errorIf (conversation.configurationTransitions.any fun receipt =>
        receipt.transitionId == transition.transitionId) "native_configuration_transition_exists"
      ("This transition identity is already retained; inspect its target instead of repeating " ++
        "startup."),
    errorIf (decide (1024 ≤ conversation.configurationTransitions.length))
      "native_configuration_transition_limit"
      "The conversation reached its bounded transition receipt limit.",
    errorIf (sourceHistory != some transition.expectedHistoryHash) "native_history_changed"
      "Read current native history before changing the execution configuration."]

end Checks

/-! ## Records -/

section Records

variable (texts : ConfigurationTexts) (host : Host) (start : SessionStart)

def SessionStart.pendingTransition (transition : ConversationTransition)
    (conversation : NativeConversation) : ConfigurationTransition where
  transitionId := transition.transitionId
  change := transition.change
  sourceBindingHash := conversation.bindingHash
  targetBindingHash := start.bindingHash texts host
  expectedHistoryHash := transition.expectedHistoryHash
  targetSessionId := start.payload.sessionId
  phase := .pending

def NativeConversation.fenced (conversation : NativeConversation)
    (receipt : ConfigurationTransition) : NativeConversation :=
  { conversation with
    configurationTransitions := conversation.configurationTransitions ++ [receipt] }

def NativeConversation.transitioned (conversation : NativeConversation) (transitionId : String) :
    NativeConversation :=
  { conversation with
    configurationTransitions := conversation.configurationTransitions.map fun receipt =>
      if receipt.transitionId = transitionId then { receipt with phase := .completed }
      else receipt }

/-- The retained record after the target of its transition was verified. -/
def SessionStart.confirmed (start : SessionStart) (retained : Option NativeConversation) :
    Option NativeConversation :=
  match start.payload.conversationTransition with
  | some transition => retained.map fun old =>
    NativeConversation.transitioned old transition.transitionId
  | none => retained

/-- `{}`: every field that has to be there is set over it. -/
def NativeConversation.blank : NativeConversation where
  nativeThreadId := ""
  bindingHash := ""
  updatedAt := 0
  lastSessionId := ""
  providerInstanceId := ""
  providerBindingHash := ""
  workspaceId := ""
  cwd := ""

/-- The record of a started session over the one that it continues.  Options and reviewer of the
retained record stay where the start does not give them. -/
def SessionStart.binding (now : Int) (retained : Option NativeConversation)
    (nativeThreadId : String) : NativeConversation :=
  let old := retained.getD NativeConversation.blank
  { old with
    nativeThreadId
    configurationBaseHash := some (start.configurationBaseHash texts host)
    configurationAuthorityHash := some (start.configurationAuthorityHash texts host)
    bindingHash := start.bindingHash texts host
    updatedAt := now
    approvalPolicy := some start.payload.approvalPolicy
    approvalOptions := start.payload.approvalOptions.or old.approvalOptions
    approvalReviewer := start.payload.approvalReviewer.or old.approvalReviewer
    lastSessionId := start.payload.sessionId
    providerInstanceId := start.provider.id
    workspaceId := start.payload.workspaceId
    cwd := start.payload.cwd
    providerBindingHash := start.provider.hash }

def SessionStart.workState (existing : Option NativeWorkState) : NativeWorkState :=
  let scope : WorkScope := {
    providerInstanceId := start.provider.id
    providerBindingHash := start.provider.hash
    workspaceId := start.payload.workspaceId
    cwd := start.payload.cwd
    executionBindingHash := start.bindingHash texts host
    executionProfile := start.payload.executionProfile
    conversationKey := start.payload.continuationGroupKey }
  existing.elim { scope := scope } fun state => { state with scope := scope }

end Records

/-! ## What the adapter answers -/

/-- `native_policy_readback`. -/
structure PolicyReadback where
  approvalPolicy : ApprovalPolicy
  approvalReviewer : Option ApprovalReviewer
  approvalOptions : Option Json
  executionProfile : String
  sandboxMode : Option Json
  sandboxOptions : Option Json

structure StartAnswers where
  /-- The history before a transition. -/
  sourceHistory : Option String
  /-- `native_thread_id` of the adapter's session. -/
  nativeThreadId : Option String
  policyReadback : Option PolicyReadback
  /-- The attachments are confirmed as they were selected. -/
  catalogConfirmed : Bool
  /-- The history after a transition. -/
  verifiedHistory : Option String

def SessionStart.confirms (start : SessionStart) (readback : PolicyReadback) : Bool :=
  readback.approvalPolicy == start.payload.approvalPolicy &&
  readback.sandboxMode == start.payload.settings.field? "sandbox_mode" &&
  readback.sandboxOptions == start.payload.settings.field? "sandbox_options" &&
  readback.approvalOptions == start.payload.approvalOptions &&
  readback.executionProfile == start.payload.executionProfile.getD "isolated" &&
  readback.approvalReviewer.getD .user == start.payload.approvalReviewer.getD .user

/-- What is wrong with the session that the adapter has started. -/
def SessionStart.answerProblem (start : SessionStart) (retained : Option NativeConversation)
    (answers : StartAnswers) : Option HarnessError :=
  let payload := start.payload
  let transition := payload.conversationTransition
  firstError [
    errorIf (retained.any fun old => answers.nativeThreadId.any fun id => id != old.nativeThreadId)
      "native_continuation_binding" "The adapter resumed another native conversation.",
    errorIf (answers.policyReadback.any fun readback => !(start.confirms readback))
      "native_policy_unconfirmed"
      "Native startup policy differs from the authorized execution configuration.",
    errorIf (((payload.settings.field? "sandbox_options").isSome ||
        payload.approvalOptions.isSome) && answers.policyReadback.isNone)
      "native_policy_unconfirmed"
      "Explicit native authority options require exact effective native policy readback.",
    errorIf (payload.approvalReviewer == some .nativeAuto && answers.policyReadback.isNone)
      "native_policy_unconfirmed"
      "Native automatic approval review requires effective native policy readback.",
    errorIf ((transition.any fun transition => transition.change == some .mcpCatalog) &&
        !answers.catalogConfirmed) "native_mcp_catalog_unconfirmed"
      "Native startup did not confirm the exact authorized attachment registry.",
    errorIf (transition.isSome && (answers.policyReadback.isNone || retained.isNone))
      "native_policy_unconfirmed" "The transition has no effective native policy evidence.",
    errorIf (transition.any fun transition =>
        answers.verifiedHistory != some transition.expectedHistoryHash)
      "native_configuration_history_unknown"
      "The resumed native owner did not preserve the selected conversation history."]

/-! ## The preparation -/

/-- The session as its own operations on the conversation see it. -/
structure OwnedSession where
  /-- With the current `startPayload`. -/
  start : SessionStart
  /-- `adapterSession.native_thread_id`. -/
  nativeThreadId : Option String
  nativeBindingHash : String

section Preparation

variable (texts : ConfigurationTexts) (manager : Manager)

/-- The pending receipt of a transition is stored before the adapter may start. -/
def SessionStart.fence (start : SessionStart) (moment : Moment) (answers : StartAnswers)
    (retained : Option NativeConversation) (store : RunnerStore) :
    RunnerStore × Except OperationFailure (Option NativeConversation) :=
  match retained, start.payload.conversationTransition, start.payload.continuationGroupKey with
  | some conversation, some transition, some key =>
    match start.transitionProblem texts manager store transition conversation
        answers.sourceHistory with
    | some error => (store, .error (.thrown error))
    | none =>
      let next := NativeConversation.fenced conversation
        (start.pendingTransition texts manager.runtime.host transition conversation)
      let attempt := store.saveNativeConversation manager.runtime moment key next
      match attempt.failure with
      | some failure => (attempt.state, .error (.store failure))
      | none => (attempt.state, .ok (some next))
  | retained, _, _ => (store, .ok retained)

/-- The work state of a session whose adapter owns native work. -/
def SessionStart.openWork (start : SessionStart) (moment : Moment) (store : RunnerStore) :
    RunnerStore × Option OperationFailure :=
  let existing := store.data.nativeWork.get? start.payload.sessionId
  if start.adapter.nativeWork && (start.adapter.executionProfiles.isEmpty ||
      start.profile?.any (·.nativeWork)) then
    if (existing.any fun state => state.closureUnconfirmed) || unresolvedNativeAdmissions existing then
      (store, some (.thrown ⟨"native_work_shutdown_unknown", "Earlier native work has " ++
        "unconfirmed closure; restarting cannot reclaim its execution owner."⟩))
    else
      let attempt := store.saveNativeWorkState manager.runtime moment start.payload.sessionId
        (start.workState texts manager.runtime.host existing) none
      (attempt.state, attempt.failure.map .store)
  else (store, none)

/-- The record is stored at once where the thread is known to be the conversation's. -/
def SessionStart.recordsAtOnce (start : SessionStart) (retained : Option NativeConversation) :
    Bool :=
  start.adapter.emptyConversation || start.profile?.any (·.emptyConversation) ||
    start.payload.conversationTransition.isSome || retained.isSome

def SessionStart.record (start : SessionStart) (moment : Moment) (answers : StartAnswers)
    (retained : Option NativeConversation) (store : RunnerStore) :
    RunnerStore × Except OperationFailure OwnedSession :=
  match start.answerProblem retained answers with
  | some error => (store, .error (.thrown error))
  | none =>
    let threadId := (retained.map (·.nativeThreadId)).or answers.nativeThreadId
    let session : OwnedSession := ⟨start, threadId, start.bindingHash texts manager.runtime.host⟩
    if start.recordsAtOnce retained then
      match threadId, start.payload.continuationGroupKey with
      | none, _ => (store, .error (.thrown ⟨"native_conversation_unconfirmed",
        "The adapter did not establish its advertised empty native conversation."⟩))
      | some _, none => (store, .ok session)
      | some id, some key =>
        let attempt := store.saveNativeConversation manager.runtime moment key
          (start.binding texts manager.runtime.host moment.now (start.confirmed retained) id)
        match attempt.failure with
        | some failure => (attempt.state, .error (.store failure))
        | none => (attempt.state, .ok session)
    else (store, .ok session)

/-- `#prepareSession`; where it fails after the work state was created, the state is removed. -/
def SessionStart.prepare (start : SessionStart) (moment : Moment) (answers : StartAnswers)
    (store : RunnerStore) : RunnerStore × Except OperationFailure OwnedSession :=
  match start.problem manager store with
  | some error => (store, .error (.thrown error))
  | none =>
    match start.retained texts manager store with
    | .error error => (store, .error (.thrown error))
    | .ok retained =>
      match start.fence texts manager moment answers retained store with
      | (fenced, .error failure) => (fenced, .error failure)
      | (fenced, .ok retained) =>
        let created := (fenced.data.nativeWork.get? start.payload.sessionId).isNone
        let cleaned := fun (store : RunnerStore) =>
          if created then
            (store.removeEmptyNativeWorkState moment start.payload.sessionId).state
          else store
        match start.openWork texts manager moment fenced with
        | (opened, some failure) => (cleaned opened, .error failure)
        | (opened, none) =>
          match start.record texts manager moment answers retained opened with
          | (recorded, .error failure) => (cleaned recorded, .error failure)
          | (recorded, .ok session) => (recorded, .ok session)

end Preparation

/-! ## Accepted starts -/

section Accepted

variable {texts : ConfigurationTexts} {manager : Manager} {start : SessionStart} {moment : Moment}
  {answers : StartAnswers} {store after : RunnerStore} {session : OwnedSession}

structure SessionStart.Accepted (texts : ConfigurationTexts) (manager : Manager)
    (start : SessionStart) (moment : Moment) (answers : StartAnswers) (store : RunnerStore)
    (before retained : Option NativeConversation) (fenced opened after : RunnerStore)
    (session : OwnedSession) : Prop where
  checking : start.problem manager store = none
  choosing : start.retained texts manager store = .ok before
  fencing : start.fence texts manager moment answers before store = (fenced, .ok retained)
  opening : start.openWork texts manager moment fenced = (opened, none)
  recording : start.record texts manager moment answers retained opened = (after, .ok session)

theorem SessionStart.prepare_ok
    (h : start.prepare texts manager moment answers store = (after, .ok session)) :
    ∃ before retained fenced opened, start.Accepted texts manager moment answers store before
      retained fenced opened after session := by
  unfold SessionStart.prepare at h
  split at h
  · cases (Prod.mk.inj h).2
  · rename_i hchecked
    split at h
    · cases (Prod.mk.inj h).2
    · rename_i before hbefore
      split at h
      · cases (Prod.mk.inj h).2
      · rename_i fenced retained hfenced
        dsimp only at h
        split at h
        · cases (Prod.mk.inj h).2
        · rename_i opened hopened
          split at h
          · cases (Prod.mk.inj h).2
          · rename_i recorded session' hrecorded
            cases h
            exact ⟨before, retained, fenced, opened, hchecked, hbefore, hfenced, hopened,
              hrecorded⟩

theorem SessionStart.retained_ok {before : Option NativeConversation}
    (h : start.retained texts manager store = .ok before) :
    before = start.stored? store ∧ before.isSome = start.payload.continueSession ∧
      ∀ conversation ∈ before,
        start.continuationProblem texts manager store conversation = none := by
  unfold SessionStart.retained at h
  split at h
  · rename_i hcontinue
    split at h
    · cases h
    · rename_i conversation hstored
      split at h
      · cases h
      · rename_i hproblem
        cases h
        refine ⟨hstored.symm, hcontinue.symm, ?_⟩
        rintro other ⟨⟩
        exact hproblem
  · rename_i hnew
    split at h
    · cases h
    · rename_i hnone
      cases h
      refine ⟨?_, (eq_false_of_ne_true hnew).symm, fun other hmem => nomatch hmem⟩
      exact (Option.not_isSome_iff_eq_none.mp hnone).symm

theorem SessionStart.fence_ok {before retained : Option NativeConversation}
    (h : start.fence texts manager moment answers before store = (after, .ok retained)) :
    before = none ∧ retained = none ∧ after = store ∨
      ∃ old transitions, before = some old ∧
        retained = some { old with configurationTransitions := transitions } := by
  cases before with
  | none =>
    cases h
    exact Or.inl ⟨rfl, rfl, rfl⟩
  | some old =>
    right
    unfold SessionStart.fence at h
    cases htransition : start.payload.conversationTransition with
    | none =>
      rw [htransition] at h
      cases h
      exact ⟨old, old.configurationTransitions, rfl, rfl⟩
    | some transition =>
      cases hkey : start.payload.continuationGroupKey with
      | none =>
        rw [htransition, hkey] at h
        cases h
        exact ⟨old, old.configurationTransitions, rfl, rfl⟩
      | some key =>
        rw [htransition, hkey] at h
        dsimp only at h
        split at h
        · cases (Prod.mk.inj h).2
        · split at h
          · cases (Prod.mk.inj h).2
          · cases h
            exact ⟨old, _, rfl, rfl⟩

theorem SessionStart.openWork_conversations {failure : Option OperationFailure} (key : String)
    (h : start.openWork texts manager moment store = (after, failure)) :
    after.data.nativeConversations.get? key = store.data.nativeConversations.get? key := by
  have hsave : (store.perform manager.runtime moment (.saveNativeWorkState start.payload.sessionId
      (start.workState texts manager.runtime.host
        (store.data.nativeWork.get? start.payload.sessionId))
      none)).state.data.nativeConversations.get? key =
        store.data.nativeConversations.get? key := perform_conversation nofun
  unfold SessionStart.openWork at h
  dsimp only at h
  split at h
  · split at h
    · cases h
      rfl
    · cases h
      exact hsave
  · cases h
    rfl

theorem SessionStart.confirmed_some {retained : Option NativeConversation}
    {conversation : NativeConversation} (h : start.confirmed retained = some conversation) :
    ∃ old transitions, retained = some old ∧
      conversation = { old with configurationTransitions := transitions } := by
  unfold SessionStart.confirmed at h
  split at h
  · rcases Option.map_eq_some_iff.mp h with ⟨old, hold, rfl⟩
    exact ⟨old, _, hold, rfl⟩
  · exact ⟨conversation, conversation.configurationTransitions, h, rfl⟩

theorem SessionStart.record_ok {retained : Option NativeConversation} {key : String}
    (hkey : start.payload.continuationGroupKey = some key)
    (h : start.record texts manager moment answers retained store = (after, .ok session)) :
    session = ⟨start, (retained.map (·.nativeThreadId)).or answers.nativeThreadId,
        start.bindingHash texts manager.runtime.host⟩ ∧
      (start.recordsAtOnce retained = false ∧ after = store ∨
        start.recordsAtOnce retained = true ∧ ∃ id, session.nativeThreadId = some id ∧
          (store.saveNativeConversation manager.runtime moment key (start.binding texts
            manager.runtime.host moment.now (start.confirmed retained) id)).failure = none ∧
          after = (store.saveNativeConversation manager.runtime moment key (start.binding texts
            manager.runtime.host moment.now (start.confirmed retained) id)).state) := by
  unfold SessionStart.record at h
  split at h
  · cases (Prod.mk.inj h).2
  · dsimp only at h
    rw [hkey] at h
    split at h
    · rename_i honce
      split at h
      · cases (Prod.mk.inj h).2
      · rename_i hnone
        cases hnone
      · rename_i id other hthread hother
        cases hother
        split at h
        · cases (Prod.mk.inj h).2
        · rename_i hsaved
          cases h
          exact ⟨rfl, Or.inr ⟨honce, id, hthread, hsaved, rfl⟩⟩
    · rename_i hlater
      cases h
      exact ⟨rfl, Or.inl ⟨eq_false_of_ne_true hlater, rfl⟩⟩

end Accepted

end HarnessControl.Harnesses
