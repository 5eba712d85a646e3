import HarnessControl.Harnesses.Preparation
import HarnessControl.State.McpRuns

/-!
# The record of a live session's conversation

After its start a session writes the record of its conversation on four paths: a turn persists the
native thread, feedback and goals append their receipts, and a policy control installs its
selection.  Turns may come between the steps of an operation; operations wait for each other.
-/

namespace HarnessControl.Harnesses

open HarnessControl.Library HarnessControl.Protocol HarnessControl.State

/-! ## Writing the record -/

/-- `{...startPayload, ...selection}`. -/
def SessionStart.select (start : SessionStart) (selection : PolicySelection) : SessionStart :=
  { start with payload := { start.payload with
      approvalPolicy := selection.approvalPolicy
      approvalReviewer := some selection.approvalReviewer } }

/-- The record that `persistNativeThread` saves. -/
def OwnedSession.threadRecord (texts : ConfigurationTexts) (host : Host) (session : OwnedSession)
    (now : Int) (nativeThreadId : String) (previous : Option NativeConversation) :
    NativeConversation where
  rollback := previous.bind (·.rollback)
  fork := previous.bind (·.fork)
  injections := previousReceipts (·.injections) previous
  configurationTransitions := previousReceipts (·.configurationTransitions) previous
  feedbackSubmissions := previousReceipts (·.feedbackSubmissions) previous
  goalControls := previousReceipts (·.goalControls) previous
  policyControls := previousReceipts (·.policyControls) previous
  configurationAuthorityHash := some (session.start.configurationAuthorityHash texts host)
  configurationBaseHash := some (session.start.configurationBaseHash texts host)
  nativeThreadId
  bindingHash := session.nativeBindingHash
  updatedAt := now
  approvalPolicy := some session.start.payload.approvalPolicy
  approvalOptions := session.start.payload.approvalOptions
  approvalReviewer := session.start.payload.approvalReviewer
  lastSessionId := session.start.payload.sessionId
  providerInstanceId := session.start.provider.id
  workspaceId := session.start.payload.workspaceId
  cwd := session.start.payload.cwd
  providerBindingHash := session.start.provider.hash

/-- A policy control under way: the receipt that it dispatches with, and the start that it selects. -/
structure PolicyPlan where
  receipt : PolicyControlReceipt
  next : SessionStart
  dispatched : Bool

inductive ControlOperation where
  | feedback (conversation : NativeConversation)
  | policy (plan : PolicyPlan)

structure RecordingHost where
  key : String
  session : OwnedSession
  store : RunnerStore
  operation : Option ControlOperation
  /-- The conversation has a record. -/
  saved : Bool
  /-- A call of `persistNativeThread` has failed. -/
  refused : Bool

/-- A session after its start. -/
def RecordingHost.opened (key : String) (session : OwnedSession) (store : RunnerStore) :
    RecordingHost where
  key
  session
  store
  operation := none
  saved := session.start.adapter.emptyConversation ||
    session.start.profile?.any (·.emptyConversation) || session.start.payload.continueSession
  refused := false

inductive RecordingAction where
  /-- The thread counts where the session has none yet. -/
  | persistNativeThread (now : Int) (nativeThreadId : String)
  | readForFeedback
  | submitFeedback (moment : Moment) (receipt : FeedbackReceipt)
  | completeFeedback (moment : Moment) (commandId : String) (result : FeedbackResult)
  | beginGoal (moment : Moment) (receipt : GoalControlReceipt)
  | completeGoal (moment : Moment) (commandId : String) (result : GoalResult)
  | planPolicy (commandId requestHash : String) (selection : PolicySelection)
  | beginPolicy (moment : Moment)
  | commitPolicy (moment : Moment) (result : ConversationResult) (event : HarnessEvent)
  | operationOver
  /-- A call that is not about the conversation of the session. -/
  | other (moment : Moment) (action : StoreAction)

section Steps

variable (texts : ConfigurationTexts) (runtime : Runtime) (host : RecordingHost)

def RecordingHost.record? : Option NativeConversation :=
  host.store.data.nativeConversations.get? host.key

def RecordingHost.save (moment : Moment) (conversation : NativeConversation) : RecordingHost :=
  { host with
    store := (host.store.saveNativeConversation runtime moment host.key conversation).state }

def RecordingHost.ownThread (nativeThreadId : String) : String :=
  host.session.nativeThreadId.getD nativeThreadId

def RecordingHost.persistNativeThread (now : Int) (nativeThreadId : String) : RecordingHost :=
  let own := host.ownThread nativeThreadId
  let attempt := host.store.saveNativeConversation runtime ⟨now, true⟩ host.key
    (host.session.threadRecord texts runtime.host now own host.record?)
  { host with
    store := attempt.state
    session := { host.session with nativeThreadId := some own }
    saved := true
    refused := host.refused || !attempt.returned }

def RecordingHost.patch (moment : Moment)
    (change : NativeConversation → NativeConversation) : RecordingHost :=
  match host.record? with
  | none => host
  | some current => host.save runtime moment (change current)

def RecordingHost.policyPlan (commandId requestHash : String) (selection : PolicySelection)
    (conversation : NativeConversation) : PolicyPlan where
  next := host.session.start.select selection
  receipt := {
    commandId
    sourceSessionId := host.session.start.payload.sessionId
    nativeReference := conversation.nativeThreadId
    requestHash
    sourceBindingHash := conversation.bindingHash
    targetBindingHash := (host.session.start.select selection).bindingHash texts runtime.host
    sourceRevision := (conversation.policyControls.filter fun receipt =>
      receipt.sourceSessionId == host.session.start.payload.sessionId &&
        receipt.phase == .completed).length
    executionInventoryHash := none
    selection
    phase := .pending
    result := none }
  dispatched := false

def RecordingHost.planPolicy (commandId requestHash : String) (selection : PolicySelection) :
    RecordingHost :=
  match host.operation, host.record? with
  | none, some conversation =>
    if conversation.policyControls.any fun receipt => receipt.commandId == commandId then host
    else { host with operation := some (.policy
      (host.policyPlan texts runtime commandId requestHash selection conversation)) }
  | _, _ => host

def RecordingHost.beginPolicy (moment : Moment) : RecordingHost :=
  match host.operation with
  | some (.policy plan) =>
    let attempt := host.store.beginNativePolicyControl runtime moment host.key plan.receipt
    { host with
      store := attempt.state
      operation := some (.policy { plan with
        dispatched := plan.dispatched || attempt.returned }) }
  | _ => host

/-- The confirmed selection becomes the start of the session. -/
def RecordingHost.commitPolicy (moment : Moment) (result : ConversationResult)
    (event : HarnessEvent) : RecordingHost :=
  match host.operation with
  | some (.policy plan) =>
    if plan.dispatched then
      let attempt := host.store.completeNativePolicyControl runtime moment host.key
        host.session.start.payload.sessionId plan.receipt.commandId result event
      if attempt.returned then
        { host with
          store := attempt.state
          session := { host.session with
            start := plan.next
            nativeBindingHash := plan.receipt.targetBindingHash }
          operation := none }
      else { host with store := attempt.state }
    else host
  | _ => host

def RecordingHost.step (host : RecordingHost) : RecordingAction → RecordingHost
  | .persistNativeThread now nativeThreadId =>
    host.persistNativeThread texts runtime now nativeThreadId
  | .readForFeedback =>
    match host.operation, host.record? with
    | none, some conversation => { host with operation := some (.feedback conversation) }
    | _, _ => host
  | .submitFeedback moment receipt =>
    match host.operation with
    | some (.feedback conversation) => host.save runtime moment { conversation with
      feedbackSubmissions := conversation.feedbackSubmissions ++ [receipt] }
    | _ => host
  | .completeFeedback moment commandId result =>
    host.patch runtime moment fun current => { current with
      feedbackSubmissions := current.feedbackSubmissions.map fun receipt =>
        if receipt.commandId = commandId then
          { receipt with phase := .completed, result := some result }
        else receipt }
  | .beginGoal moment receipt =>
    host.patch runtime moment fun current => { current with
      goalControls := current.goalControls ++ [receipt] }
  | .completeGoal moment commandId result =>
    host.patch runtime moment fun current => { current with
      goalControls := current.goalControls.map fun receipt =>
        if receipt.commandId = commandId then
          { receipt with phase := .completed, result := some result }
        else receipt }
  | .planPolicy commandId requestHash selection =>
    host.planPolicy texts runtime commandId requestHash selection
  | .beginPolicy moment => host.beginPolicy runtime moment
  | .commitPolicy moment result event => host.commitPolicy runtime moment result event
  | .operationOver => { host with operation := none }
  | .other moment action =>
    if conversationKey action = some host.key then host
    else { host with store := (host.store.perform runtime moment action).state }

end Steps

/-! ## What is promised -/

section Promise

variable (texts : ConfigurationTexts)

/-- The record says of the approvals and of the configuration what the start says. -/
structure NativeConversation.Describes (host : Host) (record : NativeConversation)
    (start : SessionStart) : Prop where
  approvalPolicy : record.approvalPolicy = some start.payload.approvalPolicy
  approvalReviewer :
    record.approvalReviewer.getD .user = start.payload.approvalReviewer.getD .user
  approvalOptions : record.approvalOptions = start.payload.approvalOptions
  bindingHash : record.bindingHash = start.bindingHash texts host
  baseHash : record.configurationBaseHash = some (start.configurationBaseHash texts host)
  authorityHash :
    record.configurationAuthorityHash = some (start.configurationAuthorityHash texts host)
  lastSessionId : record.lastSessionId = start.payload.sessionId

/-- Every call of `persistNativeThread` has succeeded, and the record describes the session. -/
structure RecordingHost.Lawful (runtime : Runtime) (host : RecordingHost) : Prop where
  persisted : host.refused = false
  stored : host.saved = true → host.record?.isSome = true
  described : ∀ record, host.record? = some record →
    NativeConversation.Describes texts runtime.host record host.session.start

/-- A continued start repeats the approval options and the automatic reviewer that the record has. -/
def SessionStart.Restates (start : SessionStart) (store : RunnerStore) : Prop :=
  start.payload.continueSession = true → ∀ old ∈ start.stored? store,
    (start.payload.approvalOptions = none → old.approvalOptions = none) ∧
      (start.payload.approvalReviewer = none → old.approvalReviewer ≠ some .nativeAuto)

/-- The first record of a conversation is one that the store can take. -/
structure RecordingHost.Recordable (runtime : Runtime) (host : RecordingHost) (now : Int)
    (nativeThreadId : String) : Prop where
  key : ¬(host.key = "" ∨ 512 < utf16Length host.key)
  valid : (host.session.threadRecord texts runtime.host now (host.ownThread nativeThreadId)
    none).valid runtime.schemas = true
  room : host.store.data.nativeConversations.size < 1024

def RecordingHost.Admits (runtime : Runtime) (host : RecordingHost) : RecordingAction → Prop
  | .persistNativeThread now nativeThreadId =>
    host.record? = none → host.Recordable texts runtime now nativeThreadId
  | _ => True

end Promise

/-! ## The invariant -/

section Invariant

variable {texts : ConfigurationTexts} {runtime : Runtime} {host : RecordingHost}

/-- The record describes the session and belongs to its native thread. -/
structure NativeConversation.Belongs (texts : ConfigurationTexts) (host : Host)
    (record : NativeConversation) (session : OwnedSession) : Prop where
  described : NativeConversation.Describes texts host record session.start
  nativeThreadId : session.nativeThreadId = some record.nativeThreadId
  provider : record.providerInstanceId = session.start.provider.id ∧
    record.providerBindingHash = session.start.provider.hash
  place : record.workspaceId = session.start.payload.workspaceId ∧
    record.cwd = session.start.payload.cwd

/-- The plan of a policy control is about the session, and the receipt of its command is its own. -/
structure PolicyPlan.Suits (texts : ConfigurationTexts) (host : Host) (plan : PolicyPlan)
    (session : OwnedSession) (controls : List PolicyControlReceipt) : Prop where
  next : plan.next = session.start.select plan.receipt.selection
  target : plan.receipt.targetBindingHash = plan.next.bindingHash texts host
  own : ∀ receipt ∈ controls, receipt.commandId = plan.receipt.commandId →
    receipt.selection = plan.receipt.selection ∧
      receipt.targetBindingHash = plan.receipt.targetBindingHash
  absent : plan.dispatched = false → ∀ receipt ∈ controls,
    receipt.commandId ≠ plan.receipt.commandId

/-- What an operation under way has read agrees with the session. -/
def ControlOperation.Suits (texts : ConfigurationTexts) (host : Host) (session : OwnedSession)
    (controls : List PolicyControlReceipt) : ControlOperation → Prop
  | .feedback conversation => NativeConversation.Belongs texts host conversation session
  | .policy plan => plan.Suits texts host session controls

structure RecordingHost.Owns (texts : ConfigurationTexts) (runtime : Runtime)
    (host : RecordingHost) : Prop where
  persisted : host.refused = false
  stored : host.saved = true → host.record?.isSome = true
  binding : host.session.nativeBindingHash = host.session.start.bindingHash texts runtime.host
  belongs : ∀ record, host.record? = some record →
    NativeConversation.Belongs texts runtime.host record host.session
  /-- What is stored satisfies its schema, at a key that the store takes. -/
  valid : ∀ record, host.record? = some record → record.valid runtime.schemas = true ∧
    ¬(host.key = "" ∨ 512 < utf16Length host.key)
  operation : ∀ operation ∈ host.operation, operation.Suits texts runtime.host host.session
    (previousReceipts (·.policyControls) host.record?)

theorem RecordingHost.Owns.lawful (h : host.Owns texts runtime) : host.Lawful texts runtime :=
  ⟨h.persisted, h.stored, fun record hrecord => (h.belongs record hrecord).described⟩

/-! ## Saves -/

variable (runtime) in
theorem save_cases (store : RunnerStore) (moment : Moment) (key : String)
    (conversation : NativeConversation) :
    let attempt := store.saveNativeConversation runtime moment key conversation
    attempt.failure ≠ none ∧ attempt.state.data.nativeConversations.get? key =
        store.data.nativeConversations.get? key ∨
      attempt.failure = none ∧
        attempt.state.data.nativeConversations.get? key = some conversation ∧
        conversation.valid runtime.schemas = true ∧ ¬(key = "" ∨ 512 < utf16Length key) ∧
        previousReceipts (·.policyControls) (store.data.nativeConversations.get? key) =
          conversation.policyControls := by
  have hrecords : RecordsAfter runtime moment store (.saveNativeConversation key conversation) _ :=
    store.saveNativeConversation_records key conversation
  rcases hrecords with ⟨hsame, hsilent⟩ | ⟨hreturned, hsaved⟩
  · refine Or.inl ⟨fun hreturned => ?_, hsame.conversations key⟩
    have hsaves := hsilent hreturned
    cases hsaves
  · cases hsaved with
    | conversation valid admitted reviews conversations work =>
      right
      rw [conversations, Dict.get?_set_self]
      refine ⟨hreturned, rfl, valid, RunnerStore.saveNativeConversation_key hreturned, ?_⟩
      unfold saveNativeConversationProblem at admitted
      simp only [firstProblem_eq_none, List.forall_mem_cons, refuseIf_eq_none] at admitted
      simpa using admitted.1

theorem RecordingHost.Owns.store (h : host.Owns texts runtime) (store : RunnerStore)
    (hsame : store.data.nativeConversations.get? host.key = host.record?) :
    RecordingHost.Owns texts runtime { host with store } where
  persisted := h.persisted
  stored hsaved := by
    change (store.data.nativeConversations.get? host.key).isSome = true
    rw [hsame]
    exact h.stored hsaved
  binding := h.binding
  belongs record hrecord := h.belongs record (hsame.symm.trans hrecord)
  valid record hrecord := h.valid record (hsame.symm.trans hrecord)
  operation operation hmem := by
    change operation.Suits texts runtime.host host.session
      (previousReceipts (·.policyControls) (store.data.nativeConversations.get? host.key))
    rw [hsame]
    exact h.operation operation hmem

theorem RecordingHost.Owns.save (h : host.Owns texts runtime) {moment : Moment}
    {conversation : NativeConversation}
    (hbelongs : NativeConversation.Belongs texts runtime.host conversation host.session) :
    (host.save runtime moment conversation).Owns texts runtime := by
  have hcases := save_cases runtime host.store moment host.key conversation
  rcases hcases with ⟨-, hsame⟩ | ⟨-, hrecord, hvalid, hkey, hcontrols⟩
  · exact h.store _ hsame
  · have hrecord' : (host.save runtime moment conversation).record? = some conversation := hrecord
    refine ⟨h.persisted, fun _ => ?_, h.binding, ?_, ?_, fun operation hmem => ?_⟩
    · rw [hrecord']
      rfl
    · rw [hrecord']
      rintro record ⟨⟩
      exact hbelongs
    · rw [hrecord']
      rintro record ⟨⟩
      exact ⟨hvalid, hkey⟩
    · rw [hrecord']
      change operation.Suits texts runtime.host host.session conversation.policyControls
      rw [← hcontrols]
      exact h.operation operation hmem

theorem RecordingHost.Owns.patch (h : host.Owns texts runtime) {moment : Moment}
    {change : NativeConversation → NativeConversation}
    (hchange : ∀ record, NativeConversation.Belongs texts runtime.host record host.session →
      NativeConversation.Belongs texts runtime.host (change record) host.session) :
    (host.patch runtime moment change).Owns texts runtime := by
  unfold RecordingHost.patch
  split
  · exact h
  · rename_i current hcurrent
    exact h.save (hchange current (h.belongs current hcurrent))

variable {session : OwnedSession}

theorem NativeConversation.Belongs.receipts {record next : NativeConversation} (h : NativeConversation.Belongs texts runtime.host record session)
    (hsame : next = { record with
      feedbackSubmissions := next.feedbackSubmissions, goalControls := next.goalControls,
      policyControls := next.policyControls }) :
    NativeConversation.Belongs texts runtime.host next session := by
  rw [hsame]
  exact ⟨⟨h.described.approvalPolicy, h.described.approvalReviewer, h.described.approvalOptions,
    h.described.bindingHash, h.described.baseHash, h.described.authorityHash,
    h.described.lastSessionId⟩, h.nativeThreadId, h.provider, h.place⟩

/-! ## Persisting the native thread -/

theorem OwnedSession.threadRecord_belongs {now : Int}
    {nativeThreadId : String} {previous : Option NativeConversation}
    (hbinding : session.nativeBindingHash = session.start.bindingHash texts runtime.host) :
    NativeConversation.Belongs texts runtime.host
      (session.threadRecord texts runtime.host now nativeThreadId previous)
      { session with nativeThreadId := some nativeThreadId } where
  described := ⟨rfl, rfl, rfl, hbinding, rfl, rfl, rfl⟩
  nativeThreadId := rfl
  provider := ⟨rfl, rfl⟩
  place := ⟨rfl, rfl⟩

theorem OwnedSession.threadRecord_valid {now : Int}
    {previous : NativeConversation} {schemas : PayloadSchemas} {host : Host}
    (hvalid : previous.valid schemas = true)
    (hbelongs : NativeConversation.Belongs texts host previous session)
    (hbinding : session.nativeBindingHash = session.start.bindingHash texts host) :
    (session.threadRecord texts host now previous.nativeThreadId (some previous)).valid schemas =
      true := by
  unfold NativeConversation.valid at hvalid ⊢
  rw [hbelongs.described.bindingHash, hbelongs.described.baseHash,
    hbelongs.described.authorityHash, hbelongs.described.approvalOptions] at hvalid
  rw [← hbinding] at hvalid
  exact hvalid

theorem OwnedSession.threadRecord_admitted {now : Int} {stored : Nat}
    {previous : NativeConversation} {schemas : PayloadSchemas} {host : Host}
    (hvalid : previous.valid schemas = true)
    (hbelongs : NativeConversation.Belongs texts host previous session)
    (hbinding : session.nativeBindingHash = session.start.bindingHash texts host) :
    saveNativeConversationProblem stored (some previous)
      (session.threadRecord texts host now previous.nativeThreadId (some previous)) = none := by
  have hunique := NativeConversation.valid_unique hvalid
  have hdescribed := hbelongs.described
  unfold saveNativeConversationProblem
  simp only [firstProblem_eq_none, List.forall_mem_cons, refuseIf_eq_none]
  refine ⟨?_, ?_, ?_, ?_, ?_, ?_, ?_, ?_, ?_, ?_, ?_, fun _ h => by cases h⟩
  · exact bne_self_eq_false _
  · exact evidenceProblem_self hunique.goals fun receipt => by simp [goalControlProblem]
  · exact completedUnfenced_self _ _ _
  · exact evidenceProblem_self hunique.feedback fun receipt => by simp [feedbackProblem]
  · exact completedUnfenced_self _ _ _
  · simp [OwnedSession.threadRecord, hdescribed.baseHash]
  · simp [OwnedSession.threadRecord, hdescribed.authorityHash]
  · refine evidenceProblem_self hunique.transitions fun receipt => ?_
    rcases receipt with ⟨id, change, source, target, history, session, phase⟩
    cases phase <;> simp [transitionProblem]
  · exact completedUnfenced_self _ _ _
  · simp [scopeChanged, OwnedSession.threadRecord, hbinding, hdescribed.bindingHash,
      hdescribed.approvalPolicy, hdescribed.approvalReviewer, hbelongs.provider.1,
      hbelongs.provider.2, hbelongs.place.1, hbelongs.place.2]
  · rfl

theorem RecordingHost.Owns.persist (h : host.Owns texts runtime) {now : Int}
    {nativeThreadId : String}
    (hadmits : host.record? = none → host.Recordable texts runtime now nativeThreadId) :
    (host.persistNativeThread texts runtime now nativeThreadId).Owns texts runtime := by
  have hsaved : (host.store.saveNativeConversation runtime ⟨now, true⟩ host.key
      (host.session.threadRecord texts runtime.host now (host.ownThread nativeThreadId)
        host.record?)).failure = none := by
    cases hrecord : host.record? with
    | none =>
      have hfirst := hadmits hrecord
      refine (RunnerStore.saveNativeConversation_eq hfirst.key hfirst.valid rfl ?_).1
      rw [show host.store.data.nativeConversations.get? host.key = none from hrecord]
      unfold saveNativeConversationProblem
      simp only [firstProblem_eq_none, List.forall_mem_cons, refuseIf_eq_none]
      have hroom := hfirst.room
      refine ⟨?_, ?_, ?_, ?_, ?_, ?_, ?_, ?_, ?_, ?_, ?_, fun _ h => by cases h⟩
      all_goals first
        | rfl
        | simp [hroom]
    | some previous =>
      have hbelongs := h.belongs previous hrecord
      have hvalid := h.valid previous hrecord
      have hown : host.ownThread nativeThreadId = previous.nativeThreadId := by
        unfold RecordingHost.ownThread
        rw [hbelongs.nativeThreadId]
        rfl
      rw [hown]
      refine (RunnerStore.saveNativeConversation_eq hvalid.2
        (OwnedSession.threadRecord_valid hvalid.1 hbelongs h.binding) rfl ?_).1
      rw [show host.store.data.nativeConversations.get? host.key = some previous from hrecord]
      exact OwnedSession.threadRecord_admitted hvalid.1 hbelongs h.binding
  have hcases := save_cases runtime host.store ⟨now, true⟩ host.key
    (host.session.threadRecord texts runtime.host now (host.ownThread nativeThreadId) host.record?)
  rcases hcases with ⟨hfailed, -⟩ | ⟨-, hafter, hvalid, hkey, hcontrols⟩
  · exact absurd hsaved hfailed
  have hrecord : (host.persistNativeThread texts runtime now nativeThreadId).record? =
      some (host.session.threadRecord texts runtime.host now (host.ownThread nativeThreadId)
        host.record?) := hafter
  refine ⟨?_, fun _ => ?_, h.binding, ?_, ?_, fun operation hmem => ?_⟩
  · change (host.refused || !Attempt.returned _) = false
    rw [h.persisted, Attempt.returned, hsaved]
    rfl
  · rw [hrecord]
    rfl
  · rw [hrecord]
    rintro record ⟨⟩
    exact OwnedSession.threadRecord_belongs h.binding
  · rw [hrecord]
    rintro record ⟨⟩
    exact ⟨hvalid, hkey⟩
  · rw [hrecord]
    change operation.Suits texts runtime.host { host.session with
      nativeThreadId := some (host.ownThread nativeThreadId) } (previousReceipts _ host.record?)
    have hsuits := h.operation operation hmem
    cases operation with
    | policy plan => exact ⟨hsuits.next, hsuits.target, hsuits.own, hsuits.absent⟩
    | feedback conversation =>
      -- the operation has read the record, so the session has its thread already
      have hthread : host.session.nativeThreadId = some conversation.nativeThreadId :=
        NativeConversation.Belongs.nativeThreadId hsuits
      have hown : some (host.ownThread nativeThreadId) = host.session.nativeThreadId := by
        unfold RecordingHost.ownThread
        rw [hthread]
        rfl
      rw [hown]
      exact hsuits

/-! ## Policy controls -/

theorem RecordingHost.Owns.planPolicy (h : host.Owns texts runtime)
    (commandId requestHash : String) (selection : PolicySelection) :
    (host.planPolicy texts runtime commandId requestHash selection).Owns texts runtime := by
  unfold RecordingHost.planPolicy
  split
  · rename_i conversation hnone hrecord
    split
    · exact h
    · rename_i hunknown
      have habsent : ∀ receipt ∈ conversation.policyControls, receipt.commandId ≠ commandId := by
        intro receipt hmem heq
        exact hunknown (List.any_eq_true.mpr ⟨receipt, hmem, beq_iff_eq.mpr heq⟩)
      refine ⟨h.persisted, h.stored, h.binding, h.belongs, h.valid, ?_⟩
      rintro operation ⟨⟩
      change PolicyPlan.Suits texts runtime.host _ host.session
        (previousReceipts (·.policyControls) host.record?)
      rw [hrecord]
      exact ⟨rfl, rfl, fun receipt hmem heq => absurd heq (habsent receipt hmem),
        fun _ => habsent⟩
  · exact h

theorem RecordingHost.Owns.beginPolicy (h : host.Owns texts runtime) (moment : Moment) :
    (host.beginPolicy runtime moment).Owns texts runtime := by
  unfold RecordingHost.beginPolicy
  split
  · rename_i plan hplan
    have hsuits : plan.Suits texts runtime.host host.session
        (previousReceipts (·.policyControls) host.record?) := h.operation (.policy plan) hplan
    have hrecords : RecordsAfter runtime moment host.store
        (.beginNativePolicyControl host.key plan.receipt) _ :=
      host.store.beginNativePolicyControl_records host.key plan.receipt
    dsimp only
    generalize host.store.beginNativePolicyControl runtime moment host.key plan.receipt = attempt
      at hrecords
    rcases hrecords with ⟨hsame, hsilent⟩ | ⟨hreturned, hsaved⟩
    · have hfailed : attempt.returned = false := by
        cases hfailure : attempt.failure with
        | none =>
          have hsaves := hsilent hfailure
          cases hsaves
        | some failure =>
          unfold Attempt.returned
          rw [hfailure]
          rfl
      rw [hfailed, Bool.or_false]
      have hstore := h.store attempt.state (hsame.conversations host.key)
      exact ⟨hstore.persisted, hstore.stored, hstore.binding, hstore.belongs, hstore.valid,
        fun operation hmem => hstore.operation operation (hplan ▸ hmem)⟩
    · cases hsaved with
      | @controlBegun _ _ previous work stored owner phase owned settled valid reviews
        conversations sameWork =>
        have hprevious : host.record? = some previous := stored
        have hrecord := congrArg (fun d => d.get? host.key) conversations
        rw [Dict.get?_set_self] at hrecord
        have hflag : attempt.returned = true := Option.isNone_iff_eq_none.mpr hreturned
        rw [hflag, Bool.or_true]
        refine ⟨h.persisted, fun _ => ?_, h.binding, fun record hget => ?_, fun record hget => ?_,
          fun operation hmem => ?_⟩
        · change (attempt.state.data.nativeConversations.get? host.key).isSome = true
          rw [hrecord]
          rfl
        · cases hrecord.symm.trans hget
          exact (h.belongs previous hprevious).receipts rfl
        · cases hrecord.symm.trans hget
          exact ⟨valid, (h.valid previous hprevious).2⟩
        · cases hmem
          change PolicyPlan.Suits texts runtime.host _ host.session (previousReceipts _
            (attempt.state.data.nativeConversations.get? host.key))
          rw [hprevious] at hsuits
          rw [hrecord]
          refine ⟨hsuits.next, hsuits.target, fun receipt hmem heq => ?_, fun h => nomatch h⟩
          rcases List.mem_append.mp hmem with hold | hnew
          · exact hsuits.own receipt hold heq
          · rw [List.mem_singleton.mp hnew]
            exact ⟨rfl, rfl⟩
  · exact h

theorem RecordingHost.Owns.commitPolicy (h : host.Owns texts runtime) (moment : Moment)
    (result : ConversationResult) (event : HarnessEvent) :
    (host.commitPolicy runtime moment result event).Owns texts runtime := by
  unfold RecordingHost.commitPolicy
  split
  · rename_i plan hplan
    split
    · have hsuits : plan.Suits texts runtime.host host.session
          (previousReceipts (·.policyControls) host.record?) := h.operation (.policy plan) hplan
      have hrecords : RecordsAfter runtime moment host.store (.completeNativePolicyControl host.key
          host.session.start.payload.sessionId plan.receipt.commandId result event) _ :=
        host.store.completeNativePolicyControl_records host.key
          host.session.start.payload.sessionId plan.receipt.commandId result event
      dsimp only
      generalize host.store.completeNativePolicyControl runtime moment host.key
        host.session.start.payload.sessionId plan.receipt.commandId result event = attempt
        at hrecords
      rcases hrecords with ⟨hsame, hsilent⟩ | ⟨hreturned, hsaved⟩
      · have hfailed : ¬attempt.returned = true := by
          intro hreturned
          have hsaves := hsilent (Option.isNone_iff_eq_none.mp hreturned)
          cases hsaves
        rw [if_neg hfailed]
        exact h.store attempt.state (hsame.conversations host.key)
      · have hflag : attempt.returned = true := Option.isNone_iff_eq_none.mpr hreturned
        rw [if_pos hflag]
        cases hsaved with
        | @controlCompleted _ _ _ _ _ previous work receipt stored owner confirmable valid validWork
          reviews conversations nextWork =>
          have hprevious : host.record? = some previous := stored
          have hrecord := congrArg (fun d => d.get? host.key) conversations
          rw [Dict.get?_set_self] at hrecord
          have hfound : receipt ∈ previous.policyControls ∧
              receipt.commandId = plan.receipt.commandId := by
            unfold confirmableControl at confirmable
            have hfind := (Option.filter_eq_some_iff.mp confirmable).1
            have hcommand := List.find?_some hfind
            exact ⟨List.mem_of_find?_eq_some hfind, eq_of_beq hcommand⟩
          rw [hprevious] at hsuits
          rcases hsuits.own receipt hfound.1 hfound.2 with ⟨hselection, htarget⟩
          have hbelongs := h.belongs previous hprevious
          have hdescribed := hbelongs.described
          have hnext := hsuits.next
          refine ⟨h.persisted, fun _ => ?_, hsuits.target, fun record hget => ?_,
            fun record hget => ?_, fun operation hmem => nomatch hmem⟩
          · change (attempt.state.data.nativeConversations.get? host.key).isSome = true
            rw [hrecord]
            rfl
          · cases hrecord.symm.trans hget
            change NativeConversation.Belongs texts runtime.host _
              { host.session with
                start := plan.next, nativeBindingHash := plan.receipt.targetBindingHash }
            refine ⟨⟨?_, ?_, ?_, ?_, ?_, ?_, ?_⟩, hbelongs.nativeThreadId, ?_, ?_⟩
            · rw [hnext, ← hselection]
              rfl
            · rw [hnext, ← hselection]
              rfl
            · rw [hnext]
              exact hdescribed.approvalOptions
            · exact htarget.trans hsuits.target
            · rw [hnext]
              exact hdescribed.baseHash
            · rw [hnext]
              exact hdescribed.authorityHash
            · rw [hnext]
              exact hdescribed.lastSessionId
            · rw [hnext]
              exact hbelongs.provider
            · rw [hnext]
              exact hbelongs.place
          · cases hrecord.symm.trans hget
            exact ⟨valid, (h.valid previous hprevious).2⟩
    · exact h
  · exact h

/-! ## The step -/

theorem RecordingHost.Owns.step (h : host.Owns texts runtime) (action : RecordingAction)
    (hadmits : host.Admits texts runtime action) :
    (host.step texts runtime action).Owns texts runtime := by
  cases action with
  | persistNativeThread now nativeThreadId => exact h.persist hadmits
  | readForFeedback =>
    unfold RecordingHost.step
    dsimp only
    split
    · rename_i conversation hnone hrecord
      refine ⟨h.persisted, h.stored, h.binding, h.belongs, h.valid, ?_⟩
      rintro operation ⟨⟩
      exact h.belongs conversation hrecord
    · exact h
  | submitFeedback moment receipt =>
    unfold RecordingHost.step
    dsimp only
    split
    · rename_i conversation hread
      have hbelongs : NativeConversation.Belongs texts runtime.host conversation host.session :=
        h.operation (.feedback conversation) hread
      exact h.save (hbelongs.receipts rfl)
    · exact h
  | completeFeedback moment commandId result => exact h.patch fun record h => h.receipts rfl
  | beginGoal moment receipt => exact h.patch fun record h => h.receipts rfl
  | completeGoal moment commandId result => exact h.patch fun record h => h.receipts rfl
  | planPolicy commandId requestHash selection => exact h.planPolicy commandId requestHash selection
  | beginPolicy moment => exact h.beginPolicy moment
  | commitPolicy moment result event => exact h.commitPolicy moment result event
  | operationOver =>
    exact ⟨h.persisted, h.stored, h.binding, h.belongs, h.valid, fun operation hmem => nomatch hmem⟩
  | other moment action =>
    unfold RecordingHost.step
    dsimp only
    split
    · exact h
    · rename_i hother
      exact h.store _ (perform_conversation hother)

/-! ## The start -/

section Start

variable {manager : Manager} {start : SessionStart} {moment : Moment} {answers : StartAnswers}
  {store after : RunnerStore} {session : OwnedSession} {key : String}

theorem SessionStart.binding_belongs {now : Int} {retained : Option NativeConversation}
    {nativeThreadId : String}
    (hoptions : start.payload.approvalOptions = none → ∀ old ∈ retained, old.approvalOptions = none)
    (hreviewer : start.payload.approvalReviewer = none →
      ∀ old ∈ retained, old.approvalReviewer ≠ some .nativeAuto) :
    NativeConversation.Belongs texts runtime.host
      (start.binding texts runtime.host now retained nativeThreadId)
      ⟨start, some nativeThreadId, start.bindingHash texts runtime.host⟩ where
  described := by
    refine ⟨rfl, ?_, ?_, rfl, rfl, rfl, rfl⟩
    · change (start.payload.approvalReviewer.or
        (retained.getD NativeConversation.blank).approvalReviewer).getD .user =
          start.payload.approvalReviewer.getD .user
      cases hgiven : start.payload.approvalReviewer with
      | some reviewer => rfl
      | none =>
        cases retained with
        | none => rfl
        | some old =>
          have hold := hreviewer hgiven old rfl
          rw [Option.none_or]
          change old.approvalReviewer.getD .user = .user
          cases hreviewed : old.approvalReviewer with
          | none => rfl
          | some reviewer =>
            cases reviewer with
            | user => rfl
            | nativeAuto => exact absurd hreviewed hold
    · change start.payload.approvalOptions.or (retained.getD NativeConversation.blank).approvalOptions =
        start.payload.approvalOptions
      cases hgiven : start.payload.approvalOptions with
      | some options => rfl
      | none =>
        cases retained with
        | none => rfl
        | some old => exact hoptions hgiven old rfl
  nativeThreadId := rfl
  provider := ⟨rfl, rfl⟩
  place := ⟨rfl, rfl⟩

theorem RecordingHost.Owns.opened (hkey : start.payload.continuationGroupKey = some key)
    (hrestates : start.Restates store)
    (h : start.prepare texts manager moment answers store = (after, .ok session)) :
    (RecordingHost.opened key session after).Owns texts manager.runtime := by
  rcases SessionStart.prepare_ok h with ⟨before, retained, fenced, opened, haccepted⟩
  rcases SessionStart.retained_ok haccepted.choosing with ⟨hbefore, hcontinues, -⟩
  rcases SessionStart.record_ok hkey haccepted.recording with ⟨rfl, hrecorded⟩
  -- approval fields of the confirmed record are those of the stored one
  have hold : ∀ old ∈ start.confirmed retained, ∃ stored ∈ start.stored? store,
      start.payload.continueSession = true ∧ old.approvalOptions = stored.approvalOptions ∧
        old.approvalReviewer = stored.approvalReviewer := by
    intro old hmem
    rcases SessionStart.confirmed_some hmem with ⟨kept, transitions, rfl, rfl⟩
    rcases SessionStart.fence_ok haccepted.fencing with ⟨-, hnone, -⟩ | ⟨stored, fences, rfl, heq⟩
    · cases hnone
    · cases heq
      exact ⟨stored, hbefore.symm, hcontinues.symm, rfl, rfl⟩
  rcases hrecorded with ⟨hlater, rfl⟩ | ⟨honce, id, hid, hsaved, rfl⟩
  · have hnone : retained = none := by
      cases retained with
      | none => rfl
      | some old => simp [SessionStart.recordsAtOnce] at hlater
    rw [hnone] at haccepted hlater
    rcases SessionStart.fence_ok haccepted.fencing with ⟨rfl, -, rfl⟩ | ⟨_, _, _, heq⟩
    · have hrecord : after.data.nativeConversations.get? key = none := by
        rw [SessionStart.openWork_conversations key haccepted.opening]
        unfold SessionStart.stored? at hbefore
        rw [hkey] at hbefore
        exact hbefore.symm
      refine ⟨rfl, fun hsaved => ?_, rfl, fun record hget => ?_, fun record hget => ?_,
        fun operation hmem => nomatch hmem⟩
      · have hnew : start.payload.continueSession = false := hcontinues.symm
        simp only [SessionStart.recordsAtOnce, Bool.or_eq_false_iff] at hlater
        change (start.adapter.emptyConversation || start.profile?.any (·.emptyConversation) ||
          start.payload.continueSession) = true at hsaved
        rw [hlater.1.1.1, hlater.1.1.2, hnew] at hsaved
        cases hsaved
      · cases hrecord.symm.trans hget
      · cases hrecord.symm.trans hget
    · cases heq
  · have hcases := save_cases manager.runtime opened moment key
      (start.binding texts manager.runtime.host moment.now (start.confirmed retained) id)
    rcases hcases with ⟨hfailed, -⟩ | ⟨-, hrecord, hvalid, hkeyed, -⟩
    · exact absurd hsaved hfailed
    have hbelongs : NativeConversation.Belongs texts manager.runtime.host
        (start.binding texts manager.runtime.host moment.now (start.confirmed retained) id)
        ⟨start, some id, start.bindingHash texts manager.runtime.host⟩ := by
      apply SessionStart.binding_belongs
      · intro hgiven old hmem
        rcases hold old hmem with ⟨stored, hstored, hcontinue, hoptions, -⟩
        rw [hoptions]
        exact (hrestates hcontinue stored hstored).1 hgiven
      · intro hgiven old hmem
        rcases hold old hmem with ⟨stored, hstored, hcontinue, -, hreviewer⟩
        rw [hreviewer]
        exact (hrestates hcontinue stored hstored).2 hgiven
    refine ⟨rfl, fun _ => ?_, rfl, fun record hget => ?_, fun record hget => ?_,
      fun operation hmem => nomatch hmem⟩
    · exact Option.isSome_iff_exists.mpr ⟨_, hrecord⟩
    · cases hrecord.symm.trans hget
      dsimp only at hid
      unfold RecordingHost.opened
      rw [hid]
      exact hbelongs
    · cases hrecord.symm.trans hget
      exact ⟨hvalid, hkeyed⟩

end Start

end Invariant

/-- A session that was started without leaving out what the record has can always record its
conversation. -/
theorem recording_lawful (texts : ConfigurationTexts) (manager : Manager) (start : SessionStart)
    (moment : Moment) (answers : StartAnswers) (store after : RunnerStore) (session : OwnedSession)
    (key : String) (hkey : start.payload.continuationGroupKey = some key)
    (hstart : start.prepare texts manager moment answers store = (after, .ok session))
    (hrestates : start.Restates store) (actions : List RecordingAction)
    (hadmits : Meets (RecordingHost.step texts manager.runtime)
      (RecordingHost.Admits texts manager.runtime) (RecordingHost.opened key session after) actions) :
    Always (RecordingHost.step texts manager.runtime)
      (RecordingHost.Lawful texts manager.runtime) (RecordingHost.opened key session after)
      actions := by
  have howns := always_of_meets (I := RecordingHost.Owns texts manager.runtime)
    (fun host action h hstep => h.step action hstep)
    (RecordingHost.Owns.opened hkey hrestates hstart) hadmits
  exact howns.mono fun host h => h.lawful

/-! ## Two starts of one conversation -/

/-- Bindings differ here in the reviewer alone. -/
def recordingTexts : ConfigurationTexts where
  binding scope := if scope.nativeReview then "native_auto" else "user"
  configuration _ := "configuration"

def recordingManager : Manager where
  runtime := { plainRuntime with host := { plainHost with
    sha256 := fun text => if text = "native_auto" then otherHash else emptyHash
    sha256_hex := by
      intro text
      split
      · decide
      · decide } }
  workspaces := [⟨"workspace-1", "/workspace"⟩]
  inside _ _ := .ok true
  providers := [⟨"provider-1", "driver", true, emptyHash⟩]
  adapter? _ := none
  sessions := Dict.empty

def recordingAdapter : Adapter where
  conversationOperations := [.read]
  liveHistoryRead := true
  executionProfiles := [{
    id := "isolated"
    nativeWorkFork := false
    nativeGoals := false
    nativeFeedback := none
    nativePolicyControl := false
    idleConfigurationTransition := true }]
  forkNativeWork := false
  cancelNativeWork := false
  controlNativeGoal := false
  submitNativeFeedback := false
  updateNativePolicy := false
  emptyConversation := true

def reviewedStart : SessionStart where
  payload := { plainStart with
    continuationGroupKey := some "key-1"
    cwd := "/workspace"
    approvalPolicy := .autoEdits
    approvalReviewer := some .nativeAuto }
  provider := ⟨"provider-1", "driver", true, emptyHash⟩
  adapter := recordingAdapter
  toolsets := .arr .nil
  inheritance := none
  refusal := none

def reviewedAnswers : StartAnswers where
  sourceHistory := none
  nativeThreadId := some "thread-1"
  policyReadback := some ⟨.autoEdits, some .nativeAuto, none, "isolated", none, none⟩
  catalogConfirmed := false
  verifiedHistory := none

def reviewedStarted : RunnerStore × Except OperationFailure OwnedSession :=
  reviewedStart.prepare recordingTexts recordingManager ⟨0, true⟩ reviewedAnswers RunnerStore.fresh

theorem recording_lawful_reviewed :
    ∃ after session, reviewedStarted = (after, .ok session) ∧
      Always (RecordingHost.step recordingTexts recordingManager.runtime)
        (RecordingHost.Lawful recordingTexts recordingManager.runtime)
        (RecordingHost.opened "key-1" session after) [.persistNativeThread 1 "thread-1"] := by
  have hstored : (match reviewedStarted with
    | (after, .ok session) => (RecordingHost.opened "key-1" session after).record?.isSome
    | _ => false) = true := by decide +kernel
  cases hstart : reviewedStarted with
  | mk after result =>
    rw [hstart] at hstored
    cases result with
    | error failure => cases hstored
    | ok session =>
      refine ⟨after, session, rfl, ?_⟩
      apply recording_lawful recordingTexts recordingManager reviewedStart ⟨0, true⟩
        reviewedAnswers RunnerStore.fresh after session "key-1" rfl hstart
      · intro hcontinue
        cases hcontinue
      · refine ⟨fun hnone => ?_, trivial⟩
        dsimp only at hstored
        rw [hnone] at hstored
        cases hstored

/-- The session is over. -/
def exitedStore : RunnerStore :=
  (reviewedStarted.1.appendEvent recordingManager.runtime.options ⟨1, true⟩
    ⟨"session-1", none, 1, "session.exited", 1, .obj .nil⟩).state

/-- The conversation goes on under another policy; the start gives no reviewer. -/
def changedStart : SessionStart := { reviewedStart with
  payload := { reviewedStart.payload with
    sessionId := "session-2"
    continueSession := true
    conversationTransition := some ⟨"transition-1", emptyHash, none⟩
    approvalPolicy := .ask
    approvalReviewer := none } }

def changedAnswers : StartAnswers where
  sourceHistory := some emptyHash
  nativeThreadId := some "thread-1"
  policyReadback := some ⟨.ask, none, none, "isolated", none, none⟩
  catalogConfirmed := false
  verifiedHistory := some emptyHash

/-- The session is started, and cannot record its own native thread. -/
theorem reviewer_left_out :
    ∃ after session, changedStart.prepare recordingTexts recordingManager ⟨2, true⟩ changedAnswers
        exitedStore = (after, .ok session) ∧
      ¬Always (RecordingHost.step recordingTexts recordingManager.runtime)
        (RecordingHost.Lawful recordingTexts recordingManager.runtime)
        (RecordingHost.opened "key-1" session after) [.persistNativeThread 3 "thread-1"] := by
  have hrefused : (match changedStart.prepare recordingTexts recordingManager ⟨2, true⟩
      changedAnswers exitedStore with
    | (after, .ok session) => (run (RecordingHost.step recordingTexts recordingManager.runtime)
      (RecordingHost.opened "key-1" session after) [.persistNativeThread 3 "thread-1"]).refused
    | _ => false) = true := by decide +kernel
  generalize changedStart.prepare recordingTexts recordingManager ⟨2, true⟩ changedAnswers
    exitedStore = started at hrefused
  rcases started with ⟨after, failure | session⟩
  · cases hrefused
  · refine ⟨after, session, rfl, fun h => ?_⟩
    have hpersisted := h.last.persisted
    dsimp only at hrefused
    rw [hrefused] at hpersisted
    cases hpersisted

end HarnessControl.Harnesses
