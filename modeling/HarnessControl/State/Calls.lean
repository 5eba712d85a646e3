import HarnessControl.State.Machine

/-!
# What a call does to the records

A call that throws leaves every review, conversation and work state as it was.  A call that returns
changes at most the record that it names, and only after all its checks have passed.
-/

namespace HarnessControl.State

open HarnessControl.Library HarnessControl.Protocol

structure SameRecords (before after : RunnerStateData) : Prop where
  reviews : ∀ sessionId, after.mcpReviews.get? sessionId = before.mcpReviews.get? sessionId
  conversations : ∀ key, after.nativeConversations.get? key = before.nativeConversations.get? key
  work : ∀ sessionId, after.nativeWork.get? sessionId = before.nativeWork.get? sessionId

theorem SameRecords.refl (data : RunnerStateData) : SameRecords data data :=
  ⟨fun _ => rfl, fun _ => rfl, fun _ => rfl⟩

variable {before after : RunnerStateData}

theorem OnlyEvents.reviews (h : OnlyEvents before after) :
    after.mcpReviews = before.mcpReviews := by
  rcases h with ⟨events, exits, rfl⟩
  rfl

theorem OnlyEvents.conversations (h : OnlyEvents before after) :
    after.nativeConversations = before.nativeConversations := by
  rcases h with ⟨events, exits, rfl⟩
  rfl

theorem OnlyEvents.work (h : OnlyEvents before after) :
    after.nativeWork = before.nativeWork := by
  rcases h with ⟨events, exits, rfl⟩
  rfl

/-- The records after a call that returned, with the checks that it has passed. -/
inductive RecordsSaved (runtime : Runtime) (moment : Moment) (store : RunnerStore)
    (after : RunnerStateData) : StoreAction → Prop where
  | review {input review : McpReview} {event : Option HarnessEvent}
    (parsed : (mcpReviewSchema runtime.host runtime.schemas).parse input = some review)
    (admitted : saveMcpReviewProblem runtime moment store review event = none)
    (reviews : after.mcpReviews = store.data.mcpReviews.set review.start.sessionId review)
    (conversations : after.nativeConversations = store.data.nativeConversations)
    (work : after.nativeWork = store.data.nativeWork) :
    RecordsSaved runtime moment store after (.saveMcpReview input event)
  | cleared {sessionId requestId : String} {events : List HarnessEvent}
    (matched : ∃ review, store.data.mcpReviews.get? sessionId = some review ∧
      review.requestId = requestId)
    (reviews : after.mcpReviews = store.data.mcpReviews.erase sessionId)
    (conversations : after.nativeConversations = store.data.nativeConversations)
    (work : after.nativeWork = store.data.nativeWork) :
    RecordsSaved runtime moment store after (.clearMcpReview sessionId requestId events)
  | conversation {key : String} {conversation : NativeConversation}
    (valid : conversation.valid runtime.schemas = true)
    (admitted : saveNativeConversationProblem store.data.nativeConversations.size
      (store.data.nativeConversations.get? key) conversation = none)
    (reviews : after.mcpReviews = store.data.mcpReviews)
    (conversations :
      after.nativeConversations = store.data.nativeConversations.set key conversation)
    (work : after.nativeWork = store.data.nativeWork) :
    RecordsSaved runtime moment store after (.saveNativeConversation key conversation)
  | retired {key : String} (reviews : after.mcpReviews = store.data.mcpReviews)
    (conversations : after.nativeConversations = store.data.nativeConversations.erase key)
    (work : after.nativeWork = store.data.nativeWork) :
    RecordsSaved runtime moment store after (.retireNativeConversation key)
  | work {sessionId : String} {input state : NativeWorkState} {event : Option HarnessEvent}
    (parsed : (nativeWorkStateSchema runtime.schemas).parse input = some state)
    (admitted : saveNativeWorkStateProblem store.data.nativeWork.size
      (store.data.nativeWork.get? sessionId) state = none)
    (reviews : after.mcpReviews = store.data.mcpReviews)
    (conversations : after.nativeConversations = store.data.nativeConversations)
    (work : after.nativeWork = store.data.nativeWork.set sessionId state) :
    RecordsSaved runtime moment store after (.saveNativeWorkState sessionId input event)
  | workRemoved {sessionId : String} {previous : NativeWorkState}
    (stored : store.data.nativeWork.get? sessionId = some previous)
    (removable : previous.removable = true) (reviews : after.mcpReviews = store.data.mcpReviews)
    (conversations : after.nativeConversations = store.data.nativeConversations)
    (work : after.nativeWork = store.data.nativeWork.erase sessionId) :
    RecordsSaved runtime moment store after (.removeEmptyNativeWorkState sessionId)
  | controlBegun {key : String} {receipt : PolicyControlReceipt}
    {previous : NativeConversation} {work : NativeWorkState}
    (stored : store.data.nativeConversations.get? key = some previous)
    (owner : store.data.nativeWork.get? receipt.sourceSessionId = some work)
    (phase : receipt.phase = .pending) (owned : receipt.owned key previous work = true)
    (settled : previous.uncertain = false)
    (valid : NativeConversation.valid runtime.schemas { previous with
      policyControls := previous.policyControls ++
        [{ receipt with executionInventoryHash := some (inventoryHash runtime.host work) }] } = true)
    (reviews : after.mcpReviews = store.data.mcpReviews)
    (conversations : after.nativeConversations = store.data.nativeConversations.set key
      { previous with
        policyControls := previous.policyControls ++
          [{ receipt with executionInventoryHash := some (inventoryHash runtime.host work) }] })
    (sameWork : after.nativeWork = store.data.nativeWork) :
    RecordsSaved runtime moment store after (.beginNativePolicyControl key receipt)
  | controlCompleted {key sessionId commandId : String} {result : ConversationResult}
    {event : Option HarnessEvent} {previous : NativeConversation} {work : NativeWorkState}
    {receipt : PolicyControlReceipt}
    (stored : store.data.nativeConversations.get? key = some previous)
    (owner : store.data.nativeWork.get? sessionId = some work)
    (confirmable : confirmableControl runtime store.data key sessionId commandId previous work =
      some receipt)
    (valid : NativeConversation.valid runtime.schemas (previous.rebound moment.now receipt
      { receipt with phase := .completed, result := some result }) = true)
    (validWork : NativeWorkState.valid runtime.schemas
      (work.rebound receipt.targetBindingHash) = true)
    (reviews : after.mcpReviews = store.data.mcpReviews)
    (conversations : after.nativeConversations = store.data.nativeConversations.set key
      (previous.rebound moment.now receipt
        { receipt with phase := .completed, result := some result }))
    (nextWork : after.nativeWork = store.data.nativeWork.set sessionId
      (work.rebound receipt.targetBindingHash)) :
    RecordsSaved runtime moment store after
      (.completeNativePolicyControl key sessionId commandId result event)

/-- A call that saves or removes a record whenever it returns. -/
def StoreAction.saves : StoreAction → Bool
  | .saveMcpReview _ _ | .clearMcpReview _ _ _ | .saveNativeConversation _ _
  | .retireNativeConversation _ | .saveNativeWorkState _ _ _ | .beginNativePolicyControl _ _
  | .completeNativePolicyControl _ _ _ _ _ => true
  | _ => false

/-- The records are the same, or the call returned and has saved one. -/
def RecordsAfter (runtime : Runtime) (moment : Moment) (store : RunnerStore) (action : StoreAction)
    (attempt : Attempt RunnerStore) : Prop :=
  SameRecords store.data attempt.state.data ∧ (attempt.failure = none → action.saves = false) ∨
    attempt.failure = none ∧ RecordsSaved runtime moment store attempt.state.data action

variable {runtime : Runtime} {moment : Moment} {store : RunnerStore} {action : StoreAction}

theorem RecordsAfter.refuse (failure : StoreFailure) :
    RecordsAfter runtime moment store action (store.refuse failure) :=
  Or.inl ⟨SameRecords.refl store.data, fun h => nomatch h⟩

theorem RecordsAfter.nothing (h : action.saves = false) :
    RecordsAfter runtime moment store action ⟨store, none⟩ :=
  Or.inl ⟨SameRecords.refl store.data, fun _ => h⟩

theorem RecordsAfter.attempt {written : Bool} {change : RunnerStateData × Option StoreFailure}
    {rollback : RunnerStateData → RunnerStateData}
    (hrollback : SameRecords store.data (rollback change.1))
    (hchange : change.2 = none → RecordsSaved runtime moment store change.1 action) :
    RecordsAfter runtime moment store action (store.attempt written change rollback) := by
  rcases store.attempt_cases written change rollback with ⟨hnone, -, h⟩ | ⟨hfailure, h⟩
  · right
    rw [h]
    exact ⟨rfl, hchange hnone⟩
  · left
    refine ⟨?_, fun hnone => absurd hnone hfailure⟩
    rw [h]
    exact hrollback

theorem RecordsAfter.silent {written : Bool} {change : RunnerStateData × Option StoreFailure}
    {rollback : RunnerStateData → RunnerStateData} (hsilent : action.saves = false) (hchange : SameRecords store.data change.1)
    (hrollback : SameRecords store.data (rollback change.1)) :
    RecordsAfter runtime moment store action (store.attempt written change rollback) := by
  left
  refine ⟨?_, fun _ => hsilent⟩
  rcases store.attempt_cases written change rollback with ⟨-, -, h⟩ | ⟨-, h⟩
  · rw [h]
    exact hchange
  · rw [h]
    exact hrollback

theorem OnlyEvents.sameRecords (h : OnlyEvents before after) :
    SameRecords before after := by
  rcases h with ⟨events, exits, rfl⟩
  exact ⟨fun _ => rfl, fun _ => rfl, fun _ => rfl⟩

theorem restored {α : Type} {before changed : Dict String α} {key : String}
    (h : ∀ other, other ≠ key → changed.get? other = before.get? other) (other : String) :
    (changed.restore key (before.get? key)).get? other = before.get? other := by
  rw [Dict.get?_restore]
  by_cases heq : other = key
  · rw [if_pos heq, heq]
  · rw [if_neg heq]
    exact h other heq

theorem set_others {α : Type} (d : Dict String α) (key : String) (value : α) :
    ∀ other, other ≠ key → (d.set key value).get? other = d.get? other :=
  fun _ hne => Dict.get?_set_of_ne d value hne

theorem RunnerStore.saveMcpReview_records (input : McpReview) (event : Option HarnessEvent) :
    RecordsAfter runtime moment store (.saveMcpReview input event)
      (store.saveMcpReview runtime moment input event) := by
  unfold RunnerStore.saveMcpReview
  split
  · exact RecordsAfter.refuse _
  · rename_i review hparse
    split
    · exact RecordsAfter.refuse _
    · rename_i hadmitted
      have honly := RunnerStateData.appendOptional_only runtime event
        { store.data with
          mcpReviews := store.data.mcpReviews.set review.start.sessionId review }
      apply RecordsAfter.attempt
      · refine ⟨restored ?_, fun key => ?_, fun sessionId => ?_⟩
        · rw [honly.reviews]
          exact set_others _ _ _
        · exact congrArg (Dict.get? · key) honly.conversations
        · exact congrArg (Dict.get? · sessionId) honly.work
      · intro _
        exact .review hparse hadmitted honly.reviews honly.conversations honly.work

theorem RunnerStore.clearMcpReview_records (sessionId requestId : String)
    (events : List HarnessEvent) :
    RecordsAfter runtime moment store (.clearMcpReview sessionId requestId events)
      (store.clearMcpReview runtime moment sessionId requestId events) := by
  unfold RunnerStore.clearMcpReview
  split
  · rename_i hmatches
    rcases (Option.any_eq_true _ _).mp hmatches with ⟨review, hreview, hid⟩
    have honly := store.data.appendCleanup_only runtime sessionId events
    generalize store.data.appendCleanup runtime sessionId events = cleaned at honly
    rcases cleaned with ⟨data, failure⟩
    cases failure with
    | some failure =>
      apply RecordsAfter.attempt
      · refine ⟨restored fun other _ => ?_, fun key => ?_, fun sessionId => ?_⟩
        · exact congrArg (Dict.get? · other) honly.reviews
        · exact congrArg (Dict.get? · key) honly.conversations
        · exact congrArg (Dict.get? · sessionId) honly.work
      · intro h
        cases h
    | none =>
      have hreviews : data.mcpReviews = store.data.mcpReviews := honly.reviews
      apply RecordsAfter.attempt
      · refine ⟨restored fun other hne => ?_, fun key => ?_, fun sessionId => ?_⟩
        · change (data.mcpReviews.erase sessionId).get? other = _
          rw [hreviews]
          exact Dict.get?_erase_of_ne _ hne
        · exact congrArg (Dict.get? · key) honly.conversations
        · exact congrArg (Dict.get? · sessionId) honly.work
      · intro _
        exact .cleared ⟨review, hreview, by simpa using hid⟩
          (congrArg (Dict.erase · sessionId) hreviews) honly.conversations honly.work
  · exact RecordsAfter.refuse _

theorem RunnerStore.saveNativeConversation_records (key : String)
    (conversation : NativeConversation) :
    RecordsAfter runtime moment store (.saveNativeConversation key conversation)
      (store.saveNativeConversation runtime moment key conversation) := by
  unfold RunnerStore.saveNativeConversation
  split
  · exact RecordsAfter.refuse _
  · split
    · exact RecordsAfter.refuse _
    · rename_i parsed hparse
      have hvalid := Schema.refine_parse hparse
      rcases hvalid with ⟨rfl, hvalid⟩
      dsimp only
      split
      · exact RecordsAfter.refuse _
      · rename_i hadmitted
        apply RecordsAfter.attempt
        · exact ⟨fun _ => rfl, restored (set_others _ _ _), fun _ => rfl⟩
        · intro _
          exact .conversation hvalid hadmitted rfl rfl rfl

theorem RunnerStore.retireNativeConversation_records (key : String) :
    RecordsAfter runtime moment store (.retireNativeConversation key)
      (store.retireNativeConversation moment key) := by
  unfold RunnerStore.retireNativeConversation
  dsimp only
  split
  · exact RecordsAfter.refuse _
  · apply RecordsAfter.attempt
    · cases hprior : store.data.nativeConversations.get? key with
      | none =>
        refine ⟨fun _ => rfl, fun other => ?_, fun _ => rfl⟩
        by_cases heq : other = key
        · rw [heq, hprior]
          exact Dict.get?_erase_self _ key
        · exact Dict.get?_erase_of_ne _ heq
      | some prior =>
        refine ⟨fun _ => rfl, fun other => ?_, fun _ => rfl⟩
        change ((store.data.nativeConversations.erase key).restore key (some prior)).get? other = _
        rw [← hprior]
        exact restored (fun _ hne => Dict.get?_erase_of_ne _ hne) other
    · intro _
      exact .retired rfl rfl rfl

theorem RunnerStore.saveNativeWorkState_records (sessionId : String) (input : NativeWorkState)
    (event : Option HarnessEvent) :
    RecordsAfter runtime moment store (.saveNativeWorkState sessionId input event)
      (store.saveNativeWorkState runtime moment sessionId input event) := by
  unfold RunnerStore.saveNativeWorkState
  split
  · exact RecordsAfter.refuse _
  · rename_i state hparse
    split
    · exact RecordsAfter.refuse _
    · rename_i hadmitted
      split
      · exact RecordsAfter.refuse _
      · have honly := RunnerStateData.appendOptional_only runtime event
          { store.data with nativeWork := store.data.nativeWork.set sessionId state }
        apply RecordsAfter.attempt
        · refine ⟨fun other => ?_, fun key => ?_, restored ?_⟩
          · exact congrArg (Dict.get? · other) honly.reviews
          · exact congrArg (Dict.get? · key) honly.conversations
          · rw [honly.work]
            exact set_others _ _ _
        · intro _
          exact .work hparse hadmitted honly.reviews honly.conversations honly.work

theorem RunnerStore.removeEmptyNativeWorkState_records (sessionId : String) :
    RecordsAfter runtime moment store (.removeEmptyNativeWorkState sessionId)
      (store.removeEmptyNativeWorkState moment sessionId) := by
  unfold RunnerStore.removeEmptyNativeWorkState
  split
  · exact RecordsAfter.nothing rfl
  · rename_i previous hprevious
    split
    · rename_i hremovable
      apply RecordsAfter.attempt
      · refine ⟨fun _ => rfl, fun _ => rfl, fun other => ?_⟩
        change ((store.data.nativeWork.erase sessionId).restore sessionId (some previous)).get?
          other = _
        rw [← hprevious]
        exact restored (fun _ hne => Dict.get?_erase_of_ne _ hne) other
      · intro _
        exact .workRemoved hprevious hremovable rfl rfl rfl
    · exact RecordsAfter.nothing rfl

theorem set_back {α : Type} {d : Dict String α} {key : String} {previous value : α}
    (h : d.get? key = some previous) (other : String) :
    ((d.set key value).set key previous).get? other = d.get? other := by
  rw [Dict.set_set, Dict.set_get? h]

theorem RunnerStore.beginNativePolicyControl_records (key : String)
    (receipt : PolicyControlReceipt) :
    RecordsAfter runtime moment store (.beginNativePolicyControl key receipt)
      (store.beginNativePolicyControl runtime moment key receipt) := by
  unfold RunnerStore.beginNativePolicyControl
  dsimp only
  split
  · exact RecordsAfter.refuse _
  · split
    · rename_i previous work hprevious hwork
      split
      · exact RecordsAfter.refuse _
      · rename_i howned
        split
        · exact RecordsAfter.refuse _
        · rename_i hsettled
          split
          · exact RecordsAfter.refuse _
          · split
            · rename_i hvalid
              simp only [not_or, not_not, Bool.not_eq_true'] at howned
              simp only [Bool.or_eq_true, not_or, Bool.not_eq_true] at hsettled
              apply RecordsAfter.attempt
              · exact ⟨fun _ => rfl, set_back hprevious, fun _ => rfl⟩
              · intro _
                exact .controlBegun hprevious hwork howned.1 (by simpa using howned.2) hsettled.2
                  hvalid rfl rfl rfl
            · exact RecordsAfter.refuse _
    · exact RecordsAfter.refuse _

theorem RunnerStore.completeNativePolicyControl_records (key sessionId commandId : String)
    (result : ConversationResult) (event : Option HarnessEvent) :
    RecordsAfter runtime moment store
      (.completeNativePolicyControl key sessionId commandId result event)
      (store.completeNativePolicyControl runtime moment key sessionId commandId result event) := by
  unfold RunnerStore.completeNativePolicyControl
  split
  · exact RecordsAfter.refuse _
  · rename_i previous work receipt hfound
    simp only [Option.bind_eq_bind, Option.bind_eq_some_iff, Option.pure_def, Option.some.injEq,
      Prod.mk.injEq] at hfound
    rcases hfound with ⟨found, hprevious, owner, hwork, control, hcontrol, rfl, rfl, rfl⟩
    dsimp only
    split
    · exact RecordsAfter.refuse _
    · rename_i hvalid
      simp only [Bool.not_eq_true', Bool.not_eq_false, Bool.and_eq_true] at hvalid
      split
      · exact RecordsAfter.refuse _
      · have honly := RunnerStateData.appendOptional_only runtime event
          { store.data with
            nativeConversations := store.data.nativeConversations.set key
              (found.rebound moment.now control
                { control with phase := .completed, result := some result })
            nativeWork := store.data.nativeWork.set sessionId
              (owner.rebound control.targetBindingHash) }
        apply RecordsAfter.attempt
        · refine ⟨fun other => ?_, fun other => ?_, fun other => ?_⟩
          · exact congrArg (Dict.get? · other) honly.reviews
          · dsimp only
            rw [honly.conversations]
            exact set_back hprevious other
          · dsimp only
            rw [honly.work]
            exact set_back hwork other
        · intro _
          exact .controlCompleted hprevious hwork hcontrol hvalid.2 hvalid.1.2 honly.reviews
            honly.conversations honly.work

theorem RunnerStore.perform_records (action : StoreAction) :
    RecordsAfter runtime moment store action (store.perform runtime moment action) := by
  cases action with
  | appendEvent event =>
    have hsame := (store.data.append_only runtime.options event).sameRecords
    exact RecordsAfter.silent rfl hsame ⟨hsame.reviews, hsame.conversations, hsame.work⟩
  | saveMcpReview review event => exact store.saveMcpReview_records review event
  | clearMcpReview sessionId requestId events =>
    exact store.clearMcpReview_records sessionId requestId events
  | saveNativeConversation key conversation =>
    exact store.saveNativeConversation_records key conversation
  | retireNativeConversation key => exact store.retireNativeConversation_records key
  | saveNativeWorkState sessionId state event =>
    exact store.saveNativeWorkState_records sessionId state event
  | removeEmptyNativeWorkState sessionId =>
    exact store.removeEmptyNativeWorkState_records sessionId
  | beginNativePolicyControl key receipt =>
    exact store.beginNativePolicyControl_records key receipt
  | completeNativePolicyControl key sessionId commandId result event =>
    exact store.completeNativePolicyControl_records key sessionId commandId result event
  | getReceipt =>
    change RecordsAfter _ _ _ _ (store.pruneReceipts runtime.options moment)
    unfold RunnerStore.pruneReceipts
    dsimp only
    split
    · exact RecordsAfter.nothing rfl
    · apply RecordsAfter.silent rfl <;> exact ⟨fun _ => rfl, fun _ => rfl, fun _ => rfl⟩
  | setCommandReceipt commandId receipt =>
    apply RecordsAfter.silent rfl <;> exact ⟨fun _ => rfl, fun _ => rfl, fun _ => rfl⟩
  | setLocalActionReceipt requestId receipt =>
    apply RecordsAfter.silent rfl <;> exact ⟨fun _ => rfl, fun _ => rfl, fun _ => rfl⟩

end HarnessControl.State
