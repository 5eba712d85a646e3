import HarnessControl.State.Machine

/-!
# Stored receipts

Every call of the store may drop receipts that have expired, and one call for each kind writes a
receipt; nothing else happens to them, in memory or in the file.
-/

namespace HarnessControl.State

open HarnessControl.Library HarnessControl.Protocol

def StoreOptions.cutoff (options : StoreOptions) (now : Int) : Int :=
  now - options.receiptRetentionMs

/-- Unexpired receipts survive, except the one that is written. -/
def ReceiptsKept (options : StoreOptions) (now : Int) (except : Option String)
    (before after : RunnerStateData) : Prop :=
  ∀ commandId receipt, except ≠ some commandId →
    before.commandReceipts.get? commandId = some receipt →
    options.cutoff now ≤ receipt.settledAt →
    after.commandReceipts.get? commandId = some receipt

/-- What a call does to the receipts in memory, and that the file follows the memory. -/
structure ReceiptFrame (options : StoreOptions) (now : Int) (except : Option String)
    (store after : RunnerStore) : Prop where
  memory : ReceiptsKept options now except store.data after.data
  file : after.disk = store.disk ∨ after.disk = some after.data

variable {runtime : Runtime} {options : StoreOptions} {now : Int} {except : Option String}
  {store : RunnerStore}

variable {before after : RunnerStateData}

theorem ReceiptsKept.of_eq (h : after.commandReceipts = before.commandReceipts) :
    ReceiptsKept options now except before after := by
  intro commandId receipt _ hget _
  rw [h]
  exact hget

theorem ReceiptsKept.prune (h : ReceiptsKept options now except before after) :
    ReceiptsKept options now except before (after.prune options now) := by
  intro commandId receipt hne hget hfresh
  change (after.commandReceipts.filter _).get? commandId = some receipt
  rw [Dict.get?_filter, h commandId receipt hne hget hfresh]
  exact Option.filter_some_pos (decide_eq_true hfresh)

theorem ReceiptFrame.refl : ReceiptFrame options now except store store :=
  ⟨ReceiptsKept.of_eq rfl, Or.inl rfl⟩

theorem RunnerStore.attempt_receipts {written : Bool}
    {change : RunnerStateData × Option StoreFailure} {rollback : RunnerStateData → RunnerStateData}
    (hchange : ReceiptsKept options now except store.data change.1)
    (hrollback : ReceiptsKept options now except store.data (rollback change.1)) :
    ReceiptFrame options now except store (store.attempt written change rollback).state := by
  refine ⟨?_, store.attempt_disk written change rollback⟩
  rcases store.attempt_cases written change rollback with ⟨-, -, h⟩ | ⟨-, h⟩
  · rw [h]
    exact hchange
  · rw [h]
    exact hrollback

theorem OnlyEvents.receipts (h : OnlyEvents before after) :
    after.commandReceipts = before.commandReceipts := by
  rcases h with ⟨events, exits, rfl⟩
  rfl

theorem OnlyEvents.localActionReceipts
    (h : OnlyEvents before after) : after.localActionReceipts = before.localActionReceipts := by
  rcases h with ⟨events, exits, rfl⟩
  rfl

/-! ## Calls that leave every receipt alone -/

def StoreAction.handlesReceipts : StoreAction → Bool
  | .getReceipt | .setCommandReceipt _ _ | .setLocalActionReceipt _ _ => true
  | _ => false

/-- Both kinds of receipts are as they were, and the file follows the memory. -/
structure ReceiptsUntouched (store after : RunnerStore) : Prop where
  commands : after.data.commandReceipts = store.data.commandReceipts
  localActions : after.data.localActionReceipts = store.data.localActionReceipts
  file : after.disk = store.disk ∨ after.disk = some after.data

theorem ReceiptsUntouched.refl : ReceiptsUntouched store store := ⟨rfl, rfl, Or.inl rfl⟩

theorem ReceiptsUntouched.attempt {written : Bool} {base : RunnerStateData}
    {change : RunnerStateData × Option StoreFailure} {rollback : RunnerStateData → RunnerStateData}
    (hchange : OnlyEvents base change.1)
    (hcommands : base.commandReceipts = store.data.commandReceipts)
    (hlocal : base.localActionReceipts = store.data.localActionReceipts)
    (hrollback : (rollback change.1).commandReceipts = change.1.commandReceipts)
    (hrollbackLocal :
      (rollback change.1).localActionReceipts = change.1.localActionReceipts) :
    ReceiptsUntouched store (store.attempt written change rollback).state := by
  have hcommandsAfter := hchange.receipts.trans hcommands
  have hlocalAfter := hchange.localActionReceipts.trans hlocal
  have hfile := store.attempt_disk written change rollback
  rcases store.attempt_cases written change rollback with ⟨-, -, h⟩ | ⟨-, h⟩
  · rw [h] at hfile ⊢
    exact ⟨hcommandsAfter, hlocalAfter, hfile⟩
  · rw [h] at hfile ⊢
    exact ⟨hrollback.trans hcommandsAfter, hrollbackLocal.trans hlocalAfter, hfile⟩

theorem OnlyEvents.refl (data : RunnerStateData) : OnlyEvents data data :=
  ⟨data.events, data.exitedSessions, rfl⟩

theorem RunnerStore.perform_untouched (moment : Moment) (action : StoreAction)
    (h : action.handlesReceipts = false) :
    ReceiptsUntouched store (store.perform runtime moment action).state := by
  cases action with
  | appendEvent event =>
    exact ReceiptsUntouched.attempt (store.data.append_only runtime.options event) rfl rfl rfl rfl
  | saveMcpReview review event =>
    change ReceiptsUntouched store (store.saveMcpReview runtime moment review event).state
    unfold RunnerStore.saveMcpReview
    split
    · exact ReceiptsUntouched.refl
    · split
      · exact ReceiptsUntouched.refl
      · exact ReceiptsUntouched.attempt
          (RunnerStateData.appendOptional_only runtime event _) rfl rfl rfl rfl
  | clearMcpReview sessionId requestId events =>
    change ReceiptsUntouched store
      (store.clearMcpReview runtime moment sessionId requestId events).state
    unfold RunnerStore.clearMcpReview
    split
    · have hcleanup := store.data.appendCleanup_only runtime sessionId events
      generalize store.data.appendCleanup runtime sessionId events = cleaned at hcleanup
      rcases cleaned with ⟨data, failure⟩
      cases failure with
      | none =>
        exact ReceiptsUntouched.attempt (OnlyEvents.refl _) hcleanup.receipts
          hcleanup.localActionReceipts rfl rfl
      | some failure => exact ReceiptsUntouched.attempt hcleanup rfl rfl rfl rfl
    · exact ReceiptsUntouched.refl
  | saveNativeConversation key conversation =>
    change ReceiptsUntouched store
      (store.saveNativeConversation runtime moment key conversation).state
    unfold RunnerStore.saveNativeConversation
    split
    · exact ReceiptsUntouched.refl
    · split
      · exact ReceiptsUntouched.refl
      · dsimp only
        split
        · exact ReceiptsUntouched.refl
        · exact ReceiptsUntouched.attempt (OnlyEvents.refl _) rfl rfl rfl rfl
  | retireNativeConversation key =>
    change ReceiptsUntouched store (store.retireNativeConversation moment key).state
    unfold RunnerStore.retireNativeConversation
    dsimp only
    split
    · exact ReceiptsUntouched.refl
    · apply ReceiptsUntouched.attempt (OnlyEvents.refl _) rfl rfl
      · split <;> rfl
      · split <;> rfl
  | saveNativeWorkState sessionId state event =>
    change ReceiptsUntouched store
      (store.saveNativeWorkState runtime moment sessionId state event).state
    unfold RunnerStore.saveNativeWorkState
    split
    · exact ReceiptsUntouched.refl
    · split
      · exact ReceiptsUntouched.refl
      · split
        · exact ReceiptsUntouched.refl
        · exact ReceiptsUntouched.attempt
            (RunnerStateData.appendOptional_only runtime event _) rfl rfl rfl rfl
  | removeEmptyNativeWorkState sessionId =>
    change ReceiptsUntouched store
      (store.removeEmptyNativeWorkState moment sessionId).state
    unfold RunnerStore.removeEmptyNativeWorkState
    split
    · exact ReceiptsUntouched.refl
    · split
      · exact ReceiptsUntouched.attempt (OnlyEvents.refl _) rfl rfl rfl rfl
      · exact ReceiptsUntouched.refl
  | beginNativePolicyControl key receipt =>
    change ReceiptsUntouched store
      (store.beginNativePolicyControl runtime moment key receipt).state
    unfold RunnerStore.beginNativePolicyControl
    dsimp only
    repeat' split
    all_goals first
      | exact ReceiptsUntouched.refl
      | exact ReceiptsUntouched.attempt (OnlyEvents.refl _) rfl rfl rfl rfl
  | completeNativePolicyControl key sessionId commandId result event =>
    change ReceiptsUntouched store
      (store.completeNativePolicyControl runtime moment key sessionId commandId result
        event).state
    unfold RunnerStore.completeNativePolicyControl
    split
    · exact ReceiptsUntouched.refl
    · dsimp only
      split
      · exact ReceiptsUntouched.refl
      · split
        · exact ReceiptsUntouched.refl
        · exact ReceiptsUntouched.attempt
            (RunnerStateData.appendOptional_only runtime event _) rfl rfl rfl rfl
  | getReceipt => cases h
  | setCommandReceipt commandId receipt => cases h
  | setLocalActionReceipt requestId receipt => cases h

/-! ## Command receipts -/

def StoreAction.receiptId? : StoreAction → Option String
  | .setCommandReceipt commandId _ => some commandId
  | _ => none

theorem RunnerStore.setCommandReceipt_receipts (moment : Moment) (commandId : String)
    (receipt : CommandReceipt) :
    ReceiptFrame options moment.now (some commandId) store
      (store.setCommandReceipt options moment commandId receipt).state := by
  have hkept : ReceiptsKept options moment.now (some commandId) store.data
      { store.data with commandReceipts := store.data.commandReceipts.set commandId receipt } := by
    intro other found hne hget _
    have hother : other ≠ commandId := fun h => hne (h ▸ rfl)
    exact (Dict.get?_set_of_ne _ _ hother).trans hget
  exact RunnerStore.attempt_receipts hkept.prune hkept.prune

theorem RunnerStore.pruneReceipts_receipts (moment : Moment) :
    ReceiptFrame options moment.now except store (store.pruneReceipts options moment).state := by
  unfold RunnerStore.pruneReceipts
  dsimp only
  split
  · exact ReceiptFrame.refl
  · have hpruned : ReceiptsKept options moment.now except store.data
        (store.data.prune options moment.now) := (ReceiptsKept.of_eq rfl).prune
    exact RunnerStore.attempt_receipts hpruned hpruned

theorem RunnerStore.perform_receipts (moment : Moment) (action : StoreAction) :
    ReceiptFrame runtime.options moment.now action.receiptId? store
      (store.perform runtime moment action).state := by
  cases hhandles : action.handlesReceipts with
  | false =>
    have huntouched : ReceiptsUntouched store (store.perform runtime moment action).state :=
      RunnerStore.perform_untouched moment action hhandles
    exact ⟨ReceiptsKept.of_eq huntouched.commands, huntouched.file⟩
  | true =>
    cases action with
    | getReceipt => exact RunnerStore.pruneReceipts_receipts moment
    | setCommandReceipt commandId receipt =>
      exact RunnerStore.setCommandReceipt_receipts moment commandId receipt
    | setLocalActionReceipt requestId receipt =>
      have hkept : ReceiptsKept runtime.options moment.now none store.data
          { store.data with
            localActionReceipts := store.data.localActionReceipts.set requestId receipt } :=
        ReceiptsKept.of_eq rfl
      exact RunnerStore.attempt_receipts hkept.prune hkept.prune
    | _ => cases hhandles

/-! ## Local action receipts -/

def LocalReceiptKept (options : StoreOptions) (now : Int) (requestId : String)
    (before after : RunnerStateData) : Prop :=
  ∀ receipt, before.localActionReceipts.get? requestId = some receipt →
    options.cutoff now ≤ receipt.settledAt →
    after.localActionReceipts.get? requestId = some receipt

theorem LocalReceiptKept.of_eq {requestId : String}
    (h : after.localActionReceipts.get? requestId = before.localActionReceipts.get? requestId) :
    LocalReceiptKept options now requestId before after := by
  intro receipt hget _
  rw [h]
  exact hget

theorem LocalReceiptKept.prune {requestId : String}
    (h : LocalReceiptKept options now requestId before after) :
    LocalReceiptKept options now requestId before (after.prune options now) := by
  intro receipt hget hfresh
  change (after.localActionReceipts.filter _).get? requestId = some receipt
  rw [Dict.get?_filter, h receipt hget hfresh]
  exact Option.filter_some_pos (decide_eq_true hfresh)

theorem RunnerStore.write_data (moment : Moment) (data : RunnerStateData) :
    (store.write moment data).state.data = data := by
  unfold RunnerStore.write
  rcases store.attempt_cases moment.written (data, none) id with ⟨-, -, h⟩ | ⟨-, h⟩
  · rw [h]
  · rw [h]
    rfl

theorem RunnerStore.pruneReceipts_data (moment : Moment) :
    (store.pruneReceipts options moment).state.data = store.data.prune options moment.now := by
  unfold RunnerStore.pruneReceipts
  dsimp only
  split
  · rename_i hsame
    exact hsame.symm
  · exact RunnerStore.write_data moment _

theorem RunnerStore.perform_localReceipt (moment : Moment) (action : StoreAction)
    (requestId : String)
    (hother : ∀ receipt, action ≠ .setLocalActionReceipt requestId receipt) :
    LocalReceiptKept runtime.options moment.now requestId store.data
      (store.perform runtime moment action).state.data := by
  cases hhandles : action.handlesReceipts with
  | false =>
    have huntouched : ReceiptsUntouched store (store.perform runtime moment action).state :=
      RunnerStore.perform_untouched moment action hhandles
    exact LocalReceiptKept.of_eq (by rw [huntouched.localActions])
  | true =>
    cases action with
    | getReceipt =>
      change LocalReceiptKept _ _ _ _ (store.pruneReceipts runtime.options moment).state.data
      rw [RunnerStore.pruneReceipts_data]
      exact (LocalReceiptKept.of_eq rfl).prune
    | setCommandReceipt commandId receipt =>
      change LocalReceiptKept _ _ _ _ (store.write moment _).state.data
      rw [RunnerStore.write_data]
      exact (LocalReceiptKept.of_eq rfl).prune
    | setLocalActionReceipt written receipt =>
      change LocalReceiptKept _ _ _ _ (store.write moment _).state.data
      rw [RunnerStore.write_data]
      apply LocalReceiptKept.prune
      apply LocalReceiptKept.of_eq
      have hne : requestId ≠ written := fun h => hother receipt (h ▸ rfl)
      exact Dict.get?_set_of_ne _ _ hne
    | _ => cases hhandles

end HarnessControl.State
