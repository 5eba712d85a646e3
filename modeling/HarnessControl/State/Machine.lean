import HarnessControl.Library.Transition
import HarnessControl.State.PolicyControl

/-!
# The store as a machine

Calls of the store and restarts of the JSON store, in any order and with any arguments.  The run
also remembers the events that calls have committed, in the order of their commitment.
-/

namespace HarnessControl.State

open HarnessControl.Library HarnessControl.Protocol

inductive StoreAction where
  | appendEvent (event : HarnessEvent)
  | saveMcpReview (review : McpReview) (event : Option HarnessEvent)
  | clearMcpReview (sessionId requestId : String) (events : List HarnessEvent)
  | saveNativeConversation (key : String) (conversation : NativeConversation)
  | retireNativeConversation (key : String)
  | saveNativeWorkState (sessionId : String) (state : NativeWorkState)
    (event : Option HarnessEvent)
  | removeEmptyNativeWorkState (sessionId : String)
  | beginNativePolicyControl (key : String) (receipt : PolicyControlReceipt)
  | completeNativePolicyControl (key sessionId commandId : String) (result : ConversationResult)
    (event : Option HarnessEvent)
  /-- `getCommandReceipt` or `getLocalActionReceipt`. -/
  | getReceipt
  | setCommandReceipt (commandId : String) (receipt : CommandReceipt)
  | setLocalActionReceipt (requestId : String) (receipt : LocalActionReceipt)

def RunnerStore.perform (runtime : Runtime) (moment : Moment) (store : RunnerStore) :
    StoreAction → Attempt RunnerStore
  | .appendEvent event => store.appendEvent runtime.options moment event
  | .saveMcpReview review event => store.saveMcpReview runtime moment review event
  | .clearMcpReview sessionId requestId events =>
    store.clearMcpReview runtime moment sessionId requestId events
  | .saveNativeConversation key conversation =>
    store.saveNativeConversation runtime moment key conversation
  | .retireNativeConversation key => store.retireNativeConversation moment key
  | .saveNativeWorkState sessionId state event =>
    store.saveNativeWorkState runtime moment sessionId state event
  | .removeEmptyNativeWorkState sessionId => store.removeEmptyNativeWorkState moment sessionId
  | .beginNativePolicyControl key receipt =>
    store.beginNativePolicyControl runtime moment key receipt
  | .completeNativePolicyControl key sessionId commandId result event =>
    store.completeNativePolicyControl runtime moment key sessionId commandId result event
  | .getReceipt => store.pruneReceipts runtime.options moment
  | .setCommandReceipt commandId receipt =>
    store.setCommandReceipt runtime.options moment commandId receipt
  | .setLocalActionReceipt requestId receipt =>
    store.setLocalActionReceipt runtime.options moment requestId receipt

def StoreAction.events : StoreAction → List HarnessEvent
  | .appendEvent event => [event]
  | .saveMcpReview _ event => event.toList
  | .clearMcpReview _ _ events => events
  | .saveNativeWorkState _ _ event => event.toList
  | .completeNativePolicyControl _ _ _ _ event => event.toList
  | _ => []

structure StoreRun where
  store : RunnerStore
  committed : List HarnessEvent

inductive StoreStep where
  | call (moment : Moment) (action : StoreAction)
  /-- The process ends, and a new one opens the state file. -/
  | restart (now : Int)

/-- One step; where the constructor throws on the file, no store is opened. -/
def StoreRun.step (runtime : Runtime) (run : StoreRun) : StoreStep → StoreRun
  | .call moment action =>
    let attempt := run.store.perform runtime moment action
    { store := attempt.state
      committed :=
        if attempt.returned then run.committed ++ action.events else run.committed }
  | .restart now =>
    match run.store.reopen runtime now with
    | none => run
    | some store => { run with store }

def StoreRun.fresh : StoreRun := ⟨RunnerStore.fresh, []⟩

theorem StoreRun.committed_step (run : StoreRun) (runtime : Runtime) (step : StoreStep) :
    ∃ more, (run.step runtime step).committed = run.committed ++ more := by
  cases step with
  | call moment action =>
    unfold StoreRun.step
    dsimp only
    split
    · exact ⟨_, rfl⟩
    · exact ⟨[], (List.append_nil _).symm⟩
  | restart now =>
    unfold StoreRun.step
    dsimp only
    split
    · exact ⟨[], (List.append_nil _).symm⟩
    · exact ⟨[], (List.append_nil _).symm⟩

/-! ## Disk and memory -/

theorem RunnerStore.attempt_disk (store : RunnerStore) (written : Bool)
    (change : RunnerStateData × Option StoreFailure)
    (rollback : RunnerStateData → RunnerStateData) :
    (store.attempt written change rollback).state.disk = store.disk ∨
      (store.attempt written change rollback).state.disk =
        some (store.attempt written change rollback).state.data := by
  rcases store.attempt_cases written change rollback with ⟨-, -, h⟩ | ⟨-, h⟩
  · rw [h]
    exact Or.inr rfl
  · rw [h]
    exact Or.inl rfl

/-! ## Effects on events -/

/-- The events are appended one by one, each with the next sequence of its session. -/
def Appended (retention : Nat) :
    List HarnessEvent → Dict String (List HarnessEvent) → Dict String (List HarnessEvent) → Prop
  | [], before, after => after = before
  | event :: rest, before, after =>
    let events := (before.get? event.sessionId).getD []
    event.sequence = events.getLast?.elim 0 HarnessEvent.sequence + 1 ∧
      Appended retention rest
        (before.set event.sessionId (shiftTo retention (events ++ [event]))) after

/-- What a call does to the events in memory and in the file. -/
structure EventEffect (options : StoreOptions) (store : RunnerStore) (events : List HarnessEvent)
    (attempt : Attempt RunnerStore) : Prop where
  threw : attempt.failure ≠ none →
    attempt.state.data.events = store.data.events ∧ attempt.state.disk = store.disk
  returned : attempt.failure = none →
    Appended options.eventRetentionPerSession events store.data.events attempt.state.data.events ∧
      (attempt.state.disk = some attempt.state.data ∨
        attempt.state = store ∧ events = [])

theorem RunnerStore.refuse_effect (options : StoreOptions) (store : RunnerStore)
    (failure : StoreFailure) (events : List HarnessEvent) :
    EventEffect options store events (store.refuse failure) :=
  ⟨fun _ => ⟨rfl, rfl⟩, fun h => nomatch h⟩

theorem RunnerStore.return_effect (options : StoreOptions) (store : RunnerStore) :
    EventEffect options store [] ⟨store, none⟩ :=
  ⟨fun h => absurd rfl h, fun _ => ⟨rfl, Or.inr ⟨rfl, rfl⟩⟩⟩

theorem RunnerStore.attempt_effect {options : StoreOptions} {store : RunnerStore} {written : Bool}
    {change : RunnerStateData × Option StoreFailure} {rollback : RunnerStateData → RunnerStateData}
    {events : List HarnessEvent} (hrollback : (rollback change.1).events = store.data.events)
    (hchange : change.2 = none →
      Appended options.eventRetentionPerSession events store.data.events change.1.events) :
    EventEffect options store events (store.attempt written change rollback) := by
  rcases store.attempt_cases written change rollback with ⟨hnone, -, h⟩ | ⟨hfail, h⟩
  · rw [h]
    exact ⟨fun hne => absurd rfl hne, fun _ => ⟨hchange hnone, Or.inl rfl⟩⟩
  · constructor
    · intro _
      rw [h]
      exact ⟨hrollback, rfl⟩
    · intro hnone
      exact absurd hnone hfail

theorem RunnerStateData.append_events (options : StoreOptions) (event : HarnessEvent)
    (data : RunnerStateData) :
    (data.append options event).1.events = data.events ∧
        (data.append options event).2 ≠ none ∨
      (data.append options event).2 = none ∧
        event.sequence = data.nextEventSequence event.sessionId ∧
        (data.append options event).1.events =
          data.events.set event.sessionId
            (shiftTo options.eventRetentionPerSession
              (data.sessionEvents event.sessionId ++ [event])) := by
  unfold RunnerStateData.append
  by_cases h : event.sequence = data.nextEventSequence event.sessionId
  · right
    simp only [ne_eq, h, not_true_eq_false, if_false]
    exact ⟨trivial, trivial, trivial⟩
  · left
    simp only [ne_eq, h, not_false_eq_true, if_true]
    exact ⟨trivial, by simp⟩

variable {data : RunnerStateData}

theorem RunnerStateData.append_appended {options : StoreOptions} {event : HarnessEvent} (h : (data.append options event).2 = none) :
    Appended options.eventRetentionPerSession [event] data.events
      (data.append options event).1.events := by
  rcases data.append_events options event with ⟨-, hne⟩ | ⟨-, hseq, hevents⟩
  · exact absurd h hne
  · exact ⟨hseq, hevents⟩

theorem RunnerStateData.appendParsed_events (runtime : Runtime) (event : HarnessEvent)
    (data : RunnerStateData) :
    (data.appendParsed runtime event).1.events = data.events ∨
      ∃ events, (data.appendParsed runtime event).1.events =
        data.events.set event.sessionId events := by
  unfold RunnerStateData.appendParsed
  split
  · rcases data.append_events runtime.options event with ⟨h, -⟩ | ⟨-, -, h⟩
    · exact Or.inl h
    · exact Or.inr ⟨_, h⟩
  · exact Or.inl rfl

theorem RunnerStateData.appendParsed_appended {runtime : Runtime} {event : HarnessEvent} (h : (data.appendParsed runtime event).2 = none) :
    Appended runtime.options.eventRetentionPerSession [event] data.events
      (data.appendParsed runtime event).1.events := by
  unfold RunnerStateData.appendParsed at h ⊢
  split at h
  · rename_i hvalid
    rw [if_pos hvalid]
    exact append_appended h
  · cases h

theorem RunnerStateData.appendOptional_appended {runtime : Runtime} {event : Option HarnessEvent} (h : (data.appendOptional runtime event).2 = none) :
    Appended runtime.options.eventRetentionPerSession event.toList data.events
      (data.appendOptional runtime event).1.events := by
  cases event with
  | none => rfl
  | some event => exact appendParsed_appended h

/-! ## Appending touches events and exit markers only -/

/-- The data differs from other data in its events and exit markers only. -/
def OnlyEvents (before after : RunnerStateData) : Prop :=
  ∃ events exitedSessions, after = { before with events, exitedSessions }

theorem RunnerStateData.append_only (options : StoreOptions) (event : HarnessEvent)
    (data : RunnerStateData) : OnlyEvents data (data.append options event).1 := by
  unfold RunnerStateData.append
  dsimp only
  split
  · exact ⟨data.events, data.exitedSessions, rfl⟩
  · exact ⟨_, _, rfl⟩

theorem RunnerStateData.appendParsed_only (runtime : Runtime) (event : HarnessEvent)
    (data : RunnerStateData) : OnlyEvents data (data.appendParsed runtime event).1 := by
  unfold RunnerStateData.appendParsed
  split
  · exact data.append_only runtime.options event
  · exact ⟨data.events, data.exitedSessions, rfl⟩

theorem RunnerStateData.appendOptional_only (runtime : Runtime) (event : Option HarnessEvent)
    (data : RunnerStateData) : OnlyEvents data (data.appendOptional runtime event).1 := by
  cases event with
  | none => exact ⟨data.events, data.exitedSessions, rfl⟩
  | some event => exact data.appendParsed_only runtime event

theorem RunnerStateData.appendCleanup_only (runtime : Runtime) (sessionId : String)
    (events : List HarnessEvent) (data : RunnerStateData) :
    OnlyEvents data (data.appendCleanup runtime sessionId events).1 := by
  induction events generalizing data with
  | nil => exact ⟨data.events, data.exitedSessions, rfl⟩
  | cons event rest ih =>
    unfold RunnerStateData.appendCleanup
    split
    · exact ⟨data.events, data.exitedSessions, rfl⟩
    · have hone := data.appendParsed_only runtime event
      cases hresult : data.appendParsed runtime event with
      | mk next failure =>
        rw [hresult] at hone
        cases failure with
        | some failure => exact hone
        | none =>
          rcases hone with ⟨events, exits, rfl⟩
          rcases ih { data with events := events, exitedSessions := exits } with
            ⟨later, marks, hlater⟩
          exact ⟨later, marks, hlater⟩

theorem RunnerStateData.appendOptional_restore (runtime : Runtime) {event : Option HarnessEvent}
    {data : RunnerStateData} {events : Dict String (List HarnessEvent)} {sessionId : String}
    (hdata : data.events = events) (hsession : ∀ e ∈ event, e.sessionId = sessionId) :
    (data.appendOptional runtime event).1.events.restore sessionId (events.get? sessionId) =
      events := by
  subst hdata
  cases event with
  | none => exact Dict.restore_get? data.events sessionId
  | some event =>
    have hid := hsession event rfl
    subst hid
    unfold RunnerStateData.appendOptional
    rcases data.appendParsed_events runtime event with h | ⟨events, h⟩
    · rw [h]
      exact Dict.restore_get? data.events event.sessionId
    · rw [h]
      exact Dict.restore_set data.events event.sessionId events

end HarnessControl.State
