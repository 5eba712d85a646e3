import HarnessControl.State.Calls
import HarnessControl.State.CommandReceipts
import HarnessControl.State.EventRetention

/-!
# Calls that throw

Every operation writes its own rollback.  Together they bring back everything except receipts, which
are written without a rollback, and the exit marker of an event that comes with a work state.
-/

namespace HarnessControl.State

open HarnessControl.Library HarnessControl.Protocol

/-- The whole data, as `isDeepStrictEqual` compares it: the order of keys does not count. -/
structure SameData (before after : RunnerStateData) : Prop extends SameRecords before after where
  events : ∀ sessionId, after.events.get? sessionId = before.events.get? sessionId
  commandReceipts : ∀ commandId,
    after.commandReceipts.get? commandId = before.commandReceipts.get? commandId
  localActionReceipts : ∀ requestId,
    after.localActionReceipts.get? requestId = before.localActionReceipts.get? requestId
  exits : ∀ sessionId,
    after.exitedSessions.get? sessionId = before.exitedSessions.get? sessionId

/-- The part of the data that some rollback forgets. -/
structure SameMarks (before after : RunnerStateData) : Prop where
  commandReceipts : ∀ commandId,
    after.commandReceipts.get? commandId = before.commandReceipts.get? commandId
  localActionReceipts : ∀ requestId,
    after.localActionReceipts.get? requestId = before.localActionReceipts.get? requestId
  exits : ∀ sessionId,
    after.exitedSessions.get? sessionId = before.exitedSessions.get? sessionId

/-! ## When a rollback is complete -/

/-- The event passes its checks and marks its session as exited. -/
def RunnerStateData.marksExit (runtime : Runtime) (data : RunnerStateData)
    (event : HarnessEvent) : Bool :=
  event.valid runtime.schemas && event.sequence == data.nextEventSequence event.sessionId &&
  event.eventType == "session.exited"

/-- The work state passes the checks of `saveNativeWorkState`. -/
def RunnerStateData.admitsWork (runtime : Runtime) (data : RunnerStateData) (sessionId : String)
    (input : NativeWorkState) : Bool :=
  ((nativeWorkStateSchema runtime.schemas).parse input).any fun state =>
    (saveNativeWorkStateProblem data.nativeWork.size (data.nativeWork.get? sessionId) state).isNone

/-- No receipt has expired. -/
structure Unexpired (options : StoreOptions) (now : Int) (data : RunnerStateData)
    (exceptCommand exceptRequest : Option String) : Prop where
  commands : ∀ commandId receipt, exceptCommand ≠ some commandId →
    data.commandReceipts.get? commandId = some receipt → options.cutoff now ≤ receipt.settledAt
  requests : ∀ requestId receipt, exceptRequest ≠ some requestId →
    data.localActionReceipts.get? requestId = some receipt → options.cutoff now ≤ receipt.settledAt

/-- A failed write leaves nothing of the call behind. -/
def StoreAction.undone (runtime : Runtime) (now : Int) (data : RunnerStateData) :
    StoreAction → Prop
  | .saveNativeWorkState sessionId input event =>
    ∀ exit ∈ event, exit.sessionId = sessionId → data.marksExit runtime exit = true →
      data.admitsWork runtime sessionId input = true →
        data.exitedSessions.get? sessionId = some ()
  | .getReceipt => Unexpired runtime.options now data none none
  | .setCommandReceipt commandId receipt =>
    Unexpired runtime.options now data (some commandId) none ∧
      data.commandReceipts.get? commandId =
        if runtime.options.cutoff now ≤ receipt.settledAt then some receipt else none
  | .setLocalActionReceipt requestId receipt =>
    Unexpired runtime.options now data none (some requestId) ∧
      data.localActionReceipts.get? requestId =
        if runtime.options.cutoff now ≤ receipt.settledAt then some receipt else none
  | _ => True

/-! ## Exit markers -/

variable {runtime : Runtime} {moment : Moment} {store : RunnerStore}

theorem RunnerStateData.append_exits (options : StoreOptions) (event : HarnessEvent)
    (data : RunnerStateData) :
    (data.append options event).1.exitedSessions =
      if event.sequence = data.nextEventSequence event.sessionId ∧
          event.eventType = "session.exited" then data.exitedSessions.set event.sessionId ()
      else data.exitedSessions := by
  unfold RunnerStateData.append
  by_cases hsequence : event.sequence = data.nextEventSequence event.sessionId
  · simp only [hsequence, ne_eq, not_true_eq_false, if_false, true_and]
  · simp only [hsequence, ne_eq, not_false_eq_true, if_true, false_and, if_false]

theorem RunnerStateData.appendParsed_exits (runtime : Runtime) (event : HarnessEvent)
    (data : RunnerStateData) :
    (data.appendParsed runtime event).1.exitedSessions =
      if data.marksExit runtime event then data.exitedSessions.set event.sessionId ()
      else data.exitedSessions := by
  unfold RunnerStateData.appendParsed RunnerStateData.marksExit
  cases hvalid : event.valid runtime.schemas with
  | false => rfl
  | true =>
    rw [if_pos rfl, RunnerStateData.append_exits]
    simp only [Bool.true_and, Bool.and_eq_true, beq_iff_eq]

theorem RunnerStateData.appendOptional_exits (runtime : Runtime) {event : Option HarnessEvent}
    {sessionId : String} (hsession : ∀ e ∈ event, e.sessionId = sessionId) (data : RunnerStateData) :
    ∀ other, other ≠ sessionId → (data.appendOptional runtime event).1.exitedSessions.get? other =
      data.exitedSessions.get? other := by
  intro other hne
  cases event with
  | none => rfl
  | some event =>
    have hid := hsession event rfl
    change (data.appendParsed runtime event).1.exitedSessions.get? other = _
    rw [RunnerStateData.appendParsed_exits]
    split
    · exact Dict.get?_set_of_ne _ _ (hid ▸ hne)
    · rfl

theorem RunnerStateData.appendCleanup_exits (runtime : Runtime) (sessionId : String)
    (events : List HarnessEvent) (data : RunnerStateData) :
    ∀ other, other ≠ sessionId →
      (data.appendCleanup runtime sessionId events).1.exitedSessions.get? other =
        data.exitedSessions.get? other := by
  induction events generalizing data with
  | nil => exact fun _ _ => rfl
  | cons event rest ih =>
    intro other hne
    unfold RunnerStateData.appendCleanup
    split
    · rfl
    · rename_i hsession
      have hid : ∀ e ∈ some event, e.sessionId = sessionId := by
        intro e he
        cases he
        exact not_not.mp hsession
      have hone : (data.appendParsed runtime event).1.exitedSessions.get? other = _ :=
        RunnerStateData.appendOptional_exits runtime hid data other hne
      cases hresult : data.appendParsed runtime event with
      | mk next failure =>
        rw [hresult] at hone
        cases failure with
        | some failure => exact hone
        | none => exact (ih next other hne).trans hone

/-! ## Complete rollbacks -/

theorem OnlyEvents.requests {before after : RunnerStateData} (h : OnlyEvents before after) :
    after.localActionReceipts = before.localActionReceipts := by
  rcases h with ⟨events, exits, rfl⟩
  rfl

theorem SameMarks.refl (data : RunnerStateData) : SameMarks data data :=
  ⟨fun _ => rfl, fun _ => rfl, fun _ => rfl⟩

/-- What a call leaves when it throws. -/
def Marks (store : RunnerStore) (attempt : Attempt RunnerStore) : Prop :=
  attempt.failure ≠ none → SameMarks store.data attempt.state.data

theorem Marks.refuse (failure : StoreFailure) : Marks store (store.refuse failure) :=
  fun _ => SameMarks.refl store.data

variable {rollback : RunnerStateData → RunnerStateData}

theorem RunnerStore.attempt_failed {written : Bool} {change : RunnerStateData × Option StoreFailure}
    (h : (store.attempt written change rollback).failure ≠ none) :
    (store.attempt written change rollback).state.data = rollback change.1 := by
  rcases store.attempt_cases written change rollback with ⟨-, -, heq⟩ | ⟨-, heq⟩
  · rw [heq] at h
    exact absurd rfl h
  · rw [heq]

theorem Marks.attempt {written : Bool} {change : RunnerStateData × Option StoreFailure}
    (h : SameMarks store.data (rollback change.1)) :
    Marks store (store.attempt written change rollback) := by
  intro hfailed
  rw [store.attempt_failed hfailed]
  exact h

theorem SameMarks.restored {before changed after : RunnerStateData} {sessionId : String}
    (honly : OnlyEvents before changed)
    (hothers : ∀ other, other ≠ sessionId →
      changed.exitedSessions.get? other = before.exitedSessions.get? other)
    (hcommands : after.commandReceipts = changed.commandReceipts)
    (hrequests : after.localActionReceipts = changed.localActionReceipts)
    (hexits : after.exitedSessions =
      changed.exitedSessions.restore sessionId (before.exitedSessions.get? sessionId)) :
    SameMarks before after := by
  refine ⟨fun id => ?_, fun id => ?_, fun id => ?_⟩
  · rw [hcommands, honly.receipts]
  · rw [hrequests, honly.requests]
  · rw [hexits]
    exact State.restored hothers id

theorem RunnerStore.appendEvent_marks (event : HarnessEvent) :
    Marks store (store.appendEvent runtime.options moment event) := by
  apply Marks.attempt
  refine SameMarks.restored (store.data.append_only runtime.options event) ?_ rfl rfl rfl
  intro other hne
  rw [RunnerStateData.append_exits]
  split
  · exact Dict.get?_set_of_ne _ _ hne
  · rfl

theorem RunnerStore.saveMcpReview_marks (input : McpReview) (event : Option HarnessEvent) :
    Marks store (store.saveMcpReview runtime moment input event) := by
  unfold RunnerStore.saveMcpReview
  split
  · exact Marks.refuse _
  · rename_i review hparse
    split
    · exact Marks.refuse _
    · rename_i hadmitted
      have hsession := (accepted_of_saveMcpReview hadmitted).session
      have honly := RunnerStateData.appendOptional_only runtime event
        { store.data with mcpReviews := store.data.mcpReviews.set review.start.sessionId review }
      apply Marks.attempt
      refine ⟨fun id => ?_, fun id => ?_, ?_⟩
      · exact congrArg (Dict.get? · id) honly.receipts
      · exact congrArg (Dict.get? · id) honly.requests
      · exact restored (RunnerStateData.appendOptional_exits runtime hsession _)

theorem RunnerStore.clearMcpReview_marks (sessionId requestId : String)
    (events : List HarnessEvent) :
    Marks store (store.clearMcpReview runtime moment sessionId requestId events) := by
  unfold RunnerStore.clearMcpReview
  split
  · have honly := store.data.appendCleanup_only runtime sessionId events
    have hexits := store.data.appendCleanup_exits runtime sessionId events
    generalize store.data.appendCleanup runtime sessionId events = cleaned at honly hexits
    rcases cleaned with ⟨data, failure⟩
    apply Marks.attempt
    cases failure with
    | some failure => exact SameMarks.restored honly hexits rfl rfl rfl
    | none =>
      refine ⟨fun id => ?_, fun id => ?_, restored hexits⟩
      · exact congrArg (Dict.get? · id) honly.receipts
      · exact congrArg (Dict.get? · id) honly.requests
  · exact Marks.refuse _

theorem RunnerStore.completeNativePolicyControl_marks (key sessionId commandId : String)
    (result : ConversationResult) (event : Option HarnessEvent) :
    Marks store
      (store.completeNativePolicyControl runtime moment key sessionId commandId result event) := by
  unfold RunnerStore.completeNativePolicyControl
  split
  · exact Marks.refuse _
  · dsimp only
    split
    · exact Marks.refuse _
    · split
      · exact Marks.refuse _
      · rename_i previous work receipt _ _ hevent
        have honly := RunnerStateData.appendOptional_only runtime event
          { store.data with
            nativeConversations := store.data.nativeConversations.set key
              (previous.rebound moment.now receipt
                { receipt with phase := .completed, result := some result })
            nativeWork := store.data.nativeWork.set sessionId
              (work.rebound receipt.targetBindingHash) }
        apply Marks.attempt
        refine ⟨fun id => ?_, fun id => ?_, fun id => ?_⟩
        · exact congrArg (Dict.get? · id) honly.receipts
        · exact congrArg (Dict.get? · id) honly.requests
        · -- a configuration event marks no exit
          cases event with
          | none => rfl
          | some event =>
            change (RunnerStateData.appendParsed runtime event _).1.exitedSessions.get? id = _
            simp only [Option.any_some, Bool.or_eq_true, bne_iff_ne, not_or, not_not] at hevent
            rw [RunnerStateData.appendParsed_exits, if_neg]
            unfold RunnerStateData.marksExit
            rw [hevent.2]
            simp

/-! ## Incomplete rollbacks -/

variable {data : RunnerStateData}

theorem RunnerStateData.appendParsed_marks {event : HarnessEvent}
    (h : data.marksExit runtime event = true) : (data.appendParsed runtime event).2 = none := by
  unfold RunnerStateData.marksExit at h
  simp only [Bool.and_eq_true, beq_iff_eq] at h
  unfold RunnerStateData.appendParsed RunnerStateData.append
  rw [if_pos h.1.1, if_neg (not_not_intro h.1.2)]

theorem RunnerStore.attempt_work_marks {sessionId : String} {event : Option HarnessEvent}
    (hsession : ∀ e ∈ event, e.sessionId = sessionId) {data : RunnerStateData}
    (hevents : data.events = store.data.events)
    (hcommands : data.commandReceipts = store.data.commandReceipts)
    (hrequests : data.localActionReceipts = store.data.localActionReceipts)
    (hmarkers : data.exitedSessions = store.data.exitedSessions) :
    Marks store (store.attempt moment.written (data.appendOptional runtime event)
        (restoreWork sessionId store.data)) ↔
      (moment.written = false → ∀ exit ∈ event, store.data.marksExit runtime exit = true →
        store.data.exitedSessions.get? sessionId = some ()) := by
  have honly := data.appendOptional_only runtime event
  have hmarks : SameMarks store.data
        (restoreWork sessionId store.data (data.appendOptional runtime event).1) ↔
      ∀ id, (data.appendOptional runtime event).1.exitedSessions.get? id =
        data.exitedSessions.get? id := by
    rw [hmarkers]
    exact ⟨fun h => h.exits,
      fun h => ⟨fun id => congrArg (Dict.get? · id) (honly.receipts.trans hcommands),
        fun id => congrArg (Dict.get? · id) (honly.requests.trans hrequests), h⟩⟩
  have hsame : ∀ exit, data.marksExit runtime exit = store.data.marksExit runtime exit := by
    intro exit
    unfold RunnerStateData.marksExit RunnerStateData.nextEventSequence
      RunnerStateData.sessionEvents
    rw [hevents]
  simp only [← hsame, ← hmarkers]
  cases event with
  | none => exact ⟨fun _ _ _ h => (by cases h), fun _ => Marks.attempt (hmarks.mpr fun _ => rfl)⟩
  | some event =>
    have hid := hsession event rfl
    have hexits := data.appendParsed_exits runtime event
    change (data.appendOptional runtime (some event)).1.exitedSessions = _ at hexits
    by_cases hmark : data.marksExit runtime event = true
    · have hreturned : (data.appendOptional runtime (some event)).2 = none :=
        RunnerStateData.appendParsed_marks hmark
      rw [if_pos hmark, hid] at hexits
      rw [hexits] at hmarks
      constructor
      · intro h hwritten exit hexit _
        cases hexit
        have hfailed : (store.attempt moment.written (data.appendOptional runtime (some event))
            (restoreWork sessionId store.data)).failure ≠ none := by
          unfold RunnerStore.attempt
          rw [hreturned, hwritten]
          simp
        have hrestored := h hfailed
        rw [store.attempt_failed hfailed] at hrestored
        have hself := hmarks.mp hrestored sessionId
        rw [Dict.get?_set_self] at hself
        exact hself.symm
      · intro h
        cases hwritten : moment.written with
        | true =>
          intro hfailed
          unfold RunnerStore.attempt at hfailed
          rw [hreturned] at hfailed
          exact absurd rfl hfailed
        | false =>
          refine Marks.attempt (hmarks.mpr fun id => ?_)
          rw [Dict.set_get? (h hwritten event rfl hmark)]
    · rw [if_neg hmark] at hexits
      rw [hexits] at hmarks
      refine ⟨fun _ _ exit hexit hmarked => ?_, fun _ => Marks.attempt (hmarks.mpr fun _ => rfl)⟩
      cases hexit
      exact absurd hmarked hmark

theorem RunnerStore.saveNativeWorkState_marks (sessionId : String) (input : NativeWorkState)
    (event : Option HarnessEvent) :
    Marks store (store.saveNativeWorkState runtime moment sessionId input event) ↔
      (moment.written = false →
        (StoreAction.saveNativeWorkState sessionId input event).undone runtime moment.now
          store.data) := by
  change _ ↔ (moment.written = false → ∀ exit ∈ event, exit.sessionId = sessionId →
    store.data.marksExit runtime exit = true →
      store.data.admitsWork runtime sessionId input = true →
        store.data.exitedSessions.get? sessionId = some ())
  have hadmits : store.data.admitsWork runtime sessionId input =
      ((nativeWorkStateSchema runtime.schemas).parse input).any fun state =>
        (saveNativeWorkStateProblem store.data.nativeWork.size
          (store.data.nativeWork.get? sessionId) state).isNone := rfl
  unfold RunnerStore.saveNativeWorkState
  rw [hadmits]
  split
  · rename_i hparse
    rw [hparse]
    exact ⟨fun _ _ _ _ _ _ h => absurd h Bool.false_ne_true, fun _ => Marks.refuse _⟩
  · rename_i state hparse
    rw [hparse, Option.any_some]
    split
    · rename_i message hproblem
      rw [hproblem]
      exact ⟨fun _ _ _ _ _ _ h => absurd h Bool.false_ne_true, fun _ => Marks.refuse _⟩
    · rename_i hproblem
      rw [hproblem]
      split
      · rename_i hevent
        refine ⟨fun _ _ exit hexit hid => ?_, fun _ => Marks.refuse _⟩
        cases hexit
        simp [hid] at hevent
      · rename_i hevent
        have hsession : ∀ e ∈ event, e.sessionId = sessionId := by
          intro e he
          cases he
          simpa using hevent
        refine (RunnerStore.attempt_work_marks hsession ?_ ?_ ?_ ?_).trans ?_
        iterate 4 rfl
        exact ⟨fun h hwritten exit hexit _ hmark _ => h hwritten exit hexit hmark,
          fun h hwritten exit hexit hmark =>
            h hwritten exit hexit (hsession exit hexit) hmark rfl⟩

/-! ### Receipts -/

theorem filter_same_iff {α : Type} {d : Dict String α} {p : String → α → Bool} :
    (∀ key, (d.filter p).get? key = d.get? key) ↔
      ∀ key value, d.get? key = some value → p key value = true := by
  constructor
  · intro h key value hvalue
    have hkept := h key
    rw [Dict.get?_filter, hvalue] at hkept
    exact (Option.filter_eq_some_iff.mp hkept).2
  · intro h key
    rw [Dict.get?_filter]
    cases hvalue : d.get? key with
    | none => rfl
    | some value => exact Option.filter_some_pos (h key value hvalue)

theorem filter_set_same_iff {α : Type} {d : Dict String α} {p : String → α → Bool} {id : String}
    {assigned : α} :
    (∀ key, ((d.set id assigned).filter p).get? key = d.get? key) ↔
      (∀ key value, some id ≠ some key → d.get? key = some value → p key value = true) ∧
        d.get? id = if p id assigned then some assigned else none := by
  have hself : ((d.set id assigned).filter p).get? id =
      if p id assigned then some assigned else none := by
    rw [Dict.get?_filter, Dict.get?_set_self]
    rfl
  have hother : ∀ key, key ≠ id → ((d.set id assigned).filter p).get? key =
      (d.filter p).get? key := by
    intro key hne
    rw [Dict.get?_filter, Dict.get?_filter, Dict.get?_set_of_ne _ _ hne]
  constructor
  · intro h
    refine ⟨fun key value hne hvalue => ?_, (h id).symm.trans hself⟩
    have hkept := h key
    rw [hother key fun heq => hne (congrArg some heq.symm), Dict.get?_filter, hvalue] at hkept
    exact (Option.filter_eq_some_iff.mp hkept).2
  · rintro ⟨hothers, hid⟩ key
    by_cases heq : key = id
    · rw [heq, hself, hid]
    · rw [hother key heq, Dict.get?_filter]
      cases hvalue : d.get? key with
      | none => rfl
      | some value =>
        have hne : some id ≠ some key := fun h => heq (Option.some.inj h).symm
        exact Option.filter_some_pos (hothers key value hne hvalue)

theorem RunnerStore.write_marks (hexits : data.exitedSessions = store.data.exitedSessions) :
    Marks store (store.write moment data) ↔ (moment.written = false →
      (∀ id, data.commandReceipts.get? id = store.data.commandReceipts.get? id) ∧
        ∀ id, data.localActionReceipts.get? id = store.data.localActionReceipts.get? id) := by
  unfold Marks RunnerStore.write RunnerStore.attempt
  cases moment.written with
  | true => exact ⟨fun _ h => (nomatch h), fun _ h => absurd rfl h⟩
  | false =>
    refine ⟨fun h _ => ⟨(h nofun).commandReceipts, (h nofun).localActionReceipts⟩, fun h _ => ?_⟩
    exact ⟨(h rfl).1, (h rfl).2, fun id => congrArg (Dict.get? · id) hexits⟩

theorem RunnerStore.pruneReceipts_marks :
    Marks store (store.pruneReceipts runtime.options moment) ↔
      (moment.written = false → StoreAction.getReceipt.undone runtime moment.now store.data) := by
  change _ ↔ (moment.written = false → Unexpired runtime.options moment.now store.data none none)
  have hunexpired : Unexpired runtime.options moment.now store.data none none ↔
      (∀ id, (store.data.prune runtime.options moment.now).commandReceipts.get? id =
        store.data.commandReceipts.get? id) ∧
      ∀ id, (store.data.prune runtime.options moment.now).localActionReceipts.get? id =
        store.data.localActionReceipts.get? id := by
    unfold RunnerStateData.prune
    rw [filter_same_iff, filter_same_iff]
    simp only [decide_eq_true_eq]
    exact ⟨fun h => ⟨fun id receipt => h.commands id receipt (Option.some_ne_none _).symm,
        fun id receipt => h.requests id receipt (Option.some_ne_none _).symm⟩,
      fun h => ⟨fun id receipt _ => h.1 id receipt, fun id receipt _ => h.2 id receipt⟩⟩
  rw [hunexpired]
  unfold RunnerStore.pruneReceipts
  dsimp only
  split
  · rename_i hsame
    rw [hsame]
    exact ⟨fun _ _ => ⟨fun _ => rfl, fun _ => rfl⟩, fun _ h => absurd rfl h⟩
  · exact RunnerStore.write_marks rfl

theorem RunnerStore.setCommandReceipt_marks (commandId : String) (receipt : CommandReceipt) :
    Marks store (store.setCommandReceipt runtime.options moment commandId receipt) ↔
      (moment.written = false →
        (StoreAction.setCommandReceipt commandId receipt).undone runtime moment.now
          store.data) := by
  unfold RunnerStore.setCommandReceipt
  rw [RunnerStore.write_marks (by rfl)]
  refine forall_congr' fun _ => ?_
  unfold RunnerStateData.prune StoreAction.undone
  dsimp only
  rw [filter_same_iff, filter_set_same_iff]
  simp only [decide_eq_true_eq]
  exact ⟨fun h => ⟨⟨h.1.1, fun id receipt _ => h.2 id receipt⟩, h.1.2⟩,
    fun h => ⟨⟨h.1.commands, h.2⟩,
      fun id receipt => h.1.requests id receipt (Option.some_ne_none _).symm⟩⟩

theorem RunnerStore.setLocalActionReceipt_marks (requestId : String)
    (receipt : LocalActionReceipt) :
    Marks store (store.setLocalActionReceipt runtime.options moment requestId receipt) ↔
      (moment.written = false →
        (StoreAction.setLocalActionReceipt requestId receipt).undone runtime moment.now
          store.data) := by
  unfold RunnerStore.setLocalActionReceipt
  rw [RunnerStore.write_marks (by rfl)]
  refine forall_congr' fun _ => ?_
  unfold RunnerStateData.prune StoreAction.undone
  dsimp only
  rw [filter_same_iff, filter_set_same_iff]
  simp only [decide_eq_true_eq]
  exact ⟨fun h => ⟨⟨fun id receipt _ => h.1 id receipt, h.2.1⟩, h.2.2⟩,
    fun h => ⟨fun id receipt => h.1.commands id receipt (Option.some_ne_none _).symm,
      ⟨h.1.requests, h.2⟩⟩⟩

/-! ## Every call -/

theorem Marks.nothing (attempt : Attempt RunnerStore) (h : attempt.failure = none) :
    Marks store attempt := fun hfailed => absurd h hfailed

theorem Marks.unrelated {written : Bool}
    (hcommands : (rollback data).commandReceipts = store.data.commandReceipts)
    (hrequests : (rollback data).localActionReceipts = store.data.localActionReceipts)
    (hexits : (rollback data).exitedSessions = store.data.exitedSessions) :
    Marks store (store.attempt written (data, none) rollback) := by
  apply Marks.attempt
  exact ⟨fun id => congrArg (Dict.get? · id) hcommands, fun id => congrArg (Dict.get? · id) hrequests,
    fun id => congrArg (Dict.get? · id) hexits⟩

theorem RunnerStore.perform_marks (action : StoreAction) :
    Marks store (store.perform runtime moment action) ↔
      (moment.written = false → action.undone runtime moment.now store.data) := by
  have always : ∀ {p : Prop}, p → (p ↔ (moment.written = false → True)) :=
    fun h => ⟨fun _ _ => trivial, fun _ => h⟩
  cases action with
  | appendEvent event => exact always (store.appendEvent_marks event)
  | saveMcpReview review event => exact always (store.saveMcpReview_marks review event)
  | clearMcpReview sessionId requestId events =>
    exact always (store.clearMcpReview_marks sessionId requestId events)
  | saveNativeConversation key conversation =>
    apply always
    change Marks store (store.saveNativeConversation runtime moment key conversation)
    unfold RunnerStore.saveNativeConversation
    split
    · exact Marks.refuse _
    · split
      · exact Marks.refuse _
      · dsimp only
        split
        · exact Marks.refuse _
        · exact Marks.unrelated rfl rfl rfl
  | retireNativeConversation key =>
    apply always
    change Marks store (store.retireNativeConversation moment key)
    unfold RunnerStore.retireNativeConversation
    dsimp only
    split
    · exact Marks.refuse _
    · apply Marks.unrelated <;> split <;> rfl
  | saveNativeWorkState sessionId state event =>
    exact store.saveNativeWorkState_marks sessionId state event
  | removeEmptyNativeWorkState sessionId =>
    apply always
    change Marks store (store.removeEmptyNativeWorkState moment sessionId)
    unfold RunnerStore.removeEmptyNativeWorkState
    split
    · exact Marks.nothing _ rfl
    · split
      · exact Marks.unrelated rfl rfl rfl
      · exact Marks.nothing _ rfl
  | beginNativePolicyControl key receipt =>
    apply always
    change Marks store (store.beginNativePolicyControl runtime moment key receipt)
    unfold RunnerStore.beginNativePolicyControl
    dsimp only
    repeat' split
    all_goals first
      | exact Marks.refuse _
      | exact Marks.unrelated rfl rfl rfl
  | completeNativePolicyControl key sessionId commandId result event =>
    exact always (store.completeNativePolicyControl_marks key sessionId commandId result event)
  | getReceipt => exact store.pruneReceipts_marks
  | setCommandReceipt commandId receipt => exact store.setCommandReceipt_marks commandId receipt
  | setLocalActionReceipt requestId receipt =>
    exact store.setLocalActionReceipt_marks requestId receipt

/-- A call that throws leaves the data as it was exactly if, where the file cannot be written, the
call is one that is undone. -/
theorem failed_calls_undone (runtime : Runtime) (store : RunnerStore) (moment : Moment)
    (action : StoreAction) :
    ((store.perform runtime moment action).failure ≠ none →
        SameData store.data (store.perform runtime moment action).state.data) ↔
      (moment.written = false → action.undone runtime moment.now store.data) := by
  rw [← store.perform_marks action]
  have hrecords : RecordsAfter runtime moment store action _ := store.perform_records action
  have heffect : EventEffect runtime.options store action.events
      (store.perform runtime moment action) := store.perform_effect action
  constructor
  · intro h hfailed
    have hsame := h hfailed
    exact ⟨hsame.commandReceipts, hsame.localActionReceipts, hsame.exits⟩
  · intro h hfailed
    have hmarks := h hfailed
    rcases hrecords with ⟨hsame, -⟩ | ⟨hreturned, -⟩
    · refine ⟨hsame, fun id => ?_, hmarks.commandReceipts, hmarks.localActionReceipts, hmarks.exits⟩
      rw [(heffect.threw hfailed).1]
    · exact absurd hreturned hfailed

def unwrittenReceipt : Attempt RunnerStore :=
  RunnerStore.fresh.perform plainRuntime ⟨0, false⟩
    (.setCommandReceipt "command-1" (.ack emptyHash 0 none none))

/-- A work state that cannot be written, with the exit of its session. -/
def unwrittenExit : Attempt RunnerStore :=
  RunnerStore.fresh.perform plainRuntime ⟨0, false⟩
    (.saveNativeWorkState "session-1" plainWorkState
      (some ⟨"session-1", none, 1, "session.exited", 0, .obj .nil⟩))

theorem failed_calls_remain :
    (unwrittenReceipt.failure = some .unwritten ∧
      ¬SameData RunnerStore.fresh.data unwrittenReceipt.state.data) ∧
    (unwrittenExit.failure = some .unwritten ∧
      ¬SameData RunnerStore.fresh.data unwrittenExit.state.data) := by
  refine ⟨⟨by decide +kernel, fun h => ?_⟩, ⟨by decide +kernel, fun h => ?_⟩⟩
  · exact absurd (h.commandReceipts "command-1") (by decide +kernel)
  · exact absurd (h.exits "session-1") (by decide +kernel)

end HarnessControl.State
