import HarnessControl.State.EventRetention

/-!
# Replay for resuming hosts

`HarnessSessionManager.replayEventsAfter` answers the cursors of a host: with the events committed
after each cursor, or with the range that is still retained.
-/

namespace HarnessControl.Harnesses

open HarnessControl.Library HarnessControl.Protocol HarnessControl.State

structure SessionCursor where
  sessionId : String
  lastEventSequence : Int
deriving DecidableEq

inductive UnavailableReason where
  | cursorOutsideRetention
  | noRetainedEvents

structure ReplayUnavailable where
  sessionId : String
  requestedAfterSequence : Int
  reason : UnavailableReason
  /-- `first_event_sequence` and `last_event_sequence`. -/
  retainedRange : Option (Nat × Nat)

structure HarnessReplayResult where
  events : List HarnessEvent
  unavailable : List ReplayUnavailable

def replayCursor (ranges : List RetainedRange) (store : RunnerStore) (result : HarnessReplayResult)
    (cursor : SessionCursor) : HarnessReplayResult :=
  match store.replayEventsAfter cursor.sessionId cursor.lastEventSequence with
  | some replayed => { result with events := result.events ++ replayed }
  | none =>
    let range := ranges.find? fun range => range.sessionId == cursor.sessionId
    { result with
      unavailable := result.unavailable ++ [{
        sessionId := cursor.sessionId
        requestedAfterSequence := cursor.lastEventSequence
        reason := if range.isSome then .cursorOutsideRetention else .noRetainedEvents
        retainedRange := range.map fun range =>
          (range.firstEventSequence, range.lastEventSequence) }] }

/-- `HarnessSessionManager.replayEventsAfter`. -/
def replayEventsAfter (host : Host) (store : RunnerStore) (cursors : List SessionCursor) :
    HarnessReplayResult :=
  cursors.foldl (replayCursor ((store.retainedEventRanges host).getD []) store) ⟨[], []⟩

/-! ## What is retained -/

/-- The first and the last sequence of a list of events. -/
def span (events : List HarnessEvent) : Option (Nat × Nat) :=
  match events.head?, events.getLast? with
  | some first, some last => some (first.sequence, last.sequence)
  | _, _ => none

/-- The cursor lies in the span, or just before it. -/
def covers (range : Option (Nat × Nat)) (cursor : Int) : Bool :=
  range.any fun (first, last) => decide ((first : Int) - 1 ≤ cursor) && decide (cursor ≤ last)

theorem covers_some {first last : Nat} {cursor : Int} :
    covers (some (first, last)) cursor = true ↔ (first : Int) - 1 ≤ cursor ∧ cursor ≤ last := by
  simp [covers]

theorem span_nil : span [] = none := rfl

theorem span_cons (event : HarnessEvent) (rest : List HarnessEvent) :
    ∃ last, (event :: rest).getLast? = some last ∧
      span (event :: rest) = some (event.sequence, last.sequence) := by
  refine ⟨(event :: rest).getLast (List.cons_ne_nil _ _), List.getLast?_eq_some_getLast _, ?_⟩
  unfold span
  rw [List.head?_cons, List.getLast?_eq_some_getLast (List.cons_ne_nil _ _)]

theorem mem_retainedEventRanges (host : Host) (store : RunnerStore) (range : RetainedRange) :
    range ∈ (store.retainedEventRanges host).getD [] ↔
      span (store.data.sessionEvents range.sessionId) =
        some (range.firstEventSequence, range.lastEventSequence) := by
  have hmem : range ∈ (store.retainedEventRanges host).getD [] ↔
      ∃ entry ∈ store.data.events.entries, retainedRange? entry = some range := by
    unfold RunnerStore.retainedEventRanges
    dsimp only
    split
    · rw [Option.getD_some, List.mem_mergeSort, List.mem_filterMap]
    · rename_i hempty
      have hnil := List.eq_nil_of_length_eq_zero (Nat.eq_zero_of_not_pos hempty)
      have hsource : store.data.events.entries.filterMap retainedRange? = [] := by
        apply List.eq_nil_of_length_eq_zero
        rw [← List.length_mergeSort, hnil, List.length_nil]
      rw [Option.getD_none, ← List.mem_filterMap, hsource]
  rw [hmem]
  constructor
  · rintro ⟨⟨sessionId, events⟩, hentry, hrange⟩
    have hget := Dict.get?_eq_some_iff.mpr hentry
    unfold retainedRange? at hrange
    split at hrange
    · rename_i first last hfirst hlast
      cases hrange
      unfold RunnerStateData.sessionEvents span
      rw [hget, Option.getD_some]
      dsimp only at hfirst hlast
      rw [hfirst, hlast]
    · cases hrange
  · intro hspan
    unfold RunnerStateData.sessionEvents at hspan
    cases hget : store.data.events.get? range.sessionId with
    | none =>
      rw [hget, Option.getD_none, span_nil] at hspan
      cases hspan
    | some events =>
      rw [hget, Option.getD_some] at hspan
      refine ⟨(range.sessionId, events), Dict.get?_eq_some_iff.mp hget, ?_⟩
      unfold span at hspan
      unfold retainedRange?
      split at hspan
      · rename_i first last hfirst hlast
        rw [hfirst, hlast]
        cases range
        cases hspan
        rfl
      · cases hspan

theorem find_retainedEventRanges (host : Host) (store : RunnerStore) (sessionId : String) :
    (((store.retainedEventRanges host).getD []).find? fun range => range.sessionId == sessionId).map
        (fun range => (range.firstEventSequence, range.lastEventSequence)) =
      span (store.data.sessionEvents sessionId) := by
  cases hfind : ((store.retainedEventRanges host).getD []).find?
      fun range => range.sessionId == sessionId with
  | some range =>
    have hmem := List.mem_of_find?_eq_some hfind
    have hid : range.sessionId = sessionId := by simpa using List.find?_some hfind
    rw [← hid, (mem_retainedEventRanges host store range).mp hmem]
    rfl
  | none =>
    cases hspan : span (store.data.sessionEvents sessionId) with
    | none => rfl
    | some pair =>
      have hmem := (mem_retainedEventRanges host store ⟨sessionId, pair.1, pair.2⟩).mpr hspan
      have hno := List.find?_eq_none.mp hfind _ hmem
      exact absurd (beq_self_eq_true sessionId) hno

/-! ## What a run guarantees to a session -/

def committedLog (run : StoreRun) (sessionId : String) : List HarnessEvent :=
  sessionLog run.committed sessionId

def retainedEvents (run : StoreRun) (sessionId : String) : List HarnessEvent :=
  run.store.data.sessionEvents sessionId

/-- Retention and replay of one session, as its readers rely on them. -/
structure SessionReplay (options : StoreOptions) (host : Host) (run : StoreRun)
    (sessionId : String) : Prop where
  assigned : (committedLog run sessionId).map HarnessEvent.sequence =
    List.range' 1 (committedLog run sessionId).length
  bounded : (retainedEvents run sessionId).length ≤ options.eventRetentionPerSession
  consecutive : ∃ first, (retainedEvents run sessionId).map HarnessEvent.sequence =
    List.range' first (retainedEvents run sessionId).length
  advertised : ∀ first last,
    ⟨sessionId, first, last⟩ ∈ (run.store.retainedEventRanges host).getD [] ↔
      span (retainedEvents run sessionId) = some (first, last)
  replayed : ∀ cursor : Int, run.store.replayEventsAfter sessionId cursor =
    if covers (span (retainedEvents run sessionId)) cursor then
      some ((committedLog run sessionId).filter fun event => decide (cursor < (event.sequence : Int)))
    else none

/-- The manager answers every cursor with the committed events after it, or reports the span. -/
def ManagerReplay (host : Host) (run : StoreRun) : Prop :=
  ∀ cursors : List SessionCursor, replayEventsAfter host run.store cursors = {
    events := cursors.flatMap fun cursor =>
      if covers (span (retainedEvents run cursor.sessionId)) cursor.lastEventSequence then
        (committedLog run cursor.sessionId).filter fun event =>
          decide (cursor.lastEventSequence < (event.sequence : Int))
      else []
    unavailable := cursors.filterMap fun cursor =>
      let range := span (retainedEvents run cursor.sessionId)
      if covers range cursor.lastEventSequence then none
      else some ⟨cursor.sessionId, cursor.lastEventSequence,
        if range.isSome then .cursorOutsideRetention else .noRetainedEvents, range⟩ }

/-! ## Runs -/

/-- Memory holds the windows of the committed events, and the file the same ones. -/
structure RunWindowed (options : StoreOptions) (run : StoreRun) : Prop where
  windowed : Windowed options.eventRetentionPerSession run.committed run.store.data.events
  onDisk : ∀ sessionId, (run.store.disk.elim Dict.empty RunnerStateData.events).get? sessionId =
    run.store.data.events.get? sessionId

/-- The process restarts only while no event is retained under the key that a reload loses. -/
def restartKeepsEvents (run : StoreRun) : StoreStep → Prop
  | .call _ _ => True
  | .restart _ => run.store.data.events.get? protoKey = none

instance (run : StoreRun) (step : StoreStep) : Decidable (restartKeepsEvents run step) :=
  match step with
  | .call _ _ => inferInstanceAs (Decidable True)
  | .restart _ => inferInstanceAs (Decidable (_ = none))

theorem RunWindowed.fresh (options : StoreOptions) : RunWindowed options StoreRun.fresh where
  windowed := ⟨fun _ => Numbered.nil, fun _ => by simp [StoreRun.fresh, RunnerStore.fresh,
    emptyRunnerState, sessionLog]⟩
  onDisk _ := rfl

variable {run : StoreRun}

theorem RunWindowed.step {runtime : Runtime} (h : RunWindowed runtime.options run)
    {step : StoreStep} (hstep : restartKeepsEvents run step) :
    RunWindowed runtime.options (run.step runtime step) := by
  cases step with
  | call moment action =>
    have heffect : EventEffect runtime.options run.store action.events
        (run.store.perform runtime moment action) := run.store.perform_effect action
    unfold StoreRun.step
    dsimp only
    generalize run.store.perform runtime moment action = attempt at heffect
    cases hfailure : attempt.failure with
    | some failure =>
      have hthrew := heffect.threw (by rw [hfailure]; exact Option.some_ne_none failure)
      have hreturned : attempt.returned = false := by
        unfold Attempt.returned
        rw [hfailure]
        rfl
      rw [hreturned]
      constructor
      · rw [hthrew.1]
        exact h.windowed
      · intro sessionId
        rw [hthrew.2, hthrew.1]
        exact h.onDisk sessionId
    | none =>
      have hreturned := heffect.returned hfailure
      have hflag : attempt.returned = true := by
        unfold Attempt.returned
        rw [hfailure]
        rfl
      rw [hflag]
      have hwindow := h.windowed.append runtime.options.event_retention_pos hreturned.1
      constructor
      · exact hwindow
      · intro sessionId
        rcases hreturned.2 with hdisk | ⟨hsame, -⟩
        · rw [hdisk]
          rfl
        · rw [hsame]
          exact h.onDisk sessionId
  | restart now =>
    unfold StoreRun.step
    dsimp only
    cases hopen : run.store.reopen runtime now with
    | none => exact h
    | some opened =>
      have hdisk : opened.disk = run.store.disk := by
        unfold RunnerStore.reopen at hopen
        rcases Option.map_eq_some_iff.mp hopen with ⟨data, -, rfl⟩
        rfl
      have hevents : ∀ sessionId, opened.data.events.get? sessionId =
          run.store.data.events.get? sessionId := by
        intro sessionId
        by_cases hown : ownProperty sessionId = true
        · rw [reopen_events hopen hown]
          exact h.onDisk sessionId
        · have hproto : sessionId = protoKey := by simpa [ownProperty] using hown
          rw [hproto, reopen_proto hopen]
          exact hstep.symm
      constructor
      · constructor
        · exact h.windowed.numbered
        · intro sessionId
          dsimp only
          rw [hevents sessionId]
          exact h.windowed.window sessionId
      · intro sessionId
        dsimp only
        rw [hdisk, hevents sessionId]
        exact h.onDisk sessionId

/-! ## The guarantees -/

variable {options : StoreOptions}

theorem RunWindowed.retained (h : RunWindowed options run) (sessionId : String) :
    retainedEvents run sessionId =
      (committedLog run sessionId).rtake options.eventRetentionPerSession :=
  h.windowed.window sessionId

theorem RunWindowed.replayed (h : RunWindowed options run) (sessionId : String) (cursor : Int) :
    run.store.replayEventsAfter sessionId cursor =
      if covers (span (retainedEvents run sessionId)) cursor then
        some ((committedLog run sessionId).filter fun event =>
          decide (cursor < (event.sequence : Int)))
      else none := by
  have hretained := h.retained sessionId
  have hnumbered := h.windowed.numbered sessionId
  unfold RunnerStore.replayEventsAfter
  cases hget : run.store.data.events.get? sessionId with
  | none =>
    have hempty : retainedEvents run sessionId = [] := by
      unfold retainedEvents RunnerStateData.sessionEvents
      rw [hget, Option.getD_none]
    rw [hempty, span_nil]
    rfl
  | some events =>
    have hevents : retainedEvents run sessionId = events := by
      unfold retainedEvents RunnerStateData.sessionEvents
      rw [hget, Option.getD_some]
    rw [hevents] at hretained ⊢
    cases events with
    | nil => rfl
    | cons first rest =>
      rcases span_cons first rest with ⟨last, hlast, hspan⟩
      rw [hspan]
      have hhead : (first :: rest).head? = some first := List.head?_cons
      have hfirst : first.sequence =
          (committedLog run sessionId).length - options.eventRetentionPerSession + 1 := by
        rw [hretained] at hhead
        exact hnumbered.head?_rtake hhead
      dsimp only [List.head?_cons]
      rw [hlast]
      dsimp only
      by_cases hcovered : (first.sequence : Int) - 1 ≤ cursor ∧ cursor ≤ (last.sequence : Int)
      · have hcut : (((committedLog run sessionId).length -
            options.eventRetentionPerSession : Nat) : Int) ≤ cursor := by
          have hlow := hcovered.1
          rw [hfirst] at hlow
          push_cast at hlow ⊢
          omega
        rw [if_neg (by omega), if_pos (covers_some.mpr hcovered), hretained]
        exact congrArg some (hnumbered.filter_rtake hcut)
      · rw [if_pos (by omega), if_neg (fun hc => hcovered (covers_some.mp hc))]

theorem RunWindowed.sessionReplay (h : RunWindowed options run) (host : Host) (sessionId : String) :
    SessionReplay options host run sessionId where
  assigned := h.windowed.numbered sessionId
  bounded := by
    rw [h.retained sessionId, length_rtake]
    omega
  consecutive := by
    rw [h.retained sessionId]
    exact ⟨_, (h.windowed.numbered sessionId).map_rtake _⟩
  advertised first last := mem_retainedEventRanges host run.store ⟨sessionId, first, last⟩
  replayed := h.replayed sessionId

theorem RunWindowed.managerReplay
    (h : RunWindowed options run) (host : Host) : ManagerReplay host run := by
  intro cursors
  -- the fold only appends, so it is enough to follow it from any earlier result
  have hfold : ∀ (result : HarnessReplayResult),
      cursors.foldl (replayCursor ((run.store.retainedEventRanges host).getD []) run.store) result =
        { events := result.events ++ cursors.flatMap fun cursor =>
            if covers (span (retainedEvents run cursor.sessionId)) cursor.lastEventSequence then
              (committedLog run cursor.sessionId).filter fun event =>
                decide (cursor.lastEventSequence < (event.sequence : Int))
            else []
          unavailable := result.unavailable ++ cursors.filterMap fun cursor =>
            let range := span (retainedEvents run cursor.sessionId)
            if covers range cursor.lastEventSequence then none
            else some ⟨cursor.sessionId, cursor.lastEventSequence,
              if range.isSome then .cursorOutsideRetention else .noRetainedEvents, range⟩ } := by
    induction cursors with
    | nil => intro result; simp
    | cons cursor rest ih =>
      intro result
      rw [List.foldl_cons, ih]
      have hrange := find_retainedEventRanges host run.store cursor.sessionId
      unfold replayCursor
      rw [h.replayed cursor.sessionId cursor.lastEventSequence]
      by_cases hcovered :
          covers (span (retainedEvents run cursor.sessionId)) cursor.lastEventSequence = true
      · rw [if_pos hcovered]
        simp only [List.flatMap_cons, List.filterMap_cons, if_pos hcovered, List.append_assoc]
      · rw [if_neg hcovered]
        have hsome : (((run.store.retainedEventRanges host).getD []).find? fun range =>
            range.sessionId == cursor.sessionId).isSome =
              (span (retainedEvents run cursor.sessionId)).isSome := by
          unfold retainedEvents
          rw [← hrange, Option.isSome_map]
        simp only [List.flatMap_cons, List.filterMap_cons, if_neg hcovered, List.nil_append,
          List.append_assoc, List.singleton_append, hsome, hrange]
        rfl
  exact (hfold ⟨[], []⟩).trans (by simp only [List.nil_append])

/-- As long as no restart meets events retained under `__proto__`, every session keeps its
sequences, its ranges and its replay, and the manager answers every list of cursors from them. -/
theorem replay_window (runtime : Runtime) (steps : List StoreStep)
    (hsteps : Meets (StoreRun.step runtime) restartKeepsEvents StoreRun.fresh steps) :
    Always (StoreRun.step runtime)
      (fun run => (∀ sessionId, SessionReplay runtime.options runtime.host run sessionId) ∧
        ManagerReplay runtime.host run) StoreRun.fresh steps := by
  have hwindowed := always_of_meets (I := RunWindowed runtime.options)
    (fun _ _ h hstep => h.step hstep) (RunWindowed.fresh runtime.options) hsteps
  exact hwindowed.mono fun run h =>
    ⟨h.sessionReplay runtime.host, h.managerReplay runtime.host⟩

/-! ## The session named `__proto__` -/

def sessionStarted (sessionId : String) (sequence : Nat) : HarnessEvent :=
  { sessionId, turnId := none, sequence, eventType := "session.started", createdAt := 0
    data := .obj .nil }

/-- A session starts, the process restarts, the session starts again. -/
def startTwice (sessionId : String) : List StoreStep :=
  [.call ⟨0, true⟩ (.appendEvent (sessionStarted sessionId 1)), .restart 1,
    .call ⟨2, true⟩ (.appendEvent (sessionStarted sessionId 1))]

/-- After a restart the sequences of `__proto__` start at 1 again. -/
theorem proto_sequences_reused :
    ¬ Always (StoreRun.step plainRuntime)
      (fun run => (∀ sessionId, SessionReplay plainRuntime.options plainRuntime.host run sessionId) ∧
        ManagerReplay plainRuntime.host run) StoreRun.fresh (startTwice "__proto__") := by
  intro h
  have hlast := h.last.1 "__proto__"
  have hassigned := hlast.assigned
  revert hassigned
  decide

/-- Any other session goes on where it stopped: its second start is refused. -/
theorem replay_window_restarted :
    Meets (StoreRun.step plainRuntime) restartKeepsEvents StoreRun.fresh (startTwice "s") ∧
      Always (StoreRun.step plainRuntime)
        (fun run => (∀ sessionId,
          SessionReplay plainRuntime.options plainRuntime.host run sessionId) ∧
          ManagerReplay plainRuntime.host run) StoreRun.fresh (startTwice "s") := by
  have hmeets : Meets (StoreRun.step plainRuntime) restartKeepsEvents StoreRun.fresh
      (startTwice "s") := by decide
  exact ⟨hmeets, replay_window plainRuntime (startTwice "s") hmeets⟩

end HarnessControl.Harnesses
