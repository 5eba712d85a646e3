import HarnessControl.Harnesses.Replay
import HarnessControl.State.SessionSnapshots

/-!
# A consumer of events and snapshots

The runner sends the events of its sessions and answers snapshot commands; a command that is
delivered again is answered by the snapshot of its receipt.  The messages reach one reducer in any
order.  A complete snapshot replaces its session, so one that is older than what the reducer holds
takes events away.
-/

namespace HarnessControl.Connection

open HarnessControl.Library HarnessControl.Protocol HarnessControl.State HarnessControl.Harnesses

structure ConsumerState where
  run : StoreRun
  /-- The session and the snapshot of each snapshot command with a receipt. -/
  receipts : Dict String (String × SessionSnapshot)
  /-- The messages under way. -/
  messages : List ReducerInput
  reducer : SessionEventReducer

def ConsumerState.fresh : ConsumerState := ⟨StoreRun.fresh, Dict.empty, [], SessionEventReducer.fresh⟩

inductive ConsumerAction where
  | store (step : StoreStep)
  /-- A committed event is sent, live or as a replay. -/
  | send (event : HarnessEvent)
  /-- A snapshot command is delivered, for the first time or again. -/
  | request (commandId sessionId : String) (now : Int)
  /-- The receipt of a command is older than the retention. -/
  | expire (commandId : String)
  /-- A message reaches the reducer. -/
  | receive (index : Nat)

def ConsumerState.step (runtime : Runtime) (texts : JsonTexts) (state : ConsumerState) :
    ConsumerAction → ConsumerState
  | .store step => { state with run := state.run.step runtime step }
  | .send event =>
    if event ∈ state.run.committed then
      { state with messages := state.messages ++ [.event event] }
    else state
  | .request commandId sessionId now =>
    match state.receipts.get? commandId with
    | some (requested, snapshot) =>
      -- another payload under the id gets a nack
      if requested = sessionId then
        { state with messages := state.messages ++ [.snapshot ⟨snapshot, []⟩] }
      else state
    | none =>
      match state.run.store.sessionSnapshot runtime.schemas now commandId sessionId with
      -- `session_snapshot_unavailable`
      | none => state
      | some snapshot =>
        { state with
          receipts := state.receipts.set commandId (sessionId, snapshot)
          messages := state.messages ++ [.snapshot ⟨snapshot, []⟩] }
  | .expire commandId => { state with receipts := state.receipts.erase commandId }
  | .receive index =>
    match state.messages[index]? with
    | none => state
    | some message =>
      -- `parseHcpMessage` throws on a message that is not valid
      { state with
        messages := state.messages.eraseIdx index
        reducer :=
          if message.valid runtime.schemas then state.reducer.step texts message
          else state.reducer }

/-! ## What is lost -/

/-- No event disappears from the reducer, and no last sequence of its cursor gets less. -/
structure KeepsApplied (texts : JsonTexts) (before after : SessionEventReducer) : Prop where
  events : ∀ sessionId, ∀ event ∈ before.held sessionId, event ∈ after.held sessionId
  cursor : ∀ sessionId last, ⟨sessionId, last⟩ ∈ (before.resumeCursor texts).getD [] →
    ∃ next, last ≤ next ∧ ⟨sessionId, next⟩ ∈ (after.resumeCursor texts).getD []

/-- A complete snapshot that is received ends at or after the last event that is held. -/
def recentEnough (runtime : Runtime) (state : ConsumerState) : ConsumerAction → Prop
  | .receive index => ∀ message ∈ state.messages[index]?,
    match message with
    | .event _ => True
    | .snapshot snapshot => snapshot.valid runtime.schemas = true → snapshot.complete = true →
      (state.reducer.held snapshot.sessionId).length ≤ snapshot.throughSequence
  | _ => True

/-- The process restarts only while no event is retained under the key that a reload loses. -/
def storeKeepsEvents (state : ConsumerState) : ConsumerAction → Prop
  | .store step => restartKeepsEvents state.run step
  | _ => True

/-! ## The invariant -/

/-- The message carries committed events only. -/
def FromLog (run : StoreRun) (events : List HarnessEvent) : Prop :=
  ∀ event ∈ events, event ∈ run.committed

structure ConsumerState.Sound (runtime : Runtime) (state : ConsumerState) : Prop where
  windowed : RunWindowed runtime.options state.run
  messages : ∀ message ∈ state.messages, FromLog state.run message.events
  receipts : ∀ commandId entry, state.receipts.get? commandId = some entry →
    FromLog state.run entry.2.events
  reducer : state.reducer.Sound
  follows : ∀ sessionId, state.reducer.held sessionId <+: committedLog state.run sessionId

theorem ConsumerState.Sound.fresh (runtime : Runtime) :
    ConsumerState.fresh.Sound runtime where
  windowed := RunWindowed.fresh runtime.options
  messages message hmessage := by cases hmessage
  receipts commandId entry hentry := by cases hentry
  reducer := SessionEventReducer.Sound.fresh
  follows _ := List.nil_prefix

variable {runtime : Runtime}

theorem snapshot_fromLog {run : StoreRun}
    (h : RunWindowed runtime.options run) {now : Int} {commandId sessionId : String}
    {snapshot : SessionSnapshot}
    (hanswer : run.store.sessionSnapshot runtime.schemas now commandId sessionId = some snapshot) :
    FromLog run snapshot.events := by
  rcases selectSnapshot_some hanswer with ⟨selected, hsuffix, -, rfl, -, -⟩
  intro event hevent
  have hretained : event ∈ retainedEvents run sessionId := hsuffix.subset hevent
  rw [h.retained sessionId] at hretained
  exact (List.mem_filter.mp (List.mem_of_mem_drop hretained)).1

variable {state : ConsumerState}

theorem ConsumerState.Sound.receive
    (h : state.Sound runtime) (texts : JsonTexts) {message : ReducerInput}
    (hmessage : FromLog state.run message.events) (hvalid : message.valid runtime.schemas = true) :
    (state.reducer.step texts message).Sound ∧
      ∀ sessionId, (state.reducer.step texts message).held sessionId <+:
        committedLog state.run sessionId := by
  refine ⟨(SessionEventReducer.Sound.call texts h.reducer hvalid).1, fun sessionId => ?_⟩
  apply SessionEventReducer.Sound.follow texts h.reducer hvalid
    (h.windowed.windowed.numbered sessionId) ?_ (h.follows sessionId)
  intro event hevent hsession
  unfold sessionLog
  rw [List.mem_filter]
  exact ⟨hmessage event hevent, by simp [hsession]⟩

theorem ConsumerState.Sound.step
    (h : state.Sound runtime) (texts : JsonTexts) (action : ConsumerAction)
    (hkeeps : storeKeepsEvents state action) : (state.step runtime texts action).Sound runtime := by
  cases action with
  | store step =>
    rcases state.run.committed_step runtime step with ⟨more, hmore⟩
    have hgrows : ∀ {events}, FromLog state.run events →
        FromLog (state.run.step runtime step) events := by
      intro events hevents event hevent
      rw [hmore]
      exact List.mem_append_left _ (hevents event hevent)
    constructor
    · exact h.windowed.step hkeeps
    · exact fun message hmessage => hgrows (h.messages message hmessage)
    · exact fun commandId entry hentry => hgrows (h.receipts commandId entry hentry)
    · exact h.reducer
    · intro sessionId
      show _ <+: sessionLog (state.run.step runtime step).committed sessionId
      rw [hmore, sessionLog_append]
      exact (h.follows sessionId).trans (List.prefix_append _ _)
  | send event =>
    unfold ConsumerState.step
    dsimp only
    split
    · rename_i hcommitted
      refine ⟨h.windowed, ?_, h.receipts, h.reducer, h.follows⟩
      intro message hmessage
      rcases List.mem_append.mp hmessage with hold | hnew
      · exact h.messages message hold
      · rw [List.mem_singleton.mp hnew]
        intro other hother
        rw [List.mem_singleton.mp hother]
        exact hcommitted
    · exact h
  | request commandId sessionId now =>
    have hsend : ∀ {snapshot : SessionSnapshot}, FromLog state.run snapshot.events →
        ∀ message ∈ state.messages ++ [ReducerInput.snapshot ⟨snapshot, []⟩],
          FromLog state.run message.events := by
      intro snapshot hsnapshot message hmessage
      rcases List.mem_append.mp hmessage with hold | hnew
      · exact h.messages message hold
      · rw [List.mem_singleton.mp hnew]
        exact hsnapshot
    unfold ConsumerState.step
    dsimp only
    cases hreceipt : state.receipts.get? commandId with
    | some entry =>
      rcases entry with ⟨requested, snapshot⟩
      have hsnapshot := h.receipts commandId _ hreceipt
      dsimp only
      split
      · exact ⟨h.windowed, hsend hsnapshot, h.receipts, h.reducer, h.follows⟩
      · exact h
    | none =>
      dsimp only
      split
      · exact h
      · rename_i snapshot hanswer
        have hsnapshot := snapshot_fromLog h.windowed hanswer
        refine ⟨h.windowed, hsend hsnapshot, ?_, h.reducer, h.follows⟩
        intro other entry hentry
        rw [Dict.get?_set] at hentry
        split at hentry
        · cases hentry
          exact hsnapshot
        · exact h.receipts other entry hentry
  | expire commandId =>
    refine ⟨h.windowed, h.messages, ?_, h.reducer, h.follows⟩
    intro other entry hentry
    have hentry' : (state.receipts.erase commandId).get? other = some entry := hentry
    by_cases hother : other = commandId
    · rw [hother, Dict.get?_erase_self] at hentry'
      cases hentry'
    · rw [Dict.get?_erase_of_ne _ hother] at hentry'
      exact h.receipts other entry hentry'
  | receive index =>
    unfold ConsumerState.step
    dsimp only
    cases hindex : state.messages[index]? with
    | none => exact h
    | some message =>
      have hmessage := h.messages message (List.mem_of_getElem? hindex)
      have hmessages : ∀ other ∈ state.messages.eraseIdx index,
          FromLog state.run other.events := fun other hother =>
        h.messages other (List.mem_of_mem_eraseIdx hother)
      dsimp only
      split
      · rename_i hvalid
        have hnext := h.receive texts hmessage hvalid
        exact ⟨h.windowed, hmessages, h.receipts, hnext.1, hnext.2⟩
      · exact ⟨h.windowed, hmessages, h.receipts, h.reducer, h.follows⟩

/-! ## One reception -/

theorem keepsApplied_of_extends {texts : JsonTexts} {before after : SessionEventReducer}
    (hbefore : before.Sound) (hafter : after.Sound)
    (hextends : ∀ sessionId, before.held sessionId <+: after.held sessionId) :
    KeepsApplied texts before after where
  events sessionId event hevent := (hextends sessionId).subset hevent
  cursor sessionId last hlast := by
    rcases (hbefore.mem_resumeCursor texts sessionId last).mp hlast with ⟨hnonempty, rfl⟩
    refine ⟨_, (hextends sessionId).length_le, (hafter.mem_resumeCursor texts sessionId _).mpr ?_⟩
    refine ⟨?_, rfl⟩
    intro hnil
    have hnone := hextends sessionId
    rw [hnil] at hnone
    exact hnonempty (List.prefix_nil.mp hnone)

theorem KeepsApplied.length {texts : JsonTexts} {before after : SessionEventReducer}
    (h : KeepsApplied texts before after) (hbefore : before.Sound) (hafter : after.Sound)
    (sessionId : String) : (before.held sessionId).length ≤ (after.held sessionId).length := by
  by_cases hnil : before.held sessionId = []
  · rw [hnil]
    exact Nat.zero_le _
  · have hlast := (hbefore.mem_resumeCursor texts sessionId _).mpr ⟨hnil, rfl⟩
    rcases h.cursor sessionId _ hlast with ⟨next, hle, hnext⟩
    rw [((hafter.mem_resumeCursor texts sessionId next).mp hnext).2] at hle
    exact hle

theorem SnapshotSlice.numbered {snapshot : SessionSnapshot} (h : SnapshotSlice snapshot)
    (hcomplete : snapshot.complete = true) :
    Numbered HarnessEvent.sequence snapshot.events := by
  have hsequences := h.sequences
  rw [h.fromStart hcomplete] at hsequences
  exact hsequences

theorem complete_through {schemas : PayloadSchemas} {snapshot : SnapshotPayload}
    (h : snapshot.valid schemas = true) (hcomplete : snapshot.complete = true) :
    snapshot.throughSequence = snapshot.events.length := by
  have hslice := SnapshotPayload.slice h
  have hlast : snapshot.events.getLast?.map HarnessEvent.sequence =
      some snapshot.throughSequence := by
    unfold SnapshotPayload.valid SessionSnapshot.valid at h
    simp only [Bool.and_eq_true, beq_iff_eq] at h
    exact h.1.2
  rcases getLast?_suffix (SnapshotSlice.numbered hslice hcomplete) List.suffix_rfl hslice.nonempty
    with ⟨last, hget, hnumber⟩
  rw [hget, Option.map_some, hnumber] at hlast
  exact (Option.some.inj hlast).symm

theorem receive_extends (h : state.Sound runtime)
    (texts : JsonTexts) {message : ReducerInput}
    (hvalid : message.valid runtime.schemas = true)
    (hdelta : ∀ snapshot, message = .snapshot snapshot → snapshot.complete = false)
    (sessionId : String) :
    state.reducer.held sessionId <+: (state.reducer.step texts message).held sessionId := by
  cases message with
  | event event =>
    have hspec := SessionEventReducer.applyEvent_spec texts h.reducer event
    show _ <+: (state.reducer.applyEvent texts event).2.held sessionId
    rw [hspec.2.2.1 sessionId]
    split
    · rename_i hsession
      rw [hsession]
      exact Reception.prefix_accept (h.reducer.numbered event.sessionId)
    · exact List.prefix_rfl
  | snapshot snapshot =>
    have hspec := SessionEventReducer.applySnapshot_spec texts (SnapshotPayload.slice hvalid)
      h.reducer
    show _ <+: (state.reducer.applySnapshot texts snapshot).2.held sessionId
    rw [hspec.2.2.1 sessionId]
    split
    · rename_i hsession
      unfold SessionEventReducer.batch
      rw [hdelta snapshot rfl, if_neg Bool.false_ne_true, hsession]
      exact Reception.prefix_acceptAll (sameEvent texts) snapshot.events (h.reducer.numbered snapshot.sessionId)
    · exact List.prefix_rfl

theorem receive_complete (h : state.Sound runtime)
    (texts : JsonTexts) {snapshot : SnapshotPayload}
    (hfrom : FromLog state.run snapshot.events)
    (hvalid : snapshot.valid runtime.schemas = true) (hcomplete : snapshot.complete = true) :
    KeepsApplied texts state.reducer (state.reducer.step texts (.snapshot snapshot)) ↔
      (state.reducer.held snapshot.sessionId).length ≤ snapshot.throughSequence := by
  have hslice := SnapshotPayload.slice hvalid
  have hspec := SessionEventReducer.applySnapshot_spec texts hslice h.reducer
  have hnext := h.receive texts
    (show FromLog state.run (ReducerInput.snapshot snapshot).events from hfrom) hvalid
  have hheld : ∀ sessionId, (state.reducer.step texts (.snapshot snapshot)).held sessionId =
      if sessionId = snapshot.sessionId then snapshot.events
      else state.reducer.held sessionId := by
    intro sessionId
    show (state.reducer.applySnapshot texts snapshot).2.held sessionId = _
    rw [hspec.2.2.1 sessionId]
    unfold SessionEventReducer.batch
    rw [hcomplete, if_pos rfl]
  rw [complete_through hvalid hcomplete]
  constructor
  · intro hkeeps
    have hlength := hkeeps.length h.reducer hnext.1 snapshot.sessionId
    rw [hheld, if_pos rfl] at hlength
    exact hlength
  · intro hlength
    apply keepsApplied_of_extends h.reducer hnext.1
    intro sessionId
    rw [hheld]
    split
    · rename_i hsession
      -- both are first parts of the log of the session
      have hreplaced := hnext.2 snapshot.sessionId
      rw [hheld, if_pos rfl] at hreplaced
      rw [hsession]
      exact List.prefix_of_prefix_length_le (h.follows snapshot.sessionId) hreplaced hlength
    · exact List.prefix_rfl

theorem ConsumerState.Sound.keeps_receive
    (h : state.Sound runtime) (texts : JsonTexts) (index : Nat) :
    KeepsApplied texts state.reducer (state.step runtime texts (.receive index)).reducer ↔
      recentEnough runtime state (.receive index) := by
  have hself : KeepsApplied texts state.reducer state.reducer :=
    keepsApplied_of_extends h.reducer h.reducer fun _ => List.prefix_rfl
  unfold ConsumerState.step recentEnough
  dsimp only
  cases hindex : state.messages[index]? with
  | none => exact ⟨fun _ message hmessage => (by cases hmessage), fun _ => hself⟩
  | some message =>
    have hfrom := h.messages message (List.mem_of_getElem? hindex)
    dsimp only
    have hone : ∀ condition : ReducerInput → Prop,
        (∀ other ∈ some message, condition other) ↔ condition message := by
      intro condition
      simp
    rw [hone]
    have hother : message.valid runtime.schemas = true →
        (∀ snapshot, message = .snapshot snapshot → snapshot.complete = false) →
        KeepsApplied texts state.reducer (state.reducer.step texts message) := by
      intro hvalid hdelta
      exact keepsApplied_of_extends h.reducer (h.receive texts hfrom hvalid).1
        (receive_extends h texts hvalid hdelta)
    by_cases hvalid : message.valid runtime.schemas = true
    · rw [if_pos hvalid]
      cases message with
      | event event =>
        exact ⟨fun _ => trivial, fun _ => hother hvalid fun snapshot hsnapshot => by
          cases hsnapshot⟩
      | snapshot snapshot =>
        cases hcomplete : snapshot.complete with
        | true =>
          rw [receive_complete h texts hfrom hvalid hcomplete]
          exact ⟨fun hle _ _ => hle, fun hle => hle hvalid hcomplete⟩
        | false =>
          have hcontra : snapshot.complete ≠ true := by rw [hcomplete]; exact Bool.false_ne_true
          refine ⟨fun _ _ h => absurd h hcontra, fun _ => hother hvalid ?_⟩
          intro other hsame
          cases hsame
          exact hcomplete
    · rw [if_neg hvalid]
      cases message with
      | event event => exact ⟨fun _ => trivial, fun _ => hself⟩
      | snapshot snapshot => exact ⟨fun _ hcontra => absurd hcontra hvalid, fun _ => hself⟩

/-- As long as no restart loses events, nothing that was applied is lost exactly when every complete
snapshot that is received ends at or after the last event that is held. -/
theorem applied_events_kept (runtime : Runtime) (texts : JsonTexts) (actions : List ConsumerAction)
    (hkeeps : Meets (ConsumerState.step runtime texts) storeKeepsEvents .fresh actions) :
    Meets (ConsumerState.step runtime texts)
        (fun state action => KeepsApplied texts state.reducer
          (state.step runtime texts action).reducer) .fresh actions ↔
      Meets (ConsumerState.step runtime texts) (recentEnough runtime) .fresh actions := by
  have hsound := always_of_meets (I := ConsumerState.Sound runtime)
    (fun _ action h hstep => h.step texts action hstep) (ConsumerState.Sound.fresh runtime) hkeeps
  have hstep : ∀ state action, ConsumerState.Sound runtime state →
      (KeepsApplied texts state.reducer (state.step runtime texts action).reducer ↔
        recentEnough runtime state action) := by
    intro state action h
    have hself : KeepsApplied texts state.reducer state.reducer :=
      keepsApplied_of_extends h.reducer h.reducer fun _ => List.prefix_rfl
    cases action with
    | store step => exact ⟨fun _ => trivial, fun _ => hself⟩
    | send event =>
      unfold ConsumerState.step
      dsimp only
      split <;> exact ⟨fun _ => trivial, fun _ => hself⟩
    | request commandId sessionId now =>
      unfold ConsumerState.step
      dsimp only
      split
      · split <;> exact ⟨fun _ => trivial, fun _ => hself⟩
      · split <;> exact ⟨fun _ => trivial, fun _ => hself⟩
    | expire commandId => exact ⟨fun _ => trivial, fun _ => hself⟩
    | receive index => exact h.keeps_receive texts index
  constructor
  · exact fun hkept => Meets.of_always (fun state action h => (hstep state action h).mp) hsound hkept
  · exact fun hkept => Meets.of_always (fun state action h => (hstep state action h).mpr) hsound hkept

/-! ## A snapshot from a receipt -/

/-- Two events are committed, asked for as a snapshot, and received. -/
def snapshotReceived : List ConsumerAction :=
  [.store (.call ⟨0, true⟩ (.appendEvent (SessionEventReducer.loggedEvent 1))),
    .store (.call ⟨1, true⟩ (.appendEvent (SessionEventReducer.loggedEvent 2))),
    .request "c" "s" 2, .receive 0]

/-- Then a third event is received, and the snapshot command is delivered again. -/
def snapshotRepeated : List ConsumerAction :=
  snapshotReceived ++ [.store (.call ⟨3, true⟩ (.appendEvent (SessionEventReducer.loggedEvent 3))),
    .send (SessionEventReducer.loggedEvent 3), .receive 0, .request "c" "s" 4, .receive 0]

instance (runtime : Runtime) (state : ConsumerState) : (action : ConsumerAction) →
    Decidable (recentEnough runtime state action)
  | .store _ | .send _ | .request _ _ _ | .expire _ => inferInstanceAs (Decidable True)
  | .receive index =>
    match h : state.messages[index]? with
    | none => isTrue fun message hmessage => by rw [h] at hmessage; cases hmessage
    | some (.event _) => isTrue fun message hmessage => by
      rw [h] at hmessage; cases hmessage; trivial
    | some (.snapshot snapshot) =>
      decidable_of_iff (snapshot.valid runtime.schemas = true → snapshot.complete = true →
          (state.reducer.held snapshot.sessionId).length ≤ snapshot.throughSequence)
        ⟨fun hle message hmessage => by rw [h] at hmessage; cases hmessage; exact hle,
          fun hle => hle (.snapshot snapshot) h⟩

instance (state : ConsumerState) : (action : ConsumerAction) →
    Decidable (storeKeepsEvents state action)
  | .store step => inferInstanceAs (Decidable (restartKeepsEvents state.run step))
  | .send _ | .request _ _ _ | .expire _ | .receive _ => inferInstanceAs (Decidable True)

/-- The snapshot of the receipt takes the third event away. -/
theorem repeated_snapshot_loses_event :
    Meets (ConsumerState.step plainRuntime SessionEventReducer.plainTexts) storeKeepsEvents .fresh
        snapshotRepeated ∧
      ¬ Meets (ConsumerState.step plainRuntime SessionEventReducer.plainTexts)
        (fun state action => KeepsApplied SessionEventReducer.plainTexts state.reducer
          (state.step plainRuntime SessionEventReducer.plainTexts action).reducer) .fresh
        snapshotRepeated := by
  constructor
  · decide
  · intro h
    have hsplit : snapshotRepeated = snapshotRepeated.take 8 ++ [.receive 0] := rfl
    rw [hsplit] at h
    have hlast := h.final.1
    have hlost := hlast.events "s" (SessionEventReducer.loggedEvent 3) (by decide)
    revert hlost
    decide

theorem applied_events_kept_snapshot :
    Meets (ConsumerState.step plainRuntime SessionEventReducer.plainTexts) storeKeepsEvents .fresh
        snapshotReceived ∧
      Meets (ConsumerState.step plainRuntime SessionEventReducer.plainTexts)
        (fun state action => KeepsApplied SessionEventReducer.plainTexts state.reducer
          (state.step plainRuntime SessionEventReducer.plainTexts action).reducer) .fresh
        snapshotReceived := by
  have hkeeps : Meets (ConsumerState.step plainRuntime SessionEventReducer.plainTexts)
      storeKeepsEvents .fresh snapshotReceived := by decide
  have hrecent : Meets (ConsumerState.step plainRuntime SessionEventReducer.plainTexts)
      (recentEnough plainRuntime) .fresh snapshotReceived := by decide
  exact ⟨hkeeps, (applied_events_kept plainRuntime SessionEventReducer.plainTexts snapshotReceived
    hkeeps).mpr hrecent⟩

end HarnessControl.Connection
