import HarnessControl.Protocol.SessionReducer
import HarnessControl.State.EventRetention

/-!
# Session snapshots

`sessionSnapshot` answers a host that lost the events of a session: with all retained events, or
with the last ones that fit into a payload.  The consumer applies the answer to what it holds.  The
events are taken from memory as they were appended; `appendEvent` does not check them.
-/

namespace HarnessControl.State

open HarnessControl.Library HarnessControl.Protocol

/-- `HCP_PAYLOAD_MAX_ENCODED_BYTES`. -/
def payloadMaxEncodedBytes : Nat := 1024 * 1024

def snapshotJson (snapshot : SessionSnapshot) : Json :=
  .obj <| .ofList <|
    [("command_id", .str snapshot.commandId), ("session_id", .str snapshot.sessionId),
      ("generated_at", .num snapshot.generatedAt), ("from_sequence", .num snapshot.fromSequence),
      ("through_sequence", .num snapshot.throughSequence),
      ("events", .arr (.ofList (snapshot.events.map HarnessEvent.toJson))),
      ("tombstones", .arr .nil)] ++
    if snapshot.complete then
      [("completeness", .str "complete"), ("omission_semantics", .str "replace")]
    else
      [("completeness", .str "partial"), ("omission_semantics", .str "preserve"),
        ("reason", .str (if snapshot.sizeLimited then "size_limit" else "retention_gap"))]

/-- The snapshot of the selected ones of the retained events. -/
def snapshotOf (commandId sessionId : String) (generatedAt : Int) (retained : List HarnessEvent)
    (selected : List HarnessEvent) : SessionSnapshot :=
  let retainedStartsAtOne := retained.head?.any fun event => event.sequence == 1
  let complete := retainedStartsAtOne && selected.length == retained.length
  { commandId, sessionId, generatedAt, complete
    sizeLimited := !complete && retainedStartsAtOne
    fromSequence := if complete then 1 else selected.head?.elim 0 HarnessEvent.sequence
    throughSequence := selected.getLast?.elim 0 HarnessEvent.sequence
    events := selected }

def fitsPayload (schemas : PayloadSchemas) (snapshot : SessionSnapshot) : Bool :=
  decide (schemas.jsonBytes (snapshotJson snapshot) ≤ payloadMaxEncodedBytes)

/-- The loop of `sessionSnapshot`: events are shifted until the snapshot fits. -/
def selectSnapshot (fits : SessionSnapshot → Bool) (snapshot : List HarnessEvent → SessionSnapshot) :
    List HarnessEvent → Option SessionSnapshot
  | [] => none
  | event :: rest =>
    if fits (snapshot (event :: rest)) then some (snapshot (event :: rest))
    else selectSnapshot fits snapshot rest

def RunnerStore.sessionSnapshot (schemas : PayloadSchemas) (now : Int) (store : RunnerStore)
    (commandId sessionId : String) : Option SessionSnapshot :=
  let events := store.data.sessionEvents sessionId
  selectSnapshot (fitsPayload schemas) (snapshotOf commandId sessionId now events) events

/-! ## The loop -/

section Loop

variable {fits : SessionSnapshot → Bool} {snapshot : List HarnessEvent → SessionSnapshot}
  {events : List HarnessEvent}

theorem selectSnapshot_none (h : selectSnapshot fits snapshot events = none)
    {selected : List HarnessEvent} (hsuffix : selected <:+ events) (hnonempty : selected ≠ []) :
    fits (snapshot selected) = false := by
  induction events with
  | nil => exact absurd (List.suffix_nil.mp hsuffix) hnonempty
  | cons event rest ih =>
    unfold selectSnapshot at h
    split at h
    · cases h
    · rename_i hlarge
      rcases List.suffix_cons_iff.mp hsuffix with rfl | hrest
      · simpa using hlarge
      · exact ih h hrest

theorem selectSnapshot_some {result : SessionSnapshot}
    (h : selectSnapshot fits snapshot events = some result) :
    ∃ selected, selected <:+ events ∧ selected ≠ [] ∧ result = snapshot selected ∧
      fits result = true ∧ ∀ longer, longer <:+ events → fits (snapshot longer) = true →
        longer ≠ [] → longer <:+ selected := by
  induction events with
  | nil => cases h
  | cons event rest ih =>
    unfold selectSnapshot at h
    split at h
    · rename_i hfits
      cases h
      exact ⟨event :: rest, List.suffix_rfl, List.cons_ne_nil _ _, rfl, hfits,
        fun longer hlonger _ _ => hlonger⟩
    · rename_i hlarge
      rcases ih h with ⟨selected, hsuffix, hnonempty, hresult, hfits, hlongest⟩
      refine ⟨selected, hsuffix.trans (List.suffix_cons _ _), hnonempty, hresult, hfits, ?_⟩
      intro longer hlonger hfitting hne
      rcases List.suffix_cons_iff.mp hlonger with rfl | hrest
      · exact absurd hfitting hlarge
      · exact hlongest longer hrest hfitting hne

end Loop

/-! ## Retained events -/

/-- Memory holds windows of numbered logs, and the file the same ones. -/
structure StoreWindowed (options : StoreOptions) (store : RunnerStore)
    (committed : List HarnessEvent) : Prop where
  windowed : Windowed options.eventRetentionPerSession committed store.data.events
  onDisk : ∀ sessionId, ownProperty sessionId = true →
    (store.disk.elim Dict.empty RunnerStateData.events).get? sessionId =
      store.data.events.get? sessionId

theorem StoreWindowed.fresh (options : StoreOptions) :
    StoreWindowed options StoreRun.fresh.store [] where
  windowed := ⟨fun _ => Numbered.nil, fun _ => by simp [StoreRun.fresh, RunnerStore.fresh,
    emptyRunnerState, sessionLog]⟩
  onDisk _ _ := rfl

/-- After a restart that lost the events of `__proto__` the log of that session starts again. -/
theorem StoreWindowed.step {runtime : Runtime} {run : StoreRun} {committed : List HarnessEvent}
    (h : StoreWindowed runtime.options run.store committed) (step : StoreStep) :
    ∃ after, StoreWindowed runtime.options (run.step runtime step).store after := by
  cases step with
  | call moment action =>
    have heffect : EventEffect runtime.options run.store action.events
        (run.store.perform runtime moment action) := run.store.perform_effect action
    show ∃ after, StoreWindowed runtime.options (run.store.perform runtime moment action).state after
    generalize run.store.perform runtime moment action = attempt at heffect
    cases hfailure : attempt.failure with
    | some failure =>
      have hthrew := heffect.threw (by rw [hfailure]; exact Option.some_ne_none failure)
      refine ⟨committed, ?_, ?_⟩
      · rw [hthrew.1]
        exact h.windowed
      · rw [hthrew.2, hthrew.1]
        exact h.onDisk
    | none =>
      have hreturned := heffect.returned hfailure
      refine ⟨committed ++ action.events,
        h.windowed.append runtime.options.event_retention_pos hreturned.1, ?_⟩
      intro sessionId hown
      rcases hreturned.2 with hdisk | ⟨hsame, -⟩
      · rw [hdisk]
        rfl
      · rw [hsame]
        exact h.onDisk sessionId hown
  | restart now =>
    unfold StoreRun.step
    dsimp only
    cases hopen : run.store.reopen runtime now with
    | none => exact ⟨committed, h⟩
    | some opened =>
      have hdisk : opened.disk = run.store.disk := by
        unfold RunnerStore.reopen at hopen
        rcases Option.map_eq_some_iff.mp hopen with ⟨data, -, rfl⟩
        rfl
      have hlog : ∀ sessionId, sessionLog
          (committed.filter fun event => event.sessionId != protoKey) sessionId =
            if sessionId = protoKey then [] else sessionLog committed sessionId := by
        intro sessionId
        unfold sessionLog
        rw [List.filter_filter]
        split
        · rename_i hproto
          apply List.filter_eq_nil_iff.mpr
          intro event _ hboth
          simp [hproto] at hboth
        · rename_i hother
          apply List.filter_congr
          intro event _
          by_cases hsession : event.sessionId = sessionId
          · simp [hsession, hother]
          · simp [hsession]
      refine ⟨committed.filter fun event => event.sessionId != protoKey, ⟨?_, ?_⟩, ?_⟩
      · intro sessionId
        rw [hlog]
        split
        · exact Numbered.nil
        · exact h.windowed.numbered sessionId
      · intro sessionId
        rw [hlog]
        dsimp only
        split
        · rename_i hproto
          rw [hproto, reopen_proto hopen, Option.getD_none]
          simp
        · rename_i hother
          have hown : ownProperty sessionId = true := by simpa [ownProperty] using hother
          rw [reopen_events hopen hown, h.onDisk sessionId hown]
          exact h.windowed.window sessionId
      · intro sessionId hown
        dsimp only
        rw [hdisk]
        exact (reopen_events hopen hown).symm

theorem exists_log (runtime : Runtime) (steps : List StoreStep) (sessionId : String) :
    ∃ log, Numbered HarnessEvent.sequence log ∧ (∀ event ∈ log, event.sessionId = sessionId) ∧
      (run (StoreRun.step runtime) StoreRun.fresh steps).store.data.sessionEvents sessionId <:+
        log := by
  have hwindowed := always_of_inv
    (I := fun run : StoreRun => ∃ committed, StoreWindowed runtime.options run.store committed)
    (fun _ step h => h.elim fun _ h => h.step step) ⟨[], StoreWindowed.fresh runtime.options⟩ steps
  rcases hwindowed.last with ⟨committed, h⟩
  refine ⟨sessionLog committed sessionId, h.windowed.numbered sessionId, ?_, ?_⟩
  · intro event hevent
    simpa using (List.mem_filter.mp hevent).2
  · have hwindow := h.windowed.window sessionId
    unfold RunnerStateData.sessionEvents
    rw [hwindow]
    exact List.drop_suffix _ _

/-! ## The envelope -/

section Envelope

variable {log retained selected : List HarnessEvent}

theorem head?_suffix (hlog : Numbered HarnessEvent.sequence log) (hsuffix : selected <:+ log)
    (hnonempty : selected ≠ []) :
    ∃ event, selected.head? = some event ∧ event.sequence = log.length - selected.length + 1 := by
  have hlength := hsuffix.length_le
  have hpos := List.length_pos_of_ne_nil hnonempty
  have hstart : log.length - selected.length < log.length := by omega
  refine ⟨log[log.length - selected.length], ?_, hlog.getElem hstart⟩
  rw [← List.getElem?_eq_getElem hstart, ← List.head?_drop, ← List.suffix_iff_eq_drop.mp hsuffix]

theorem getLast?_suffix (hlog : Numbered HarnessEvent.sequence log) (hsuffix : selected <:+ log)
    (hnonempty : selected ≠ []) :
    ∃ event, selected.getLast? = some event ∧ event.sequence = log.length := by
  refine ⟨selected.getLast hnonempty, List.getLast?_eq_some_getLast hnonempty, ?_⟩
  have hne : log ≠ [] := by
    rintro rfl
    exact hnonempty (List.suffix_nil.mp hsuffix)
  rw [hsuffix.getLast hnonempty, List.getLast_eq_getElem hne,
    hlog.getElem (Nat.sub_lt (List.length_pos_of_ne_nil hne) Nat.one_pos)]
  have hpos := List.length_pos_of_ne_nil hne
  omega

theorem suffix_sequences (hlog : Numbered HarnessEvent.sequence log) (hsuffix : selected <:+ log) :
    selected.map HarnessEvent.sequence =
      List.range' (log.length - selected.length + 1) selected.length := by
  have hlength := hsuffix.length_le
  rw [List.suffix_iff_eq_drop.mp hsuffix, List.map_drop, hlog, List.drop_range', List.length_drop]
  congr 1
  omega

variable (commandId sessionId : String) (now : Int)

theorem snapshotOf_fields (hlog : Numbered HarnessEvent.sequence log) (hretained : retained <:+ log)
    (hselected : selected <:+ retained) (hnonempty : selected ≠ []) :
    ((snapshotOf commandId sessionId now retained selected).complete = true ↔ selected = log) ∧
      (snapshotOf commandId sessionId now retained selected).fromSequence =
        log.length - selected.length + 1 ∧
      (snapshotOf commandId sessionId now retained selected).throughSequence = log.length := by
  have hsuffix := hselected.trans hretained
  have hfull : retained ≠ [] := by
    rintro rfl
    exact hnonempty (List.suffix_nil.mp hselected)
  have hlengths := hretained.length_le
  have hlength := hselected.length_le
  rcases head?_suffix hlog hretained hfull with ⟨first, hfirst, hfirstNumber⟩
  rcases head?_suffix hlog hsuffix hnonempty with ⟨head, hhead, hheadNumber⟩
  rcases getLast?_suffix hlog hsuffix hnonempty with ⟨last, hlast, hlastNumber⟩
  have hcomplete : (snapshotOf commandId sessionId now retained selected).complete = true ↔
      selected = log := by
    unfold snapshotOf
    dsimp only
    rw [hfirst, Option.any_some, hfirstNumber, Bool.and_eq_true, beq_iff_eq, beq_iff_eq]
    constructor
    · rintro ⟨hone, hsame⟩
      exact hsuffix.eq_of_length (by omega)
    · rintro rfl
      omega
  refine ⟨hcomplete, ?_, ?_⟩
  · have hfrom : (snapshotOf commandId sessionId now retained selected).fromSequence =
        if (snapshotOf commandId sessionId now retained selected).complete then 1
        else head.sequence := by
      unfold snapshotOf
      dsimp only
      rw [hhead]
      rfl
    rw [hfrom]
    split
    · rename_i hall
      rw [hcomplete.mp hall]
      omega
    · exact hheadNumber
  · unfold snapshotOf
    dsimp only
    rw [hlast]
    exact hlastNumber

theorem snapshotOf_slice (hlog : Numbered HarnessEvent.sequence log)
    (hsession : ∀ event ∈ log, event.sessionId = sessionId) (hretained : retained <:+ log)
    (hselected : selected <:+ retained) (hnonempty : selected ≠ []) :
    SnapshotSlice (snapshotOf commandId sessionId now retained selected) := by
  have hfields := snapshotOf_fields commandId sessionId now hlog hretained hselected hnonempty
  have hsuffix := hselected.trans hretained
  constructor
  · exact hnonempty
  · exact fun event hevent => hsession event (hsuffix.subset hevent)
  · rw [hfields.2.1]
    exact suffix_sequences hlog hsuffix
  · intro hcomplete
    rw [hfields.2.1, hfields.1.mp hcomplete]
    omega
  · rw [hfields.2.1]
    exact Nat.succ_pos _

theorem snapshotOf_valid (schemas : PayloadSchemas) (hlog : Numbered HarnessEvent.sequence log)
    (hsession : ∀ event ∈ log, event.sessionId = sessionId) (hretained : retained <:+ log)
    (hselected : selected <:+ retained) (hnonempty : selected ≠ []) (hcommand : commandId ≠ "") :
    (snapshotOf commandId sessionId now retained selected).valid schemas = true ↔
      ∀ event ∈ selected, event.valid schemas = true := by
  have hfields := snapshotOf_fields commandId sessionId now hlog hretained hselected hnonempty
  have hslice := snapshotOf_slice commandId sessionId now hlog hsession hretained hselected
    hnonempty
  have hsuffix := hselected.trans hretained
  have hlength := hsuffix.length_le
  have hpos := List.length_pos_of_ne_nil hnonempty
  constructor
  · intro hvalid
    unfold SessionSnapshot.valid at hvalid
    simp only [Bool.and_eq_true] at hvalid
    exact List.all_eq_true.mp hvalid.1.1.1.1.1.2
  · intro hevents
    rcases List.exists_mem_of_ne_nil selected hnonempty with ⟨event, hevent⟩
    have hnamed : sessionId ≠ "" := by
      have hvalid := hevents event hevent
      rw [← hsession event (hsuffix.subset hevent)]
      unfold HarnessEvent.valid at hvalid
      simp only [Bool.and_eq_true, bne_iff_ne] at hvalid
      exact hvalid.1.1.1.1.1.1.1.1
    rcases getLast?_suffix hlog hsuffix hnonempty with ⟨last, hlast, hlastNumber⟩
    unfold SessionSnapshot.valid
    simp only [Bool.and_eq_true]
    refine ⟨⟨⟨⟨⟨⟨⟨⟨?_, ?_⟩, ?_⟩, ?_⟩, ?_⟩, ?_⟩, ?_⟩, ?_⟩, ?_⟩
    · exact bne_iff_ne.mpr hcommand
    · exact bne_iff_ne.mpr hnamed
    · simpa using hslice.nonempty
    · exact List.all_eq_true.mpr hevents
    · exact decide_eq_true hslice.positive
    · cases hcomplete : (snapshotOf commandId sessionId now retained selected).complete with
      | false => rfl
      | true => simpa using hslice.fromStart hcomplete
    · rw [hfields.2.1, hfields.2.2]
      exact decide_eq_true (by omega)
    · exact contiguousFrom_iff.mpr ⟨hslice.session, hslice.sequences⟩
    · rw [hfields.2.2]
      show (selected.getLast?.map HarnessEvent.sequence == some log.length) = true
      rw [hlast, Option.map_some, hlastNumber]
      exact beq_self_eq_true _

end Envelope

/-! ## What a snapshot is for -/

/-- A numbered log of the session whose end is what the store retains. -/
structure RetainedLog (store : RunnerStore) (sessionId : String) (log : List HarnessEvent) :
    Prop where
  numbered : Numbered HarnessEvent.sequence log
  session : ∀ event ∈ log, event.sessionId = sessionId
  retained : store.data.sessionEvents sessionId <:+ log

/-- The answer is the longest end of the retained events that fits, valid and complete exactly when
it is the whole log, and brings a consumer of the log to its end, or leaves it at a gap. -/
structure SnapshotAnswer (schemas : PayloadSchemas) (store : RunnerStore) (now : Int)
    (commandId sessionId : String) : Prop where
  absent : store.sessionSnapshot schemas now commandId sessionId = none →
    ∀ selected, selected <:+ store.data.sessionEvents sessionId → selected ≠ [] →
      fitsPayload schemas (snapshotOf commandId sessionId now
        (store.data.sessionEvents sessionId) selected) = false
  longest : ∀ snapshot, store.sessionSnapshot schemas now commandId sessionId = some snapshot →
    snapshot.events <:+ store.data.sessionEvents sessionId ∧
      fitsPayload schemas snapshot = true ∧
      ∀ longer, longer <:+ store.data.sessionEvents sessionId →
        snapshot.events.length < longer.length →
        fitsPayload schemas (snapshotOf commandId sessionId now
          (store.data.sessionEvents sessionId) longer) = false
  valid : ∀ snapshot, store.sessionSnapshot schemas now commandId sessionId = some snapshot →
    snapshot.valid schemas = true
  whole : ∀ snapshot, store.sessionSnapshot schemas now commandId sessionId = some snapshot →
    ∀ log, RetainedLog store sessionId log → (snapshot.complete = true ↔ snapshot.events = log)
  applied : ∀ snapshot, store.sessionSnapshot schemas now commandId sessionId = some snapshot →
    ∀ log, RetainedLog store sessionId log → ∀ (texts : JsonTexts) (inputs : List ReducerInput),
      (∀ input ∈ inputs, input.valid schemas = true) →
      ∀ reducer, reducer = run (SessionEventReducer.step texts) SessionEventReducer.fresh inputs →
        reducer.held sessionId <+: log →
        if snapshot.complete = true ∨ snapshot.fromSequence ≤ (reducer.held sessionId).length + 1
        then (reducer.applySnapshot texts ⟨snapshot, []⟩).1.refusal = none ∧
          (reducer.applySnapshot texts ⟨snapshot, []⟩).2.held sessionId = log
        else (reducer.applySnapshot texts ⟨snapshot, []⟩).1.refusal =
            some (.gap ((reducer.held sessionId).length + 1)) ∧
          (reducer.applySnapshot texts ⟨snapshot, []⟩).2 = reducer

/-- Events that were appended without being valid do not reach a snapshot that fits. -/
def RetainsValid (schemas : PayloadSchemas) (store : RunnerStore) (now : Int)
    (commandId sessionId : String) : Prop :=
  ∀ selected, selected <:+ store.data.sessionEvents sessionId →
    fitsPayload schemas (snapshotOf commandId sessionId now
      (store.data.sessionEvents sessionId) selected) = true →
    ∀ event ∈ selected, event.valid schemas = true

theorem applySnapshot_suffix (texts : JsonTexts) {reducer : SessionEventReducer}
    (hsound : reducer.Sound) {log : List HarnessEvent} {snapshot : SessionSnapshot}
    (hslice : SnapshotSlice snapshot) (hlog : Numbered HarnessEvent.sequence log)
    (hsuffix : snapshot.events <:+ log) (hcomplete : snapshot.complete = true → snapshot.events = log)
    (hheld : reducer.held snapshot.sessionId <+: log) :
    if snapshot.complete = true ∨
        snapshot.fromSequence ≤ (reducer.held snapshot.sessionId).length + 1
    then (reducer.applySnapshot texts ⟨snapshot, []⟩).1.refusal = none ∧
      (reducer.applySnapshot texts ⟨snapshot, []⟩).2.held snapshot.sessionId = log
    else (reducer.applySnapshot texts ⟨snapshot, []⟩).1.refusal =
        some (.gap ((reducer.held snapshot.sessionId).length + 1)) ∧
      (reducer.applySnapshot texts ⟨snapshot, []⟩).2 = reducer := by
  have hspec := SessionEventReducer.applySnapshot_spec texts
    (show SnapshotSlice (SnapshotPayload.mk snapshot []).toSessionSnapshot from hslice) hsound
  have hbatch : (reducer.applySnapshot texts ⟨snapshot, []⟩).2.held snapshot.sessionId =
      (reducer.batch texts snapshot).2 := by
    rw [hspec.2.2.1 snapshot.sessionId]
    exact if_pos rfl
  have hlength := hsuffix.length_le
  have hpos := List.length_pos_of_ne_nil hslice.nonempty
  -- the events are the log from the place before the first sequence
  have hplace : snapshot.fromSequence = log.length - snapshot.events.length + 1 := by
    have hsequences := suffix_sequences hlog hsuffix
    rw [hslice.sequences] at hsequences
    have hhead := congrArg List.head? hsequences
    rw [List.head?_range', List.head?_range', if_neg (by omega), if_neg (by omega)] at hhead
    exact Option.some.inj hhead
  have hdrop := List.suffix_iff_eq_drop.mp hsuffix
  have hsame := sameEvent_self texts
  cases hkind : snapshot.complete with
  | true =>
    rw [if_pos (Or.inl rfl), hspec.1, hbatch]
    unfold SessionEventReducer.batch
    rw [hkind, if_pos rfl]
    exact ⟨rfl, hcomplete hkind⟩
  | false =>
    by_cases hreached : snapshot.fromSequence ≤ (reducer.held snapshot.sessionId).length + 1
    · rw [if_pos (Or.inr hreached), hspec.1, hbatch]
      unfold SessionEventReducer.batch
      rw [hkind, if_neg Bool.false_ne_true, hdrop,
        Reception.acceptAll_reached hlog hheld (by omega) hsame]
      exact ⟨rfl, rfl⟩
    · rw [if_neg (by simp [hreached])]
      have hrefusal : (reducer.applySnapshot texts ⟨snapshot, []⟩).1.refusal =
          some (.gap ((reducer.held snapshot.sessionId).length + 1)) := by
        rw [hspec.1]
        unfold SessionEventReducer.batch
        rw [hkind, if_neg Bool.false_ne_true, hdrop,
          Reception.acceptAll_beyond hlog hheld (by omega) (by omega) hsame]
      exact ⟨hrefusal, hspec.2.2.2 (by rw [hrefusal]; exact Option.some_ne_none _)⟩

/-- What `recordTurnFailure` records of an error. -/
def turnFailure (message : String) : HarnessEvent :=
  { sessionId := "s", turnId := some "t", sequence := 1, eventType := "turn.failed", createdAt := 0
    data := .obj (.ofList [("status", .str "failed"),
      ("final_output", .obj (.ofList [("exit_reason", .str "harness_turn_failed")])),
      ("error", .obj (.ofList [("code", .str "harness_turn_failed"), ("message", .str message),
        ("retryable", .bool false)]))]) }

/-- The schema of a failed turn asks for a message that is not empty. -/
def messageSchemas : PayloadSchemas :=
  { plainSchemas with
    eventData := fun eventType data => eventType != "turn.failed" ||
      (data.field? "error").any fun error => error.field? "message" != some (.str "") }

def messageRuntime : Runtime := { plainRuntime with schemas := messageSchemas }

def recordFailure (message : String) : List StoreStep :=
  [.call ⟨0, true⟩ (.appendEvent (turnFailure message))]

end HarnessControl.State
