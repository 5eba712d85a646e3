import HarnessControl.State.Machine

/-!
# What is written can be read back

`persist` writes the whole of the data and `readRunnerState` validates all of it, so one value that
its schema rejects makes the file unreadable, and one key that a record schema skips is lost.  The
validating operations store parsed values; the plain event append and the two receipt writers store
what they are given.
-/

namespace HarnessControl.State

open HarnessControl.Library HarnessControl.Protocol

/-- Every entry stands under a key that a reload keeps, and its value satisfies `p`. -/
def Entries {α : Type} (p : α → Prop) (d : Dict String α) : Prop :=
  ∀ key value, d.get? key = some value → ownProperty key = true ∧ p value

namespace Entries

variable {α : Type} {p : α → Prop} {d : Dict String α}

theorem empty : Entries p (Dict.empty : Dict String α) := fun _ _ h => nomatch h

theorem set (h : Entries p d) {key : String} {value : α} (hkey : ownProperty key = true)
    (hvalue : p value) : Entries p (d.set key value) := by
  intro other found hfound
  rw [Dict.get?_set] at hfound
  by_cases heq : other = key
  · rw [if_pos heq] at hfound
    cases hfound
    exact ⟨heq ▸ hkey, hvalue⟩
  · rw [if_neg heq] at hfound
    exact h other found hfound

theorem filter (h : Entries p d) (keep : String → α → Bool) : Entries p (d.filter keep) := by
  intro key value hfound
  rw [Dict.get?_filter, Option.filter_eq_some_iff] at hfound
  exact h key value hfound.1

theorem erase (h : Entries p d) (key : String) : Entries p (d.erase key) := h.filter _

theorem restore (h : Entries p d) {before : Dict String α} (hbefore : Entries p before)
    (key : String) : Entries p (d.restore key (before.get? key)) := by
  unfold Dict.restore
  cases hprevious : before.get? key with
  | none => exact h.erase key
  | some value =>
    have hentry := hbefore key value hprevious
    exact h.set hentry.1 hentry.2

theorem parse {s : Schema α} (h : Entries s.Fixed d) : (s.dict ownProperty).parse d = some d :=
  Schema.dict_fixed h

end Entries

/-- Every entry of the data is read back as it was written. -/
structure Readable (runtime : Runtime) (data : RunnerStateData) : Prop where
  events : Entries (eventSchema runtime.schemas).list.Fixed data.events
  commandReceipts : Entries (commandReceiptSchema runtime.schemas).Fixed data.commandReceipts
  localActionReceipts :
    Entries (localActionReceiptSchema runtime.schemas).Fixed data.localActionReceipts
  mcpReviews : Entries (mcpReviewSchema runtime.host runtime.schemas).Fixed data.mcpReviews
  nativeConversations :
    Entries (nativeConversationSchema runtime.schemas).Fixed data.nativeConversations
  nativeWork : Entries (nativeWorkStateSchema runtime.schemas).Fixed data.nativeWork
  exitedSessions : Entries (fun _ => True) data.exitedSessions

variable {runtime : Runtime}

theorem Readable.empty : Readable runtime emptyRunnerState :=
  ⟨.empty, .empty, .empty, .empty, .empty, .empty, .empty⟩

variable {data : RunnerStateData}

theorem Readable.parse (h : Readable runtime data) :
    data.parse runtime = some data := by
  have hexits : ((Schema.refine fun _ : Unit => true).dict ownProperty).parse
      data.exitedSessions = some data.exitedSessions :=
    Schema.dict_fixed fun key value hget =>
      ⟨(h.exitedSessions key value hget).1, Schema.refine_fixed.mpr rfl⟩
  unfold RunnerStateData.parse
  simp only [h.events.parse, h.commandReceipts.parse, h.localActionReceipts.parse,
    h.mcpReviews.parse, h.nativeConversations.parse, h.nativeWork.parse, hexits,
    Option.bind_eq_bind, Option.bind_some, Option.pure_def]

/-! ## Opening a store -/

theorem Readable.markExits (h : Readable runtime data) :
    Readable runtime data.markExits := by
  refine ⟨h.events, h.commandReceipts, h.localActionReceipts, h.mcpReviews, h.nativeConversations,
    h.nativeWork, ?_⟩
  unfold RunnerStateData.markExits
  dsimp only
  have hkeys : ∀ entry ∈ data.events.entries, ownProperty entry.1 = true := fun entry hentry =>
    (h.events entry.1 entry.2 (Dict.get?_eq_some_iff.mpr hentry)).1
  have hexits := h.exitedSessions
  revert hkeys
  generalize data.events.entries = entries
  generalize data.exitedSessions = exits at hexits
  intro hkeys
  induction entries generalizing exits with
  | nil => exact hexits
  | cons entry rest ih =>
    rw [List.forall_mem_cons] at hkeys
    rw [List.foldl_cons]
    apply ih _ _ hkeys.2
    split
    · exact hexits.set hkeys.1 trivial
    · exact hexits

theorem Readable.prune (h : Readable runtime data)
    (options : StoreOptions) (now : Int) : Readable runtime (data.prune options now) :=
  ⟨h.events, h.commandReceipts.filter _, h.localActionReceipts.filter _, h.mcpReviews,
    h.nativeConversations, h.nativeWork, h.exitedSessions⟩

/-! ## Appending events -/

theorem list_fixed {events : List HarnessEvent} :
    (eventSchema runtime.schemas).list.Fixed events ↔
      ∀ event ∈ events, event.valid runtime.schemas = true := by
  unfold Schema.Fixed
  change (eventSchema runtime.schemas).parseList events = some events ↔ _
  rw [Schema.parseList_fixed]
  exact forall₂_congr fun event _ => Schema.refine_fixed

theorem Readable.sessionEvents (h : Readable runtime data)
    (sessionId : String) :
    ∀ event ∈ data.sessionEvents sessionId, event.valid runtime.schemas = true := by
  unfold RunnerStateData.sessionEvents
  cases hget : data.events.get? sessionId with
  | none => exact fun event hevent => nomatch hevent
  | some events => exact list_fixed.mp (h.events sessionId events hget).2

theorem mem_of_mem_shiftTo {retention : Nat} {events : List HarnessEvent} {event : HarnessEvent}
    (h : event ∈ shiftTo retention events) : event ∈ events := by
  induction events with
  | nil => cases h
  | cons first rest ih =>
    unfold shiftTo at h
    split at h
    · exact List.mem_cons_of_mem first (ih h)
    · exact h

theorem Readable.append (h : Readable runtime data) {event : HarnessEvent}
    (hvalid : event.valid runtime.schemas = true) (hkey : ownProperty event.sessionId = true) :
    Readable runtime (data.append runtime.options event).1 := by
  unfold RunnerStateData.append
  dsimp only
  split
  · exact h
  · refine ⟨h.events.set hkey (list_fixed.mpr ?_), h.commandReceipts, h.localActionReceipts,
      h.mcpReviews, h.nativeConversations, h.nativeWork, ?_⟩
    · intro kept hkept
      rcases List.mem_append.mp (mem_of_mem_shiftTo hkept) with hold | hnew
      · exact h.sessionEvents event.sessionId kept hold
      · cases List.mem_singleton.mp hnew
        exact hvalid
    · dsimp only
      split
      · exact h.exitedSessions.set hkey trivial
      · exact h.exitedSessions

theorem Readable.appendParsed (h : Readable runtime data)
    {event : HarnessEvent} (hkey : ownProperty event.sessionId = true) :
    Readable runtime (data.appendParsed runtime event).1 := by
  unfold RunnerStateData.appendParsed
  split
  · rename_i hvalid
    exact h.append hvalid hkey
  · exact h

theorem Readable.appendOptional (h : Readable runtime data)
    {event : Option HarnessEvent} (hkey : ∀ e ∈ event, ownProperty e.sessionId = true) :
    Readable runtime (data.appendOptional runtime event).1 := by
  cases event with
  | none => exact h
  | some event => exact h.appendParsed (hkey event rfl)

theorem Readable.appendCleanup (h : Readable runtime data)
    {sessionId : String} (hkey : ownProperty sessionId = true) (events : List HarnessEvent) :
    Readable runtime (data.appendCleanup runtime sessionId events).1 := by
  induction events generalizing data with
  | nil => exact h
  | cons event rest ih =>
    unfold RunnerStateData.appendCleanup
    split
    · exact h
    · rename_i hsession
      have hown : ownProperty event.sessionId = true := by
        rw [not_not.mp hsession]
        exact hkey
      have hone := h.appendParsed hown
      cases hresult : data.appendParsed runtime event with
      | mk next failure =>
        rw [hresult] at hone
        cases failure with
        | none => exact ih hone
        | some failure => exact hone

/-! ## The effect of each call -/

/-- Memory and file hold nothing that a reload refuses or loses. -/
structure StoreReadable (runtime : Runtime) (store : RunnerStore) : Prop where
  memory : Readable runtime store.data
  file : ∀ data ∈ store.disk, Readable runtime data

/-- The values that are stored unparsed satisfy their schemas, and no key is `__proto__`. -/
def StoreAction.readable (runtime : Runtime) : StoreAction → Prop
  | .appendEvent event =>
    event.valid runtime.schemas = true ∧ ownProperty event.sessionId = true
  | .saveMcpReview review _ => ownProperty review.start.sessionId = true
  | .saveNativeConversation key _ => ownProperty key = true
  | .saveNativeWorkState sessionId _ _ => ownProperty sessionId = true
  | .setCommandReceipt commandId receipt =>
    ownProperty commandId = true ∧ (commandReceiptSchema runtime.schemas).Fixed receipt
  | .setLocalActionReceipt requestId receipt =>
    ownProperty requestId = true ∧ (localActionReceiptSchema runtime.schemas).Fixed receipt
  | _ => True

instance (runtime : Runtime) (action : StoreAction) : Decidable (action.readable runtime) := by
  cases action <;> unfold StoreAction.readable <;> infer_instance

variable {store : RunnerStore} {moment : Moment}

theorem StoreReadable.attempt (h : StoreReadable runtime store) {written : Bool}
    {change : RunnerStateData × Option StoreFailure} {rollback : RunnerStateData → RunnerStateData}
    (hchange : Readable runtime change.1) (hrollback : Readable runtime (rollback change.1)) :
    StoreReadable runtime (store.attempt written change rollback).state := by
  rcases store.attempt_cases written change rollback with ⟨-, -, heq⟩ | ⟨-, heq⟩
  · rw [heq]
    refine ⟨hchange, fun data hdata => ?_⟩
    cases hdata
    exact hchange
  · rw [heq]
    exact ⟨hrollback, h.file⟩

theorem StoreReadable.appendEvent (h : StoreReadable runtime store) {event : HarnessEvent}
    (hvalid : event.valid runtime.schemas = true) (hkey : ownProperty event.sessionId = true) :
    StoreReadable runtime (store.appendEvent runtime.options moment event).state := by
  have hchange := h.memory.append hvalid hkey
  exact h.attempt hchange
    ⟨hchange.events.restore h.memory.events _, hchange.commandReceipts,
      hchange.localActionReceipts, hchange.mcpReviews, hchange.nativeConversations,
      hchange.nativeWork, hchange.exitedSessions.restore h.memory.exitedSessions _⟩

theorem StoreReadable.persistMcpChange (h : StoreReadable runtime store) {sessionId : String}
    {change : RunnerStateData × Option StoreFailure} (hchange : Readable runtime change.1) :
    StoreReadable runtime (store.persistMcpChange moment sessionId change).state :=
  h.attempt hchange
    ⟨hchange.events.restore h.memory.events _, hchange.commandReceipts,
      hchange.localActionReceipts, hchange.mcpReviews.restore h.memory.mcpReviews _,
      hchange.nativeConversations, hchange.nativeWork,
      hchange.exitedSessions.restore h.memory.exitedSessions _⟩

theorem StoreReadable.saveMcpReview (h : StoreReadable runtime store) {review : McpReview}
    (event : Option HarnessEvent) (hkey : ownProperty review.start.sessionId = true) :
    StoreReadable runtime (store.saveMcpReview runtime moment review event).state := by
  unfold RunnerStore.saveMcpReview
  split
  · exact h
  · rename_i parsed hparse
    have hstart : parsed.start = review.start := by
      rw [(Schema.normalized_parse hparse).1]
      rfl
    rw [← hstart] at hkey
    split
    · exact h
    · rename_i haccepted
      have hevent : ∀ e ∈ event, ownProperty e.sessionId = true := fun e he =>
        (accepted_of_saveMcpReview haccepted).session e he ▸ hkey
      apply h.persistMcpChange
      have hset : Readable runtime
          { store.data with
            mcpReviews := store.data.mcpReviews.set parsed.start.sessionId parsed } :=
        { h.memory with
          mcpReviews := h.memory.mcpReviews.set hkey (Schema.Fixed.of_parse hparse) }
      exact hset.appendOptional hevent

theorem StoreReadable.clearMcpReview (h : StoreReadable runtime store)
    (sessionId requestId : String) (events : List HarnessEvent) :
    StoreReadable runtime
      (store.clearMcpReview runtime moment sessionId requestId events).state := by
  unfold RunnerStore.clearMcpReview
  split
  · rename_i hmatches
    rcases (Option.any_eq_true _ _).mp hmatches with ⟨review, hreview, -⟩
    have hkey := (h.memory.mcpReviews sessionId review hreview).1
    have hcleanup := h.memory.appendCleanup hkey events
    dsimp only
    generalize store.data.appendCleanup runtime sessionId events = cleaned at hcleanup
    rcases cleaned with ⟨data, failure⟩
    apply h.persistMcpChange
    cases failure with
    | none => exact { hcleanup with mcpReviews := hcleanup.mcpReviews.erase sessionId }
    | some failure => exact hcleanup
  · exact h

theorem StoreReadable.saveNativeConversation (h : StoreReadable runtime store) {key : String}
    (conversation : NativeConversation) (hkey : ownProperty key = true) :
    StoreReadable runtime
      (store.saveNativeConversation runtime moment key conversation).state := by
  unfold RunnerStore.saveNativeConversation
  split
  · exact h
  · split
    · exact h
    · rename_i hparse
      dsimp only
      split
      · exact h
      · have hset := h.memory.nativeConversations.set hkey (Schema.Fixed.of_parse hparse)
        exact h.attempt { h.memory with nativeConversations := hset }
          { h.memory with
            nativeConversations := hset.restore h.memory.nativeConversations key }

theorem StoreReadable.retireNativeConversation (h : StoreReadable runtime store) (key : String) :
    StoreReadable runtime (store.retireNativeConversation moment key).state := by
  unfold RunnerStore.retireNativeConversation
  dsimp only
  split
  · exact h
  · have herase := h.memory.nativeConversations.erase key
    apply h.attempt { h.memory with nativeConversations := herase }
    split
    · exact { h.memory with
        nativeConversations := herase.restore h.memory.nativeConversations key }
    · exact { h.memory with nativeConversations := herase }

theorem StoreReadable.saveNativeWorkState (h : StoreReadable runtime store) {sessionId : String}
    (state : NativeWorkState) (event : Option HarnessEvent)
    (hkey : ownProperty sessionId = true) :
    StoreReadable runtime
      (store.saveNativeWorkState runtime moment sessionId state event).state := by
  unfold RunnerStore.saveNativeWorkState
  split
  · exact h
  · rename_i parsed hparse
    split
    · exact h
    · split
      · exact h
      · rename_i hsession
        have hevent : ∀ e ∈ event, ownProperty e.sessionId = true := by
          intro e he
          rw [Option.mem_def] at he
          subst he
          have hid : e.sessionId = sessionId := by simpa using hsession
          rw [hid]
          exact hkey
        have hset : Readable runtime
            { store.data with nativeWork := store.data.nativeWork.set sessionId parsed } :=
          { h.memory with
            nativeWork := h.memory.nativeWork.set hkey (Schema.Fixed.of_parse hparse) }
        have hchange := hset.appendOptional hevent
        exact h.attempt hchange
          { hchange with
            events := hchange.events.restore h.memory.events sessionId
            nativeWork := hchange.nativeWork.restore h.memory.nativeWork sessionId }

theorem StoreReadable.removeEmptyNativeWorkState (h : StoreReadable runtime store)
    (sessionId : String) :
    StoreReadable runtime (store.removeEmptyNativeWorkState moment sessionId).state := by
  unfold RunnerStore.removeEmptyNativeWorkState
  split
  · exact h
  · rename_i previous hprevious
    have hentry := h.memory.nativeWork sessionId previous hprevious
    split
    · have herase := h.memory.nativeWork.erase sessionId
      exact h.attempt { h.memory with nativeWork := herase }
        { h.memory with nativeWork := herase.set hentry.1 hentry.2 }
    · exact h

theorem StoreReadable.beginNativePolicyControl (h : StoreReadable runtime store) (key : String)
    (receipt : PolicyControlReceipt) :
    StoreReadable runtime
      (store.beginNativePolicyControl runtime moment key receipt).state := by
  unfold RunnerStore.beginNativePolicyControl
  dsimp only
  split
  · exact h
  · split
    · rename_i previous work hprevious hwork
      have hentry := h.memory.nativeConversations key previous hprevious
      split
      · exact h
      · split
        · exact h
        · split
          · exact h
          · split
            · rename_i hvalid
              have hset := h.memory.nativeConversations.set hentry.1
                (Schema.refine_fixed.mpr hvalid)
              exact h.attempt { h.memory with nativeConversations := hset }
                { h.memory with nativeConversations := hset.set hentry.1 hentry.2 }
            · exact h
    · exact h

theorem StoreReadable.completeNativePolicyControl (h : StoreReadable runtime store)
    (key sessionId commandId : String) (result : ConversationResult)
    (event : Option HarnessEvent) :
    StoreReadable runtime
      (store.completeNativePolicyControl runtime moment key sessionId commandId result
        event).state := by
  unfold RunnerStore.completeNativePolicyControl
  split
  · exact h
  · rename_i previous work receipt hfound
    simp only [Option.bind_eq_bind, Option.bind_eq_some_iff, Option.pure_def, Option.some.injEq,
      Prod.mk.injEq] at hfound
    rcases hfound with ⟨previous, hprevious, work, hwork, receipt, -, rfl, rfl, rfl⟩
    have hconversation := h.memory.nativeConversations key previous hprevious
    have hstate := h.memory.nativeWork sessionId work hwork
    dsimp only
    split
    · exact h
    · rename_i hvalid
      simp only [Bool.not_eq_true', Bool.not_eq_false, Bool.and_eq_true] at hvalid
      split
      · exact h
      · rename_i hsession
        have hevent : ∀ e ∈ event, ownProperty e.sessionId = true := by
          intro e he
          rw [Option.mem_def] at he
          subst he
          simp only [Option.any_some, Bool.or_eq_true, bne_iff_ne, not_or, not_not] at hsession
          rw [hsession.1]
          exact hstate.1
        have hrebound : (nativeWorkStateSchema runtime.schemas).Fixed
            (work.rebound receipt.targetBindingHash) := by
          have hkept := (Schema.normalized_fixed.mp hstate.2).1
          exact Schema.normalized_fixed.mpr
            ⟨congrArg (fun custody => { work.rebound receipt.targetBindingHash with custody })
              (congrArg NativeWorkState.custody hkept), hvalid.1.2⟩
        have hset : Readable runtime
            { store.data with
              nativeConversations := store.data.nativeConversations.set key
                (previous.rebound moment.now receipt
                  { receipt with phase := .completed, result := some result })
              nativeWork := store.data.nativeWork.set sessionId
                (work.rebound receipt.targetBindingHash) } :=
          { h.memory with
            nativeConversations := h.memory.nativeConversations.set hconversation.1
              (Schema.refine_fixed.mpr hvalid.2)
            nativeWork := h.memory.nativeWork.set hstate.1 hrebound }
        have hchange := hset.appendOptional hevent
        exact h.attempt hchange
          { hchange with
            nativeConversations := hchange.nativeConversations.set hconversation.1
              hconversation.2
            nativeWork := hchange.nativeWork.set hstate.1 hstate.2
            events := hchange.events.restore h.memory.events sessionId }

theorem StoreReadable.write (h : StoreReadable runtime store) {data : RunnerStateData}
    (hdata : Readable runtime data) : StoreReadable runtime (store.write moment data).state :=
  h.attempt hdata hdata

theorem StoreReadable.perform (h : StoreReadable runtime store) {action : StoreAction}
    (haction : action.readable runtime) :
    StoreReadable runtime (store.perform runtime moment action).state := by
  cases action with
  | appendEvent event => exact h.appendEvent haction.1 haction.2
  | saveMcpReview review event => exact h.saveMcpReview event haction
  | clearMcpReview sessionId requestId events =>
    exact h.clearMcpReview sessionId requestId events
  | saveNativeConversation key conversation =>
    exact h.saveNativeConversation conversation haction
  | retireNativeConversation key => exact h.retireNativeConversation key
  | saveNativeWorkState sessionId state event =>
    exact h.saveNativeWorkState state event haction
  | removeEmptyNativeWorkState sessionId => exact h.removeEmptyNativeWorkState sessionId
  | beginNativePolicyControl key receipt => exact h.beginNativePolicyControl key receipt
  | completeNativePolicyControl key sessionId commandId result event =>
    exact h.completeNativePolicyControl key sessionId commandId result event
  | getReceipt =>
    change StoreReadable runtime (store.pruneReceipts runtime.options moment).state
    unfold RunnerStore.pruneReceipts
    dsimp only
    split
    · exact h
    · exact h.write (h.memory.prune _ _)
  | setCommandReceipt commandId receipt =>
    apply h.write
    apply Readable.prune
    exact { h.memory with
      commandReceipts := h.memory.commandReceipts.set haction.1 haction.2 }
  | setLocalActionReceipt requestId receipt =>
    apply h.write
    apply Readable.prune
    exact { h.memory with
      localActionReceipts := h.memory.localActionReceipts.set haction.1 haction.2 }

/-! ## Runs -/

/-- The calls of the step store nothing that a reload refuses or loses. -/
def storesReadable (runtime : Runtime) (_ : StoreRun) : StoreStep → Prop
  | .call _ action => action.readable runtime
  | .restart _ => True

instance (runtime : Runtime) (run : StoreRun) (step : StoreStep) :
    Decidable (storesReadable runtime run step) := by
  cases step <;> unfold storesReadable <;> infer_instance

theorem StoreReadable.reopen (h : StoreReadable runtime store) {now : Int} {opened : RunnerStore}
    (hopen : store.reopen runtime now = some opened) : StoreReadable runtime opened := by
  unfold RunnerStore.reopen at hopen
  rcases Option.map_eq_some_iff.mp hopen with ⟨data, hread, rfl⟩
  have hdata : Readable runtime data := by
    cases hdisk : store.disk with
    | none =>
      rw [hdisk] at hread
      cases hread
      exact Readable.empty
    | some file =>
      have hfile := h.file file hdisk
      rw [hdisk] at hread
      change file.parse runtime = some data at hread
      rw [hfile.parse] at hread
      cases hread
      exact hfile
  exact ⟨hdata.markExits.prune _ _, h.file⟩

/-- Every file that such a run writes is read back as the data that was written. -/
theorem written_read_back (runtime : Runtime) (steps : List StoreStep)
    (hsteps : Meets (StoreRun.step runtime) (storesReadable runtime) StoreRun.fresh steps) :
    Always (StoreRun.step runtime)
      (fun run => ∀ file ∈ run.store.disk, readRunnerState runtime (some file) = some file)
      StoreRun.fresh steps := by
  have hreadable := always_of_meets (I := fun run : StoreRun => StoreReadable runtime run.store)
    (fun run step h hstep => by
      cases step with
      | call moment action => exact h.perform hstep
      | restart now =>
        unfold StoreRun.step
        dsimp only
        cases hopen : run.store.reopen runtime now with
        | none => exact h
        | some opened => exact h.reopen hopen)
    (show StoreReadable runtime StoreRun.fresh.store from
      ⟨Readable.empty, fun _ hdata => nomatch hdata⟩) hsteps
  exact hreadable.mono fun run h file hfile => (h.file file hfile).parse

theorem written_read_back_twice :
    Always (StoreRun.step plainRuntime)
      (fun run => ∀ file ∈ run.store.disk, readRunnerState plainRuntime (some file) = some file)
      StoreRun.fresh
      [.call ⟨0, true⟩ (.setCommandReceipt "command-1" (.ack "hash" 0 none none)), .restart 1,
        .call ⟨2, true⟩
          (.appendEvent ⟨"session-1", none, 1, "session.started", 2, .obj .nil⟩)] :=
  written_read_back plainRuntime _ (by decide)

end HarnessControl.State
