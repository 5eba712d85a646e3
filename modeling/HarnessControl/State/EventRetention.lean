import Mathlib
import HarnessControl.Library.EventLog
import HarnessControl.State.Machine

/-!
# Event retention and replay

Six operations append events, each with its own rollback; retention cuts the lists and a restart
reads them back.  Every call has the same effect on the events, and from it every session keeps the
last events of its numbered log.
-/

namespace HarnessControl.State

open HarnessControl.Library HarnessControl.Protocol

variable {runtime : Runtime} {moment : Moment} {store : RunnerStore}

/-! ## The effect of each call -/

theorem RunnerStore.appendEvent_effect {options : StoreOptions} (event : HarnessEvent) :
    EventEffect options store [event] (store.appendEvent options moment event) := by
  unfold RunnerStore.appendEvent
  apply RunnerStore.attempt_effect
  · rcases store.data.append_events options event with ⟨h, -⟩ | ⟨-, -, h⟩
    · simp only [h]
      exact Dict.restore_get? store.data.events event.sessionId
    · simp only [h]
      exact Dict.restore_set store.data.events event.sessionId _
  · exact RunnerStateData.append_appended

theorem RunnerStore.saveMcpReview_effect (review : McpReview) (event : Option HarnessEvent) :
    EventEffect runtime.options store event.toList
      (store.saveMcpReview runtime moment review event) := by
  unfold RunnerStore.saveMcpReview
  split
  · exact store.refuse_effect _ _ _
  · rename_i parsed _
    split
    · exact store.refuse_effect _ _ _
    · rename_i haccepted
      have hsession := (accepted_of_saveMcpReview haccepted).session
      dsimp only
      unfold RunnerStore.persistMcpChange
      apply RunnerStore.attempt_effect
      · exact RunnerStateData.appendOptional_restore runtime rfl hsession
      · exact RunnerStateData.appendOptional_appended

theorem RunnerStateData.appendCleanup_events (runtime : Runtime) (sessionId : String)
    (events : List HarnessEvent) (data : RunnerStateData) :
    ((data.appendCleanup runtime sessionId events).1.events = data.events ∨
      ∃ list, (data.appendCleanup runtime sessionId events).1.events =
        data.events.set sessionId list) ∧
    ((data.appendCleanup runtime sessionId events).2 = none →
      Appended runtime.options.eventRetentionPerSession events data.events
        (data.appendCleanup runtime sessionId events).1.events) := by
  induction events generalizing data with
  | nil => exact ⟨Or.inl rfl, fun _ => rfl⟩
  | cons event rest ih =>
    unfold RunnerStateData.appendCleanup
    by_cases hsession : event.sessionId = sessionId
    · rw [if_neg (not_not_intro hsession)]
      have hone := data.appendParsed_events runtime event
      have happ : (data.appendParsed runtime event).2 = none →
          Appended runtime.options.eventRetentionPerSession [event] data.events
            (data.appendParsed runtime event).1.events := RunnerStateData.appendParsed_appended
      subst hsession
      cases hresult : data.appendParsed runtime event with
      | mk next failure =>
        rw [hresult] at hone happ
        cases failure with
        | some failure => exact ⟨hone, fun h => by cases h⟩
        | none =>
          have hseq := happ rfl
          rcases ih next with ⟨hshape, happended⟩
          constructor
          · rcases hshape with h | ⟨list, h⟩
            · change (next.appendCleanup runtime event.sessionId rest).1.events = _ ∨ _
              rw [h]
              exact hone
            · right
              refine ⟨list, ?_⟩
              change (next.appendCleanup runtime event.sessionId rest).1.events = _
              rw [h]
              rcases hone with h1 | ⟨first, h1⟩
              · rw [h1]
              · rw [h1, Dict.set_set]
          · intro h
            exact ⟨hseq.1, hseq.2 ▸ happended h⟩
    · rw [if_pos hsession]
      exact ⟨Or.inl rfl, fun h => by cases h⟩

theorem RunnerStore.clearMcpReview_effect (sessionId requestId : String)
    (events : List HarnessEvent) :
    EventEffect runtime.options store events
      (store.clearMcpReview runtime moment sessionId requestId events) := by
  unfold RunnerStore.clearMcpReview
  split
  · have hcleanup := store.data.appendCleanup_events runtime sessionId events
    generalize store.data.appendCleanup runtime sessionId events = cleaned at hcleanup
    rcases cleaned with ⟨data, failure⟩
    dsimp only
    unfold RunnerStore.persistMcpChange
    apply RunnerStore.attempt_effect
    · have hundo : data.events.restore sessionId (store.data.events.get? sessionId) =
          store.data.events := by
        rcases hcleanup.1 with h | ⟨list, h⟩
        · have h' : data.events = store.data.events := h
          rw [h']
          exact Dict.restore_get? store.data.events sessionId
        · have h' : data.events = store.data.events.set sessionId list := h
          rw [h']
          exact Dict.restore_set store.data.events sessionId list
      cases failure <;> exact hundo
    · cases failure with
      | none => exact fun _ => hcleanup.2 rfl
      | some failure => exact fun h => by cases h
  · exact store.refuse_effect _ _ _

theorem RunnerStore.saveNativeWorkState_effect (sessionId : String) (state : NativeWorkState)
    (event : Option HarnessEvent) :
    EventEffect runtime.options store event.toList
      (store.saveNativeWorkState runtime moment sessionId state event) := by
  unfold RunnerStore.saveNativeWorkState
  split
  · exact store.refuse_effect _ _ _
  · split
    · exact store.refuse_effect _ _ _
    · split
      · exact store.refuse_effect _ _ _
      · rename_i parsed _ _ _ hsession
        have hid : ∀ e ∈ event, e.sessionId = sessionId := by
          intro e he
          rw [Option.mem_def] at he
          subst he
          simpa using hsession
        apply RunnerStore.attempt_effect
        · exact RunnerStateData.appendOptional_restore runtime rfl hid
        · exact RunnerStateData.appendOptional_appended

theorem RunnerStore.completeNativePolicyControl_effect (key sessionId commandId : String)
    (result : ConversationResult) (event : Option HarnessEvent) :
    EventEffect runtime.options store event.toList
      (store.completeNativePolicyControl runtime moment key sessionId commandId result event) := by
  unfold RunnerStore.completeNativePolicyControl
  split
  · exact store.refuse_effect _ _ _
  · dsimp only
    split
    · exact store.refuse_effect _ _ _
    · split
      · exact store.refuse_effect _ _ _
      · rename_i hsession
        have hid : ∀ e ∈ event, e.sessionId = sessionId := by
          intro e he
          rw [Option.mem_def] at he
          subst he
          simp only [Option.any_some, Bool.or_eq_true, bne_iff_ne, not_or, not_not] at hsession
          exact hsession.1
        apply RunnerStore.attempt_effect
        · exact RunnerStateData.appendOptional_restore runtime rfl hid
        · exact RunnerStateData.appendOptional_appended

theorem RunnerStore.attempt_silent {options : StoreOptions} {written : Bool}
    {data : RunnerStateData} {rollback : RunnerStateData → RunnerStateData}
    (hdata : data.events = store.data.events) (hrollback : (rollback data).events = data.events) :
    EventEffect options store [] (store.attempt written (data, none) rollback) :=
  RunnerStore.attempt_effect (hrollback.trans hdata) fun _ => hdata

theorem RunnerStore.perform_effect (action : StoreAction) :
    EventEffect runtime.options store action.events (store.perform runtime moment action) := by
  cases action with
  | appendEvent event => exact store.appendEvent_effect event
  | saveMcpReview review event => exact store.saveMcpReview_effect review event
  | clearMcpReview sessionId requestId events =>
    exact store.clearMcpReview_effect sessionId requestId events
  | saveNativeConversation key conversation =>
    change EventEffect _ _ [] (store.saveNativeConversation runtime moment key conversation)
    unfold RunnerStore.saveNativeConversation
    split
    · exact store.refuse_effect _ _ _
    · split
      · exact store.refuse_effect _ _ _
      · dsimp only
        split
        · exact store.refuse_effect _ _ _
        · exact RunnerStore.attempt_silent rfl rfl
  | retireNativeConversation key =>
    change EventEffect _ _ [] (store.retireNativeConversation moment key)
    unfold RunnerStore.retireNativeConversation
    dsimp only
    split
    · exact store.refuse_effect _ _ _
    · refine RunnerStore.attempt_silent rfl ?_
      split <;> rfl
  | saveNativeWorkState sessionId state event =>
    exact store.saveNativeWorkState_effect sessionId state event
  | removeEmptyNativeWorkState sessionId =>
    change EventEffect _ _ [] (store.removeEmptyNativeWorkState moment sessionId)
    unfold RunnerStore.removeEmptyNativeWorkState
    split
    · exact store.return_effect _
    · split
      · exact RunnerStore.attempt_silent rfl rfl
      · exact store.return_effect _
  | beginNativePolicyControl key receipt =>
    change EventEffect _ _ [] (store.beginNativePolicyControl runtime moment key receipt)
    unfold RunnerStore.beginNativePolicyControl
    dsimp only
    repeat' split
    all_goals first
      | exact store.refuse_effect _ _ _
      | exact RunnerStore.attempt_silent rfl rfl
  | completeNativePolicyControl key sessionId commandId result event =>
    exact store.completeNativePolicyControl_effect key sessionId commandId result event
  | getReceipt =>
    change EventEffect _ _ [] (store.pruneReceipts runtime.options moment)
    unfold RunnerStore.pruneReceipts
    dsimp only
    split
    · exact store.return_effect _
    · exact RunnerStore.attempt_silent rfl rfl
  | setCommandReceipt commandId receipt => exact RunnerStore.attempt_silent rfl rfl
  | setLocalActionReceipt requestId receipt => exact RunnerStore.attempt_silent rfl rfl

/-! ## The window of a session -/

def sessionLog (committed : List HarnessEvent) (sessionId : String) : List HarnessEvent :=
  committed.filter fun event => event.sessionId == sessionId

theorem sessionLog_append (committed events : List HarnessEvent) (sessionId : String) :
    sessionLog (committed ++ events) sessionId =
      sessionLog committed sessionId ++ sessionLog events sessionId :=
  List.filter_append committed events

theorem shiftTo_eq_rtake (retention : Nat) (events : List HarnessEvent) :
    shiftTo retention events = events.rtake retention := by
  induction events with
  | nil => simp [shiftTo]
  | cons event rest ih =>
    unfold shiftTo List.rtake
    by_cases h : retention < (event :: rest).length
    · rw [if_pos h, ih]
      have hlen : (event :: rest).length - retention = (rest.length - retention) + 1 := by
        rw [List.length_cons] at h ⊢
        omega
      rw [hlen, List.drop_succ_cons]
      rfl
    · rw [if_neg h, Nat.sub_eq_zero_of_le (Nat.le_of_not_lt h), List.drop_zero]

/-- Every session keeps the last events of its log, whose sequences are 1, 2, 3, ... -/
structure Windowed (retention : Nat) (committed : List HarnessEvent)
    (events : Dict String (List HarnessEvent)) : Prop where
  numbered : ∀ sessionId, Numbered HarnessEvent.sequence (sessionLog committed sessionId)
  window : ∀ sessionId,
    (events.get? sessionId).getD [] = (sessionLog committed sessionId).rtake retention

theorem Windowed.nextSequence {retention : Nat} (hpos : 0 < retention)
    {committed : List HarnessEvent} {events : Dict String (List HarnessEvent)}
    (h : Windowed retention committed events) (sessionId : String) :
    ((events.get? sessionId).getD []).getLast?.elim 0 HarnessEvent.sequence =
      (sessionLog committed sessionId).length := by
  rw [h.window sessionId]
  cases hlast : ((sessionLog committed sessionId).rtake retention).getLast? with
  | none =>
    have hnil := rtake_eq_nil hpos (List.getLast?_eq_none_iff.mp hlast)
    rw [hnil]
    rfl
  | some last => exact (h.numbered sessionId).getLast?_rtake hlast

theorem Windowed.append {retention : Nat} (hpos : 0 < retention) {committed : List HarnessEvent}
    {before after : Dict String (List HarnessEvent)} {events : List HarnessEvent}
    (h : Windowed retention committed before) (happended : Appended retention events before after) :
    Windowed retention (committed ++ events) after := by
  induction events generalizing committed before with
  | nil =>
    rw [List.append_nil, happended]
    exact h
  | cons event rest ih =>
    rcases happended with ⟨hsequence, hrest⟩
    have hstep : Windowed retention (committed ++ [event])
        (before.set event.sessionId
          (shiftTo retention ((before.get? event.sessionId).getD [] ++ [event]))) := by
      have hlog : sessionLog (committed ++ [event]) event.sessionId =
          sessionLog committed event.sessionId ++ [event] := by
        rw [sessionLog_append]
        simp [sessionLog]
      have hother : ∀ sessionId, sessionId ≠ event.sessionId →
          sessionLog (committed ++ [event]) sessionId = sessionLog committed sessionId := by
        intro sessionId hne
        rw [sessionLog_append]
        simp [sessionLog, Ne.symm hne]
      constructor
      · intro sessionId
        by_cases heq : sessionId = event.sessionId
        · rw [heq, hlog]
          apply (h.numbered event.sessionId).concat
          rw [hsequence, h.nextSequence hpos event.sessionId]
        · rw [hother sessionId heq]
          exact h.numbered sessionId
      · intro sessionId
        by_cases heq : sessionId = event.sessionId
        · rw [heq, hlog, Dict.get?_set_self, Option.getD_some, shiftTo_eq_rtake,
            h.window event.sessionId, rtake_rtake_concat _ _ hpos]
        · rw [hother sessionId heq, Dict.get?_set_of_ne _ _ heq]
          exact h.window sessionId
    have hfinal := ih hstep hrest
    rwa [List.append_assoc] at hfinal

/-! ## Restarts -/

theorem eventDict_parse {schemas : PayloadSchemas} {events parsed : Dict String (List HarnessEvent)}
    (h : ((eventSchema schemas).list.dict ownProperty).parse events = some parsed)
    {sessionId : String} (hown : ownProperty sessionId = true) :
    parsed.get? sessionId = events.get? sessionId := by
  cases hget : events.get? sessionId with
  | none => rw [Schema.parseDict_get? h hown, hget, Option.bind_none]
  | some list =>
    rcases Schema.parseDict_get?_some h hown hget with ⟨kept, hkept, hparsed⟩
    rw [hparsed, ← Schema.refineList_parse hkept]

theorem reopen_events {runtime : Runtime} {now : Int} {store opened : RunnerStore}
    (h : store.reopen runtime now = some opened) {sessionId : String}
    (hown : ownProperty sessionId = true) :
    opened.data.events.get? sessionId =
      (store.disk.elim Dict.empty RunnerStateData.events).get? sessionId := by
  unfold RunnerStore.reopen at h
  rcases Option.map_eq_some_iff.mp h with ⟨data, hread, rfl⟩
  change data.events.get? sessionId = _
  cases hdisk : store.disk with
  | none =>
    rw [hdisk] at hread
    cases hread
    rfl
  | some file =>
    rw [hdisk] at hread
    unfold readRunnerState RunnerStateData.parse at hread
    simp only [Option.bind_eq_bind, Option.bind_eq_some_iff, Option.pure_def,
      Option.some.injEq] at hread
    rcases hread with ⟨events, hevents, -, -, -, -, -, -, -, -, -, -, -, -, rfl⟩
    exact eventDict_parse hevents hown

theorem reopen_proto {runtime : Runtime} {now : Int} {store opened : RunnerStore}
    (h : store.reopen runtime now = some opened) : opened.data.events.get? protoKey = none := by
  unfold RunnerStore.reopen at h
  rcases Option.map_eq_some_iff.mp h with ⟨data, hread, rfl⟩
  change data.events.get? protoKey = none
  cases hdisk : store.disk with
  | none =>
    rw [hdisk] at hread
    cases hread
    rfl
  | some file =>
    rw [hdisk] at hread
    unfold readRunnerState RunnerStateData.parse at hread
    simp only [Option.bind_eq_bind, Option.bind_eq_some_iff, Option.pure_def,
      Option.some.injEq] at hread
    rcases hread with ⟨events, hevents, -, -, -, -, -, -, -, -, -, -, -, -, rfl⟩
    exact Schema.parseDict_get?_none hevents (by decide)

end HarnessControl.State
