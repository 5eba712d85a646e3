import HarnessControl.Protocol.SessionReducer

/-!
# The reducer within the limit of a call

`Math.max(...keys)` passes every sequence of a session as an argument, and throws where an engine
takes fewer: `limit` of them.  A call that throws has done the first part of its partial snapshot.
Where every input leaves room, the reducer does what it does without a limit.
-/

namespace HarnessControl.Protocol

open HarnessControl.Library

namespace SessionEventReducer

/-! ## Calls that may throw -/

/-- `applyEvent`, or `none` where it throws: the keys are spread where the sequence is not held. -/
def applyEventWithin (limit : Nat) (texts : JsonTexts) (reducer : SessionEventReducer)
    (event : HarnessEvent) : Option EventApplyResult × SessionEventReducer :=
  let sessionEvents := (reducer.eventsBySession.get? event.sessionId).getD Dict.empty
  if (sessionEvents.get? event.sequence).isNone ∧ limit < sessionEvents.size then (none, reducer)
  else (some (reducer.applyEvent texts event).1, (reducer.applyEvent texts event).2)

def applyPartialWithin (limit : Nat) (texts : JsonTexts) (tombstones : List SnapshotTombstone)
    (reducer : SessionEventReducer) (appliedEvents duplicateEvents : Nat) :
    List HarnessEvent → Option SnapshotApplyResult × SessionEventReducer
  | [] => (some (.applied false appliedEvents duplicateEvents tombstones), reducer)
  | event :: rest =>
    match reducer.applyEventWithin limit texts event with
    | (none, next) => (none, next)
    | (some (.gap sessionId expected received), next) =>
      (some (.gap sessionId expected received), next)
    | (some (.conflict sessionId sequence existing received), next) =>
      (some (.conflict sessionId sequence existing received), next)
    | (some (.applied _), next) =>
      applyPartialWithin limit texts tombstones next (appliedEvents + 1) duplicateEvents rest
    | (some (.duplicate _), next) =>
      applyPartialWithin limit texts tombstones next appliedEvents (duplicateEvents + 1) rest

def applySnapshotWithin (limit : Nat) (texts : JsonTexts) (reducer : SessionEventReducer)
    (snapshot : SnapshotPayload) : Option SnapshotApplyResult × SessionEventReducer :=
  if snapshot.complete then
    (some (reducer.applySnapshot texts snapshot).1, (reducer.applySnapshot texts snapshot).2)
  else reducer.applyPartialWithin limit texts snapshot.tombstones 0 0 snapshot.events

/-- `resumeCursor`, or `none` where it throws. -/
def resumeCursorWithin (limit : Nat) (texts : JsonTexts) (reducer : SessionEventReducer) :
    Option (Option (List ResumePosition)) :=
  if reducer.eventsBySession.values.all fun events => decide (events.size ≤ limit) then
    some (reducer.resumeCursor texts)
  else none

def callWithin (limit : Nat) (texts : JsonTexts) (reducer : SessionEventReducer) :
    ReducerInput → Option (Option (Reception HarnessEvent)) × SessionEventReducer
  | .event event =>
    ((reducer.applyEventWithin limit texts event).1.map EventApplyResult.refusal,
      (reducer.applyEventWithin limit texts event).2)
  | .snapshot snapshot =>
    ((reducer.applySnapshotWithin limit texts snapshot).1.map SnapshotApplyResult.refusal,
      (reducer.applySnapshotWithin limit texts snapshot).2)

def stepWithin (limit : Nat) (texts : JsonTexts) (reducer : SessionEventReducer)
    (input : ReducerInput) : SessionEventReducer :=
  (reducer.callWithin limit texts input).2

/-! ## What a call that throws has done -/

theorem applyEventWithin_cases (limit : Nat) (texts : JsonTexts) (reducer : SessionEventReducer)
    (event : HarnessEvent) :
    reducer.applyEventWithin limit texts event = (none, reducer) ∨
    reducer.applyEventWithin limit texts event =
      (some (reducer.applyEvent texts event).1, (reducer.applyEvent texts event).2) := by
  unfold applyEventWithin
  dsimp only
  split
  · exact .inl rfl
  · exact .inr rfl

theorem applyPartialWithin_cases (limit : Nat) (texts : JsonTexts)
    (tombstones : List SnapshotTombstone) (events : List HarnessEvent)
    (reducer : SessionEventReducer) (appliedEvents duplicateEvents : Nat) :
    reducer.applyPartialWithin limit texts tombstones appliedEvents duplicateEvents events =
      (some (reducer.applyPartial texts tombstones appliedEvents duplicateEvents events).1,
        (reducer.applyPartial texts tombstones appliedEvents duplicateEvents events).2) ∨
    ∃ before, before <+: events ∧
      reducer.applyPartialWithin limit texts tombstones appliedEvents duplicateEvents events =
        (none,
          (reducer.applyPartial texts tombstones appliedEvents duplicateEvents before).2) := by
  -- induction on the events: the one that throws ends the part that was done
  induction events generalizing reducer appliedEvents duplicateEvents with
  | nil => exact .inl rfl
  | cons event rest ih =>
    unfold applyPartialWithin
    obtain hthrows | hone := applyEventWithin_cases limit texts reducer event
    · exact .inr ⟨[], List.nil_prefix, by rw [hthrows]; rfl⟩
    rcases happlied : reducer.applyEvent texts event with ⟨outcome, next⟩
    rw [hone, happlied]
    cases outcome with
    | applied =>
      have hdone (before : List HarnessEvent) :
          reducer.applyPartial texts tombstones appliedEvents duplicateEvents (event :: before) =
            next.applyPartial texts tombstones (appliedEvents + 1) duplicateEvents before := by
        rw [applyPartial, happlied]
      rw [hdone]
      obtain hall | ⟨before, hbefore, hthrows⟩ := ih next (appliedEvents + 1) duplicateEvents
      · exact .inl hall
      · exact .inr ⟨event :: before, (List.prefix_cons_inj event).mpr hbefore, by
          rw [hdone]; exact hthrows⟩
    | duplicate =>
      have hdone (before : List HarnessEvent) :
          reducer.applyPartial texts tombstones appliedEvents duplicateEvents (event :: before) =
            next.applyPartial texts tombstones appliedEvents (duplicateEvents + 1) before := by
        rw [applyPartial, happlied]
      rw [hdone]
      obtain hall | ⟨before, hbefore, hthrows⟩ := ih next appliedEvents (duplicateEvents + 1)
      · exact .inl hall
      · exact .inr ⟨event :: before, (List.prefix_cons_inj event).mpr hbefore, by
          rw [hdone]; exact hthrows⟩
    | gap =>
      rw [applyPartial, happlied]
      exact .inl rfl
    | conflict =>
      rw [applyPartial, happlied]
      exact .inl rfl

theorem callWithin_cases (limit : Nat) (texts : JsonTexts) (reducer : SessionEventReducer)
    (input : ReducerInput) :
    reducer.callWithin limit texts input =
      (some (reducer.call texts input).1, (reducer.call texts input).2) ∨
    reducer.callWithin limit texts input = (none, reducer) ∨
    ∃ snapshot before, input = .snapshot snapshot ∧ before <+: snapshot.events ∧
      reducer.callWithin limit texts input =
        (none, (reducer.applyPartial texts snapshot.tombstones 0 0 before).2) := by
  cases input with
  | event event =>
    unfold callWithin call
    dsimp only
    obtain hthrows | hone := applyEventWithin_cases limit texts reducer event
    · exact .inr (.inl (by rw [hthrows]; rfl))
    · exact .inl (by rw [hone]; rfl)
  | snapshot snapshot =>
    unfold callWithin call applySnapshotWithin
    dsimp only
    cases hcomplete : snapshot.complete with
    | true => exact .inl rfl
    | false =>
      rw [if_neg Bool.false_ne_true]
      obtain hall | ⟨before, hbefore, hthrows⟩ :=
        applyPartialWithin_cases limit texts snapshot.tombstones snapshot.events reducer 0 0
      · left
        unfold applySnapshot
        rw [hall, hcomplete, if_neg Bool.false_ne_true]
        rfl
      · exact .inr (.inr ⟨snapshot, before, rfl, hbefore, by rw [hthrows]; rfl⟩)

variable {schemas : PayloadSchemas}

theorem Sound.callWithin (limit : Nat) (texts : JsonTexts)
    {reducer : SessionEventReducer} (h : reducer.Sound) {input : ReducerInput}
    (hvalid : input.valid schemas = true) :
    (reducer.stepWithin limit texts input).Sound ∧
      ∀ refusal, (reducer.callWithin limit texts input).1 = some (some refusal) →
        reducer.stepWithin limit texts input = reducer := by
  unfold stepWithin
  obtain hcall | hthrows | ⟨snapshot, before, rfl, hbefore, hthrows⟩ :=
    callWithin_cases limit texts reducer input
  · have hspec := Sound.call texts h hvalid
    rw [hcall]
    refine ⟨hspec.1, ?_⟩
    intro refusal hrefusal
    apply hspec.2
    rw [Option.some.inj hrefusal]
    exact Option.some_ne_none refusal
  · rw [hthrows]
    exact ⟨h, fun _ hrefusal => by cases hrefusal⟩
  · have hsession := (SnapshotPayload.slice hvalid).session
    rw [hthrows]
    refine ⟨(applyPartial_spec texts snapshot.tombstones before
      (fun event hevent => hsession event (hbefore.subset hevent)) h 0 0 rfl rfl).2.1, ?_⟩
    intro _ hrefusal
    cases hrefusal

theorem Sound.followWithin (limit : Nat) (texts : JsonTexts)
    {reducer : SessionEventReducer} (h : reducer.Sound) {input : ReducerInput}
    (hvalid : input.valid schemas = true) {sessionId : String} {log : List HarnessEvent}
    (hlog : Numbered HarnessEvent.sequence log)
    (hfrom : ∀ event ∈ input.events, event.sessionId = sessionId → event ∈ log)
    (hheld : reducer.held sessionId <+: log) :
    (reducer.stepWithin limit texts input).held sessionId <+: log := by
  unfold stepWithin
  obtain hcall | hthrows | ⟨snapshot, before, rfl, hbefore, hthrows⟩ :=
    callWithin_cases limit texts reducer input
  · rw [hcall]
    exact Sound.follow texts h hvalid hlog hfrom hheld
  · rw [hthrows]
    exact hheld
  · have hsession := (SnapshotPayload.slice hvalid).session
    have hspec := applyPartial_spec texts snapshot.tombstones before
      (fun event hevent => hsession event (hbefore.subset hevent)) h 0 0 rfl rfl
    rw [hthrows, hspec.2.2.1 sessionId]
    split
    · rename_i hown
      subst hown
      exact Reception.acceptAll_prefix before hlog hheld
        (fun event hevent => hfrom event (hbefore.subset hevent)
          (hsession event (hbefore.subset hevent))) (sameEvent_self texts)
    · exact hheld

/-! ## Inputs that leave room -/

/-- No session holds more events than a call takes arguments. -/
def Fits (limit : Nat) (reducer : SessionEventReducer) : Prop :=
  ∀ sessionId, (reducer.held sessionId).length ≤ limit

/-- The events begin after a gap, or one of them contradicts what is held. -/
def Refuses (texts : JsonTexts) (held events : List HarnessEvent) : Prop :=
  (∃ event ∈ events.take 1, held.length + 1 < event.sequence) ∨
  ∃ event ∈ events, ∃ existing ∈ held, existing.sequence = event.sequence ∧
    sameEvent texts existing event = false

instance (texts : JsonTexts) (held events : List HarnessEvent) :
    Decidable (Refuses texts held events) :=
  inferInstanceAs (Decidable (_ ∨ _))

/-- No event beyond the limit is taken: its sequence is within it, or it is not the next one, or
stands in a partial snapshot that is refused. -/
def Room (limit : Nat) (texts : JsonTexts) (reducer : SessionEventReducer) : ReducerInput → Prop
  | .event event =>
    event.sequence ≤ limit ∨ event.sequence ≠ (reducer.held event.sessionId).length + 1
  | .snapshot snapshot =>
    (∀ event ∈ snapshot.events, event.sequence ≤ limit) ∨
      snapshot.complete = false ∧ Refuses texts (reducer.held snapshot.sessionId) snapshot.events

instance (limit : Nat) (texts : JsonTexts) (reducer : SessionEventReducer) :
    (input : ReducerInput) → Decidable (reducer.Room limit texts input)
  | .event _ => inferInstanceAs (Decidable (_ ∨ _))
  | .snapshot _ => inferInstanceAs (Decidable (_ ∨ _))

theorem Sound.size {reducer : SessionEventReducer} (h : reducer.Sound) (sessionId : String) :
    ((reducer.eventsBySession.get? sessionId).getD Dict.empty).size =
      (reducer.held sessionId).length := by
  unfold held
  cases hget : reducer.eventsBySession.get? sessionId with
  | none => rfl
  | some events => exact (h sessionId events hget).size

variable {limit : Nat}

theorem applyEventWithin_of_fits (texts : JsonTexts) {reducer : SessionEventReducer}
    (h : reducer.Sound) (hfits : reducer.Fits limit) (event : HarnessEvent) :
    reducer.applyEventWithin limit texts event =
      (some (reducer.applyEvent texts event).1, (reducer.applyEvent texts event).2) := by
  have hsize := hfits event.sessionId
  unfold applyEventWithin
  dsimp only
  rw [h.size, if_neg (by omega)]

theorem Fits.applyEvent (texts : JsonTexts) {reducer : SessionEventReducer}
    (h : reducer.Sound) (hfits : reducer.Fits limit) {event : HarnessEvent}
    (hroom : event.sequence ≤ limit ∨
      event.sequence ≠ (reducer.held event.sessionId).length + 1) :
    (reducer.applyEvent texts event).2.Fits limit := by
  obtain ⟨-, hnext, hheld⟩ | ⟨-, hsame⟩ := h.applyEvent_cases texts event
  · intro other
    rw [hheld]
    split
    · rw [List.length_append, List.length_singleton]
      omega
    · exact hfits other
  · rw [hsame]
    exact hfits

theorem Refuses.tail {texts : JsonTexts} {held rest : List HarnessEvent}
    {event existing : HarnessEvent}
    (hnumbered : Numbered HarnessEvent.sequence held) (hexisting : existing ∈ held)
    (hsequence : existing.sequence = event.sequence) (hsame : sameEvent texts existing event = true)
    (h : Refuses texts held (event :: rest)) : Refuses texts held rest := by
  have hnodup : (held.map HarnessEvent.sequence).Nodup := by
    rw [hnumbered]
    exact List.nodup_range'
  obtain ⟨first, hfirst, hgap⟩ | ⟨other, hother, found, hfound, heq, hdiffers⟩ := h
  · obtain rfl : first = event := by simpa using hfirst
    have hle := hnumbered.le_of_mem_take (k := held.length) (by rwa [List.take_length])
    omega
  · obtain rfl | hother := List.mem_cons.mp hother
    · rw [List.inj_on_of_nodup_map hnodup hfound hexisting (heq.trans hsequence.symm), hsame]
        at hdiffers
      cases hdiffers
    · exact .inr ⟨other, hother, found, hfound, heq, hdiffers⟩

theorem Refuses.not_of_next {texts : JsonTexts} {held rest : List HarnessEvent}
    {event : HarnessEvent} (hnumbered : Numbered HarnessEvent.sequence held) {first : Nat}
    (hsequences : (event :: rest).map HarnessEvent.sequence =
      List.range' first (event :: rest).length)
    (hnext : event.sequence = held.length + 1) : ¬ Refuses texts held (event :: rest) := by
  rintro (⟨other, hother, hgap⟩ | ⟨other, hother, found, hfound, heq, -⟩)
  · obtain rfl : other = event := by simpa using hother
    omega
  · have hle := hnumbered.le_of_mem_take (k := held.length) (by rwa [List.take_length])
    have hhead : event.sequence = first := by
      rw [List.map_cons, List.length_cons, List.range'_succ] at hsequences
      exact (List.cons.inj hsequences).1
    have hmem := List.mem_map_of_mem (f := HarnessEvent.sequence) hother
    rw [hsequences, List.mem_range'_1] at hmem
    omega

theorem applyPartialWithin_of_room (texts : JsonTexts)
    (tombstones : List SnapshotTombstone) {sessionId : String} {first : Nat}
    (events : List HarnessEvent) (hsession : ∀ event ∈ events, event.sessionId = sessionId)
    (hsequences : events.map HarnessEvent.sequence = List.range' first events.length)
    {reducer : SessionEventReducer} (h : reducer.Sound) (hfits : reducer.Fits limit)
    (hroom : (∀ event ∈ events, event.sequence ≤ limit) ∨
      Refuses texts (reducer.held sessionId) events) (appliedEvents duplicateEvents : Nat) :
    reducer.applyPartialWithin limit texts tombstones appliedEvents duplicateEvents events =
        (some (reducer.applyPartial texts tombstones appliedEvents duplicateEvents events).1,
          (reducer.applyPartial texts tombstones appliedEvents duplicateEvents events).2) ∧
      (reducer.applyPartial texts tombstones appliedEvents duplicateEvents events).2.Fits
        limit := by
  -- induction on the events: once one of them is the next, all of them are within the limit
  induction events generalizing reducer first appliedEvents duplicateEvents with
  | nil => exact ⟨rfl, hfits⟩
  | cons event rest ih =>
    obtain rfl := hsession event List.mem_cons_self
    have hrest := fun other hother => hsession other (List.mem_cons_of_mem event hother)
    have hafter : rest.map HarnessEvent.sequence = List.range' (first + 1) rest.length := by
      rw [List.map_cons, List.length_cons, List.range'_succ] at hsequences
      exact (List.cons.inj hsequences).2
    have hone := applyEventWithin_of_fits texts h hfits event
    have hspec := applyEvent_spec texts h event
    have hnumbered := h.numbered event.sessionId
    unfold reception at hspec
    unfold applyPartialWithin applyPartial
    rw [hone]
    obtain ⟨haccept, hnext⟩ | ⟨existing, hexisting, hsequence, haccept⟩ | ⟨haccept, -⟩ :=
      Reception.accept_cases (sameEvent texts) hnumbered event
    · have hbounded : ∀ other ∈ event :: rest, other.sequence ≤ limit :=
        hroom.resolve_right (Refuses.not_of_next hnumbered hsequences hnext)
      have hnextFits := hfits.applyEvent texts h (.inl (hbounded event List.mem_cons_self))
      rw [haccept] at hspec
      generalize reducer.applyEvent texts event = applied at hspec hnextFits
      rcases applied with ⟨outcome, next⟩
      obtain rfl : outcome = .applied event := hspec.1
      exact ih hrest hafter hspec.2.1 hnextFits
        (.inl fun other hother => hbounded other (List.mem_cons_of_mem event hother)) _ _
    · rw [haccept] at hspec
      generalize reducer.applyEvent texts event = applied at hspec
      rcases applied with ⟨outcome, next⟩
      obtain rfl : next = reducer := hspec.2.2.2 rfl
      cases hsame : sameEvent texts existing event with
      | true =>
        rw [hsame, if_pos rfl] at hspec
        obtain rfl : outcome = .duplicate existing := hspec.1
        exact ih hrest hafter h hfits (hroom.imp
          (fun hall other hother => hall other (List.mem_cons_of_mem event hother))
          (Refuses.tail hnumbered hexisting hsequence hsame)) _ _
      | false =>
        rw [hsame, if_neg Bool.false_ne_true] at hspec
        obtain rfl : outcome = .conflict event.sessionId event.sequence existing event := hspec.1
        exact ⟨rfl, hfits⟩
    · rw [haccept] at hspec
      generalize reducer.applyEvent texts event = applied at hspec
      rcases applied with ⟨outcome, next⟩
      obtain rfl : next = reducer := hspec.2.2.2 rfl
      obtain rfl : outcome = .gap event.sessionId _ event.sequence := hspec.1
      exact ⟨rfl, hfits⟩

theorem callWithin_of_room (texts : JsonTexts)
    {reducer : SessionEventReducer} (h : reducer.Sound) (hfits : reducer.Fits limit)
    {input : ReducerInput} (hvalid : input.valid schemas = true)
    (hroom : reducer.Room limit texts input) :
    reducer.callWithin limit texts input =
        (some (reducer.call texts input).1, (reducer.call texts input).2) ∧
      (reducer.stepWithin limit texts input).Fits limit := by
  cases input with
  | event event =>
    unfold stepWithin callWithin call
    dsimp only
    rw [applyEventWithin_of_fits texts h hfits]
    exact ⟨rfl, hfits.applyEvent texts h hroom⟩
  | snapshot snapshot =>
    have hslice := SnapshotPayload.slice hvalid
    unfold stepWithin callWithin call applySnapshotWithin
    dsimp only
    cases hcomplete : snapshot.complete with
    | true =>
      refine ⟨rfl, ?_⟩
      intro other
      rw [if_pos rfl, (applySnapshot_spec texts hslice h).2.2.1 other]
      unfold batch
      rw [hcomplete, if_pos rfl]
      split
      · have hbounded := hroom.resolve_right fun hpartial => by
          rw [hcomplete] at hpartial
          cases hpartial.1
        have hnumbered : Numbered HarnessEvent.sequence snapshot.events := by
          have hsequences := hslice.sequences
          rw [hslice.fromStart hcomplete] at hsequences
          exact hsequences
        have hpos := List.length_pos_of_ne_nil hslice.nonempty
        have hlast := hnumbered.getElem (i := snapshot.events.length - 1) (by omega)
        have hwithin := hbounded _
          (List.getElem_mem (show snapshot.events.length - 1 < snapshot.events.length by omega))
        show snapshot.events.length ≤ limit
        omega
      · exact hfits other
    | false =>
      rw [if_neg Bool.false_ne_true]
      have hpartial := applyPartialWithin_of_room texts snapshot.tombstones snapshot.events
        hslice.session hslice.sequences h hfits (hroom.imp_right And.right) 0 0
      unfold applySnapshot
      rw [hcomplete, if_neg Bool.false_ne_true, hpartial.1]
      exact ⟨rfl, hpartial.2⟩

theorem resumeCursorWithin_of_fits (texts : JsonTexts) {reducer : SessionEventReducer}
    (h : reducer.Sound) (hfits : reducer.Fits limit) :
    reducer.resumeCursorWithin limit texts = some (reducer.resumeCursor texts) := by
  unfold resumeCursorWithin
  rw [if_pos]
  rw [List.all_eq_true]
  intro events hevents
  rcases List.mem_map.mp hevents with ⟨⟨sessionId, _⟩, hentry, rfl⟩
  have hget := Dict.get?_eq_some_iff.mpr hentry
  have hsize := hfits sessionId
  rw [← h.size, hget] at hsize
  exact decide_eq_true hsize

/-! ## Runs -/

/-- The resume cursor is reported, and says of each session how many of its events are held. -/
def Reported (limit : Nat) (texts : JsonTexts) (reducer : SessionEventReducer) : Prop :=
  ∃ cursor, reducer.resumeCursorWithin limit texts = some cursor ∧
    ∀ sessionId last, ⟨sessionId, last⟩ ∈ cursor.getD [] ↔
      reducer.held sessionId ≠ [] ∧ last = (reducer.held sessionId).length

theorem reported_of_fits (texts : JsonTexts) {reducer : SessionEventReducer}
    (h : reducer.Sound) (hfits : reducer.Fits limit) : reducer.Reported limit texts :=
  ⟨_, resumeCursorWithin_of_fits texts h hfits, h.mem_resumeCursor texts⟩

/-- The reducer never holds a hole, it follows the log that its inputs come from, and a gap or a
conflict changes nothing.  Its resume cursor is exact in every state of the runs whose inputs leave
room, and there no call throws. -/
theorem reducer_follows_logs (limit : Nat) (schemas : PayloadSchemas) (texts : JsonTexts)
    (inputs : List ReducerInput) (hvalid : ∀ input ∈ inputs, input.valid schemas = true) :
    Always (stepWithin limit texts) (fun reducer => ∀ sessionId,
      (reducer.held sessionId).map HarnessEvent.sequence =
        List.range' 1 (reducer.held sessionId).length) fresh inputs ∧
    (∀ sessionId log, Numbered HarnessEvent.sequence log →
      (∀ input ∈ inputs, ∀ event ∈ input.events, event.sessionId = sessionId → event ∈ log) →
      Always (stepWithin limit texts) (fun reducer => reducer.held sessionId <+: log)
        fresh inputs) ∧
    Meets (stepWithin limit texts) (fun reducer input =>
      ∀ refusal, (reducer.callWithin limit texts input).1 = some (some refusal) →
        reducer.stepWithin limit texts input = reducer) fresh inputs ∧
    (Meets (stepWithin limit texts) (Room limit texts) fresh inputs →
      Always (stepWithin limit texts) (Reported limit texts) fresh inputs ∧
      Meets (stepWithin limit texts) (fun reducer input =>
        (reducer.callWithin limit texts input).1 ≠ none) fresh inputs) := by
  have hinputs : Meets (stepWithin limit texts) (fun _ input => input.valid schemas = true)
      fresh inputs := Meets.of_forall hvalid fresh
  have hsound := always_of_meets (I := Sound)
    (fun _ _ h hinput => (Sound.callWithin limit texts h hinput).1) Sound.fresh hinputs
  have hfresh : Fits limit fresh := fun _ => Nat.zero_le _
  have hfits (hroom : Meets (stepWithin limit texts) (Room limit texts) fresh inputs) :
      Always (stepWithin limit texts) (fun reducer => reducer.Sound ∧ reducer.Fits limit)
        fresh inputs :=
    always_of_meets (fun _ _ h hinput => ⟨(Sound.callWithin limit texts h.1 hinput.1).1,
      (callWithin_of_room texts h.1 h.2 hinput.1 hinput.2).2⟩) ⟨Sound.fresh, hfresh⟩
      (hinputs.and hroom)
  refine ⟨hsound.mono fun _ h => h.numbered, ?_, ?_, fun hroom => ⟨?_, ?_⟩⟩
  · intro sessionId log hlog hfrom
    have hlogged : Meets (stepWithin limit texts) (fun _ input => ∀ event ∈ input.events,
        event.sessionId = sessionId → event ∈ log) fresh inputs :=
      Meets.of_forall hfrom fresh
    have hfollows := always_of_meets
      (I := fun reducer => reducer.Sound ∧ reducer.held sessionId <+: log)
      (fun _ _ h hinput => ⟨(Sound.callWithin limit texts h.1 hinput.1).1,
        Sound.followWithin limit texts h.1 hinput.1 hlog hinput.2 h.2⟩)
      ⟨Sound.fresh, List.nil_prefix⟩ (hinputs.and hlogged)
    exact hfollows.mono fun _ h => h.2
  · exact Meets.of_always (fun _ _ h hinput => (Sound.callWithin limit texts h hinput).2)
      hsound hinputs
  · exact (hfits hroom).mono fun _ h => reported_of_fits texts h.1 h.2
  · refine Meets.of_always (fun reducer input h hinput => ?_) (hfits hroom) (hinputs.and hroom)
    rw [(callWithin_of_room texts h.1 h.2 hinput.1 hinput.2).1]
    exact Option.some_ne_none _

/-- An event, a partial snapshot that overlaps it, and an event after a gap. -/
def eventSnapshotGap : List ReducerInput :=
  [.event (loggedEvent 1),
    .snapshot { commandId := "c", sessionId := "s", generatedAt := 0, complete := false
                sizeLimited := false, fromSequence := 1, throughSequence := 2
                events := [loggedEvent 1, loggedEvent 2], tombstones := [] },
    .event (loggedEvent 4)]

theorem reducer_follows_logs_gap :
    (∀ input ∈ eventSnapshotGap, input.valid plainSchemas = true) ∧
    Meets (stepWithin 100000 plainTexts) (Room 100000 plainTexts) fresh eventSnapshotGap ∧
    Always (stepWithin 100000 plainTexts) (Reported 100000 plainTexts) fresh eventSnapshotGap ∧
    (run (stepWithin 100000 plainTexts) fresh eventSnapshotGap).held "s" <+:
      (List.range' 1 4).map loggedEvent := by
  have hvalid : ∀ input ∈ eventSnapshotGap, input.valid plainSchemas = true := by decide
  have hroom : Meets (stepWithin 100000 plainTexts) (Room 100000 plainTexts) fresh
      eventSnapshotGap := by decide
  have hnumbered : Numbered HarnessEvent.sequence ((List.range' 1 4).map loggedEvent) := by decide
  have hfrom : ∀ input ∈ eventSnapshotGap, ∀ event ∈ input.events, event.sessionId = "s" →
      event ∈ (List.range' 1 4).map loggedEvent := by decide
  have hlaws := reducer_follows_logs 100000 plainSchemas plainTexts eventSnapshotGap hvalid
  exact ⟨hvalid, hroom, (hlaws.2.2.2 hroom).1, (hlaws.2.1 "s" _ hnumbered hfrom).last⟩

/-! ## A session that no longer fits -/

theorem resumeCursorWithin_of_beyond (texts : JsonTexts)
    {reducer : SessionEventReducer} (h : reducer.Sound) {sessionId : String}
    (hbeyond : limit < (reducer.held sessionId).length) :
    reducer.resumeCursorWithin limit texts = none := by
  unfold resumeCursorWithin
  rw [if_neg]
  intro hall
  cases hget : reducer.eventsBySession.get? sessionId with
  | none =>
    unfold held at hbeyond
    rw [hget] at hbeyond
    exact absurd hbeyond (Nat.not_lt_zero _)
  | some events =>
    have hmem := List.mem_map_of_mem (f := Prod.snd) (Dict.get?_eq_some_iff.mp hget)
    have hwithin := of_decide_eq_true (List.all_eq_true.mp hall events hmem)
    rw [← h.size, hget] at hbeyond
    exact absurd hbeyond (Nat.not_lt.mpr hwithin)

/-- The events of a session one after the other, up to one more than the limit. -/
def oneTooMany (limit : Nat) : List ReducerInput :=
  (List.range' 1 (limit + 1)).map fun sequence => .event (loggedEvent sequence)

theorem held_events (limit : Nat) {count : Nat} (hcount : count ≤ limit + 1) :
    let reducer := run (stepWithin limit plainTexts) fresh
      ((List.range' 1 count).map fun sequence => .event (loggedEvent sequence))
    reducer.Sound ∧ ∀ sessionId,
      (reducer.held sessionId).length = if sessionId = "s" then count else 0 := by
  induction count with
  | zero =>
    refine ⟨Sound.fresh, fun sessionId => ?_⟩
    split <;> rfl
  | succ count ih =>
    obtain ⟨hsound, hheld⟩ := ih (by omega)
    rw [List.range'_concat, List.map_append, run_append]
    generalize run (stepWithin limit plainTexts) fresh
      ((List.range' 1 count).map fun sequence => .event (loggedEvent sequence)) = reducer
      at hsound hheld ⊢
    have hfits : reducer.Fits limit := by
      intro sessionId
      rw [hheld]
      split <;> omega
    have hevent := applyEventWithin_of_fits plainTexts hsound hfits (loggedEvent (1 + 1 * count))
    have hspec := applyEvent_spec plainTexts hsound (loggedEvent (1 + 1 * count))
    have hnext : (loggedEvent (1 + 1 * count)).sequence = (reducer.held "s").length + 1 := by
      rw [hheld "s", if_pos rfl]
      show 1 + 1 * count = count + 1
      omega
    show (reducer.applyEventWithin limit plainTexts (loggedEvent (1 + 1 * count))).2.Sound ∧ _
    rw [hevent]
    refine ⟨hspec.2.1, fun sessionId => ?_⟩
    show ((reducer.applyEventWithin limit plainTexts
      (loggedEvent (1 + 1 * count))).2.held sessionId).length = _
    rw [hevent, hspec.2.2.1]
    unfold reception
    rw [show (loggedEvent (1 + 1 * count)).sessionId = "s" from rfl,
      Reception.accept_next (hsound.numbered "s") hnext]
    split
    · rw [List.length_append, List.length_singleton, hheld, if_pos rfl]
    · rw [hheld]
      rename_i hother
      rw [if_neg hother]

theorem oneTooMany_unreported (limit : Nat) :
    (run (stepWithin limit plainTexts) fresh (oneTooMany limit)).resumeCursorWithin limit
      plainTexts = none := by
  have hevents := held_events limit (Nat.le_refl (limit + 1))
  have hbeyond : limit <
      ((run (stepWithin limit plainTexts) fresh (oneTooMany limit)).held "s").length := by
    unfold oneTooMany
    rw [hevents.2, if_pos rfl]
    exact Nat.lt_succ_self limit
  exact resumeCursorWithin_of_beyond plainTexts hevents.1 hbeyond

/-- Where a call takes 125000 arguments, the cursor of 125001 events of one log throws. -/
theorem long_session_unreported :
    (∀ input ∈ oneTooMany 125000, input.valid plainSchemas = true) ∧
    (∀ input ∈ oneTooMany 125000, ∀ event ∈ input.events,
      event ∈ (List.range' 1 125001).map loggedEvent) ∧
    (run (stepWithin 125000 plainTexts) fresh (oneTooMany 125000)).resumeCursorWithin 125000
      plainTexts = none := by
  refine ⟨?_, ?_, oneTooMany_unreported 125000⟩
  · intro input hinput
    obtain ⟨sequence, hsequence, rfl⟩ := List.mem_map.mp hinput
    have hpos : 0 < (loggedEvent sequence).sequence := (List.mem_range'_1.mp hsequence).1
    unfold ReducerInput.valid HarnessEvent.valid
    dsimp only
    rw [decide_eq_true hpos]
    exact (show (loggedEvent 1).valid plainSchemas = true by decide)
  · intro input hinput event hevent
    obtain ⟨sequence, hsequence, rfl⟩ := List.mem_map.mp hinput
    rw [List.mem_singleton.mp hevent]
    exact List.mem_map_of_mem hsequence

end SessionEventReducer

end HarnessControl.Protocol
