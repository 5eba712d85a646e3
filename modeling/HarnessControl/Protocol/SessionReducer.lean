import HarnessControl.Library.Reception
import HarnessControl.Library.StableSort
import HarnessControl.Library.Transition
import HarnessControl.Protocol.Payloads

/-!
# The session event reducer

`HcpSessionEventReducer` is the reference consumer: it takes the events of each session in their
order, tells duplicates, gaps and conflicts, replaces a session by a complete snapshot and takes a
partial snapshot event by event.
-/

namespace HarnessControl.Protocol

open HarnessControl.Library

/-! ## Canonical texts -/

/-- `JSON.stringify` of a value, and `left.localeCompare(right) <= 0`. -/
structure JsonTexts where
  stringify : Json → String
  localeLe : String → String → Bool
  localeLe_trans : ∀ a b c, localeLe a b = true → localeLe b c = true → localeLe a c = true
  localeLe_total : ∀ a b, (localeLe a b || localeLe b a) = true

def joinCanonical (texts : JsonTexts) (entries : List (String × String)) : String :=
  let sorted := entries.mergeSort fun left right => texts.localeLe left.1 right.1
  "\x7b" ++ ",".intercalate (sorted.map fun entry =>
    texts.stringify (.str entry.1) ++ ":" ++ entry.2) ++ "\x7d"

mutual

def canonicalStringify (texts : JsonTexts) : Json → String
  | .arr elements => "[" ++ ",".intercalate (canonicalElements texts elements) ++ "]"
  | .obj fields => joinCanonical texts (canonicalEntries texts fields)
  | value => texts.stringify value

def canonicalElements (texts : JsonTexts) : JsonList → List String
  | .nil => []
  | .cons head tail => canonicalStringify texts head :: canonicalElements texts tail

def canonicalEntries (texts : JsonTexts) : JsonFields → List (String × String)
  | .nil => []
  | .cons key value tail => (key, canonicalStringify texts value) :: canonicalEntries texts tail

end

/-- The event as an object; its time, a text of `toISOString`, stands as its milliseconds. -/
def HarnessEvent.toJson (event : HarnessEvent) : Json :=
  .obj <| .ofList <|
    [("session_id", .str event.sessionId)] ++
    (event.turnId.map fun turnId => ("turn_id", .str turnId)).toList ++
    [("sequence", .num event.sequence), ("event_type", .str event.eventType),
      ("created_at", .num event.createdAt), ("data", event.data)]

/-- `canonicalStringify(existingEvent) === canonicalStringify(event)`. -/
def sameEvent (texts : JsonTexts) (existing event : HarnessEvent) : Bool :=
  canonicalStringify texts existing.toJson == canonicalStringify texts event.toJson

theorem sameEvent_self (texts : JsonTexts) (event : HarnessEvent) :
    sameEvent texts event event = true := beq_self_eq_true _

/-! ## Snapshots with tombstones -/

inductive SnapshotEntity where
  | session
  | turn
  | item
deriving DecidableEq

structure SnapshotTombstone where
  entityType : SnapshotEntity
  entityId : String
  deletedAt : Int
deriving DecidableEq

structure SnapshotPayload extends SessionSnapshot where
  tombstones : List SnapshotTombstone
deriving DecidableEq

/-- `hcpSessionSnapshotPayloadSchema`. -/
def SnapshotPayload.valid (schemas : PayloadSchemas) (snapshot : SnapshotPayload) : Bool :=
  snapshot.toSessionSnapshot.valid schemas &&
  snapshot.tombstones.all fun tombstone => tombstone.entityId != ""

/-! ## The reducer -/

inductive EventApplyResult where
  | applied (event : HarnessEvent)
  | duplicate (event : HarnessEvent)
  | gap (sessionId : String) (expectedSequence receivedSequence : Nat)
  | conflict (sessionId : String) (sequence : Nat) (existingEvent receivedEvent : HarnessEvent)
deriving DecidableEq

inductive SnapshotApplyResult where
  | applied (complete : Bool) (appliedEvents duplicateEvents : Nat)
    (tombstones : List SnapshotTombstone)
  | gap (sessionId : String) (expectedSequence receivedSequence : Nat)
  | conflict (sessionId : String) (sequence : Nat) (existingEvent receivedEvent : HarnessEvent)

def SnapshotApplyResult.refusal : SnapshotApplyResult → Option (Reception HarnessEvent)
  | .applied _ _ _ _ => none
  | .gap _ expected _ => some (.gap expected)
  | .conflict _ _ existing _ => some (.conflict existing)

def EventApplyResult.refusal : EventApplyResult → Option (Reception HarnessEvent)
  | .applied _ | .duplicate _ => none
  | .gap _ expected _ => some (.gap expected)
  | .conflict _ _ existing _ => some (.conflict existing)

structure SessionEventReducer where
  eventsBySession : Dict String (Dict Nat HarnessEvent)
deriving DecidableEq

namespace SessionEventReducer

def fresh : SessionEventReducer := ⟨Dict.empty⟩

/-- `Math.max(...events.keys())`, of a map that is not empty and has no more keys than a call takes
arguments. -/
def maxKey (events : Dict Nat HarnessEvent) : Nat := events.keys.foldl max 0

def applyEvent (texts : JsonTexts) (reducer : SessionEventReducer) (event : HarnessEvent) :
    EventApplyResult × SessionEventReducer :=
  let sessionEvents := (reducer.eventsBySession.get? event.sessionId).getD Dict.empty
  match sessionEvents.get? event.sequence with
  | some existingEvent =>
    (if sameEvent texts existingEvent event then .duplicate existingEvent
      else .conflict event.sessionId event.sequence existingEvent event, reducer)
  | none =>
    let expectedSequence := if sessionEvents.size = 0 then 1 else maxKey sessionEvents + 1
    if event.sequence ≠ expectedSequence then
      (.gap event.sessionId expectedSequence event.sequence, reducer)
    else (.applied event, ⟨reducer.eventsBySession.set event.sessionId
      (sessionEvents.set event.sequence event)⟩)

def applyPartial (texts : JsonTexts) (tombstones : List SnapshotTombstone)
    (reducer : SessionEventReducer) (appliedEvents duplicateEvents : Nat) :
    List HarnessEvent → SnapshotApplyResult × SessionEventReducer
  | [] => (.applied false appliedEvents duplicateEvents tombstones, reducer)
  | event :: rest =>
    match reducer.applyEvent texts event with
    | (.gap sessionId expected received, next) => (.gap sessionId expected received, next)
    | (.conflict sessionId sequence existing received, next) =>
      (.conflict sessionId sequence existing received, next)
    | (.applied _, next) =>
      applyPartial texts tombstones next (appliedEvents + 1) duplicateEvents rest
    | (.duplicate _, next) =>
      applyPartial texts tombstones next appliedEvents (duplicateEvents + 1) rest

def replacement (events : List HarnessEvent) : Dict Nat HarnessEvent :=
  events.foldl (fun replaced event => replaced.set event.sequence event) Dict.empty

def applySnapshot (texts : JsonTexts) (reducer : SessionEventReducer)
    (snapshot : SnapshotPayload) : SnapshotApplyResult × SessionEventReducer :=
  if snapshot.complete then
    (.applied true snapshot.events.length 0 snapshot.tombstones,
      ⟨reducer.eventsBySession.set snapshot.sessionId (replacement snapshot.events)⟩)
  else reducer.applyPartial texts snapshot.tombstones 0 0 snapshot.events

structure ResumePosition where
  sessionId : String
  lastEventSequence : Nat

def resumeCursor (texts : JsonTexts) (reducer : SessionEventReducer) :
    Option (List ResumePosition) :=
  let sessions := (reducer.eventsBySession.entries.map fun entry =>
    ⟨entry.1, maxKey entry.2⟩ : List ResumePosition).mergeSort
      fun left right => texts.localeLe left.sessionId right.sessionId
  if sessions.length > 0 then some sessions else none

/-- The events by session, and those of a session by their sequences. -/
def events (texts : JsonTexts) (reducer : SessionEventReducer) : List HarnessEvent :=
  (reducer.eventsBySession.values.flatMap Dict.values).mergeSort fun left right =>
    if left.sessionId = right.sessionId then decide (left.sequence ≤ right.sequence)
    else texts.localeLe left.sessionId right.sessionId

/-! ## What is held -/

/-- The events of a session, in the order in which they are held. -/
def held (reducer : SessionEventReducer) (sessionId : String) : List HarnessEvent :=
  (reducer.eventsBySession.get? sessionId).elim [] Dict.values

/-- A map holds the events of a session under their sequences, which are 1, 2, 3, ... -/
structure Ledger (sessionId : String) (events : Dict Nat HarnessEvent) : Prop where
  keyed : events.entries = events.values.map fun event => (event.sequence, event)
  numbered : Numbered HarnessEvent.sequence events.values
  nonempty : events.values ≠ []
  session : ∀ event ∈ events.values, event.sessionId = sessionId

def Sound (reducer : SessionEventReducer) : Prop :=
  ∀ sessionId events, reducer.eventsBySession.get? sessionId = some events →
    Ledger sessionId events

namespace Ledger

variable {sessionId : String} {events : Dict Nat HarnessEvent}

theorem keys (h : Ledger sessionId events) :
    events.keys = List.range' 1 events.values.length := by
  unfold Dict.keys
  rw [h.keyed, List.map_map]
  exact h.numbered

theorem size (h : Ledger sessionId events) : events.size = events.values.length := by
  rw [Dict.size_eq_length_keys, h.keys, List.length_range']

theorem maxKey (h : Ledger sessionId events) : maxKey events = events.values.length := by
  have hmax : ∀ count first held, held ≤ first →
      (List.range' (first + 1) count).foldl max held = if count = 0 then held else first + count := by
    intro count
    induction count with
    | zero => intro first held _; rfl
    | succ count ih =>
      intro first held hheld
      rw [List.range'_succ, List.foldl_cons, ih (first + 1) _ (by omega)]
      split <;> split <;> omega
  unfold SessionEventReducer.maxKey
  rw [h.keys, hmax _ 0 0 (Nat.le_refl 0)]
  split <;> omega

theorem get? (h : Ledger sessionId events) (sequence : Nat) :
    events.get? sequence = events.values.find? fun event => event.sequence == sequence := by
  unfold Dict.get?
  rw [h.keyed]
  exact Dict.find_map_key HarnessEvent.sequence sequence events.values

end Ledger

theorem Ledger.concat {sessionId : String} {events : Dict Nat HarnessEvent}
    (hkeyed : events.entries = events.values.map fun event => (event.sequence, event))
    (hnumbered : Numbered HarnessEvent.sequence events.values)
    (hsession : ∀ event ∈ events.values, event.sessionId = sessionId) {event : HarnessEvent}
    (hnone : events.get? event.sequence = none)
    (hnext : event.sequence = events.values.length + 1) (hown : event.sessionId = sessionId) :
    Ledger sessionId (events.set event.sequence event) ∧
      (events.set event.sequence event).values = events.values ++ [event] := by
  have hentries := Dict.entries_set_of_none event hnone
  have hvalues : (events.set event.sequence event).values = events.values ++ [event] := by
    unfold Dict.values
    rw [hentries, List.map_append]
    rfl
  refine ⟨⟨?_, ?_, ?_, ?_⟩, hvalues⟩
  · rw [hvalues, hentries, List.map_append, ← hkeyed]
    rfl
  · rw [hvalues]
    exact hnumbered.concat hnext
  · rw [hvalues]
    exact List.append_ne_nil_of_right_ne_nil _ (List.cons_ne_nil _ _)
  · rw [hvalues]
    intro other hother
    rcases List.mem_append.mp hother with hold | hnew
    · exact hsession other hold
    · rw [List.mem_singleton.mp hnew]
      exact hown

theorem Sound.fresh : Sound fresh := by
  intro sessionId events h
  cases h

variable {reducer : SessionEventReducer}

theorem held_of_get? {sessionId : String}
    {events : Dict Nat HarnessEvent} (h : reducer.eventsBySession.get? sessionId = some events) :
    reducer.held sessionId = events.values := by
  unfold held
  rw [h]
  rfl

theorem Sound.numbered (h : reducer.Sound) (sessionId : String) :
    Numbered HarnessEvent.sequence (reducer.held sessionId) := by
  unfold held
  cases hget : reducer.eventsBySession.get? sessionId with
  | none => exact Numbered.nil
  | some events => exact (h sessionId events hget).numbered

theorem Sound.session (h : reducer.Sound) {sessionId : String}
    {event : HarnessEvent} (hmem : event ∈ reducer.held sessionId) :
    event.sessionId = sessionId := by
  unfold held at hmem
  cases hget : reducer.eventsBySession.get? sessionId with
  | none =>
    rw [hget] at hmem
    exact absurd hmem List.not_mem_nil
  | some events =>
    rw [hget] at hmem
    exact (h sessionId events hget).session event hmem

theorem Sound.set (h : reducer.Sound) {sessionId : String}
    {events : Dict Nat HarnessEvent} (hledger : Ledger sessionId events) :
    Sound ⟨reducer.eventsBySession.set sessionId events⟩ ∧
      ∀ other, held ⟨reducer.eventsBySession.set sessionId events⟩ other =
        if other = sessionId then events.values else reducer.held other := by
  constructor
  · intro other found hget
    by_cases hother : other = sessionId
    · subst hother
      rw [Dict.get?_set_self] at hget
      cases hget
      exact hledger
    · rw [Dict.get?_set_of_ne _ _ hother] at hget
      exact h other found hget
  · intro other
    unfold held
    rw [Dict.get?_set]
    split <;> rfl

/-! ## One event -/

def reported (event : HarnessEvent) : Reception HarnessEvent → EventApplyResult
  | .applied => .applied event
  | .duplicate existing => .duplicate existing
  | .gap expected => .gap event.sessionId expected event.sequence
  | .conflict existing => .conflict event.sessionId event.sequence existing event

/-- The reception of an event by the list of what its session holds. -/
def reception (texts : JsonTexts) (reducer : SessionEventReducer) (event : HarnessEvent) :
    Reception HarnessEvent × List HarnessEvent :=
  Reception.accept HarnessEvent.sequence (sameEvent texts) (reducer.held event.sessionId) event

/-- `applyEvent` receives the event into the list of its session, and leaves the others alone. -/
theorem applyEvent_spec (texts : JsonTexts) {reducer : SessionEventReducer} (h : reducer.Sound)
    (event : HarnessEvent) :
    (reducer.applyEvent texts event).1 = reported event (reducer.reception texts event).1 ∧
      (reducer.applyEvent texts event).2.Sound ∧
      (∀ other, (reducer.applyEvent texts event).2.held other =
        if other = event.sessionId then (reducer.reception texts event).2
        else reducer.held other) ∧
      ((reducer.reception texts event).2 = reducer.held event.sessionId →
        (reducer.applyEvent texts event).2 = reducer) := by
  generalize hevents : (reducer.eventsBySession.get? event.sessionId).getD Dict.empty = events
  -- the map of the session, which may not be there yet
  have hledger : events.entries = (events.values.map fun e => (e.sequence, e)) ∧
      Numbered HarnessEvent.sequence events.values ∧
      (∀ e ∈ events.values, e.sessionId = event.sessionId) ∧
      events.values = reducer.held event.sessionId ∧
      (events.get? event.sequence =
        events.values.find? fun e => e.sequence == event.sequence) ∧
      (if events.size = 0 then 1 else maxKey events + 1) = events.values.length + 1 := by
    unfold held
    cases hget : reducer.eventsBySession.get? event.sessionId with
    | none =>
      rw [hget, Option.getD_none] at hevents
      subst hevents
      exact ⟨rfl, Numbered.nil, fun e he => (by cases he), rfl, rfl, rfl⟩
    | some found =>
      rw [hget, Option.getD_some] at hevents
      subst hevents
      have hfound := h _ _ hget
      have hpos := List.length_pos_of_ne_nil hfound.nonempty
      refine ⟨hfound.keyed, hfound.numbered, hfound.session, rfl, hfound.get? _, ?_⟩
      rw [hfound.size, hfound.maxKey, if_neg (by omega)]
  rcases hledger with ⟨hkeyed, hnumbered, hsession, hheld, hget, hexpected⟩
  unfold reception applyEvent Reception.accept
  rw [hevents]
  dsimp only
  rw [← hheld, hget, hexpected]
  have hself : ∀ other, reducer.held other =
      if other = event.sessionId then events.values else reducer.held other := by
    intro other
    split
    · rename_i hother
      rw [hother, hheld]
    · rfl
  cases hfind : events.values.find? fun e => e.sequence == event.sequence with
  | some existing =>
    dsimp only
    refine ⟨?_, h, hself, fun _ => rfl⟩
    split <;> rfl
  | none =>
    dsimp only
    by_cases hnext : event.sequence = events.values.length + 1
    · rw [if_neg (not_not_intro hnext), if_pos hnext]
      have hconcat := Ledger.concat hkeyed hnumbered hsession (hget.trans hfind) hnext rfl
      have hset := h.set hconcat.1
      refine ⟨rfl, hset.1, ?_, ?_⟩
      · intro other
        rw [hset.2 other, hconcat.2]
      · intro hsame
        exact absurd hsame (by simp)
    · rw [if_pos hnext, if_neg hnext]
      exact ⟨rfl, h, hself, fun _ => rfl⟩

theorem Sound.applyEvent_cases (texts : JsonTexts) {reducer : SessionEventReducer}
    (h : reducer.Sound) (event : HarnessEvent) :
    ((reducer.applyEvent texts event).1 = .applied event ∧
      event.sequence = (reducer.held event.sessionId).length + 1 ∧
      (∀ other, (reducer.applyEvent texts event).2.held other =
        if other = event.sessionId then reducer.held event.sessionId ++ [event]
        else reducer.held other)) ∨
    ((∀ taken, (reducer.applyEvent texts event).1 ≠ .applied taken) ∧
      (reducer.applyEvent texts event).2 = reducer) := by
  have hspec := applyEvent_spec texts h event
  rcases Reception.accept_cases (sameEvent texts) (h.numbered event.sessionId) event with
    ⟨haccept, hnext⟩ | ⟨existing, -, -, haccept⟩ | ⟨haccept, -⟩
  · left
    have hreception : reducer.reception texts event = (.applied, reducer.held event.sessionId ++ [event]) :=
      haccept
    rw [hreception] at hspec
    exact ⟨hspec.1, hnext, hspec.2.2.1⟩
  · right
    refine ⟨?_, hspec.2.2.2 (congrArg Prod.snd haccept)⟩
    intro taken
    unfold reception at hspec
    rw [hspec.1, haccept]
    split <;> exact fun hsame => nomatch hsame
  · right
    refine ⟨?_, hspec.2.2.2 (congrArg Prod.snd haccept)⟩
    intro taken
    unfold reception at hspec
    rw [hspec.1, haccept]
    exact fun hsame => nomatch hsame

theorem reported_cases (event : HarnessEvent) (result : Reception HarnessEvent) :
    (result = .applied ∧ reported event result = .applied event) ∨
    (∃ existing, result = .duplicate existing ∧ reported event result = .duplicate existing) ∨
    (∃ expected, result = .gap expected ∧
      reported event result = .gap event.sessionId expected event.sequence) ∨
    (∃ existing, result = .conflict existing ∧
      reported event result = .conflict event.sessionId event.sequence existing event) := by
  cases result with
  | applied => exact Or.inl ⟨rfl, rfl⟩
  | duplicate existing => exact Or.inr (Or.inl ⟨existing, rfl, rfl⟩)
  | gap expected => exact Or.inr (Or.inr (Or.inl ⟨expected, rfl, rfl⟩))
  | conflict existing => exact Or.inr (Or.inr (Or.inr ⟨existing, rfl, rfl⟩))

/-! ## Snapshots -/

/-- A partial snapshot is received as a batch. -/
theorem applyPartial_spec (texts : JsonTexts) (tombstones : List SnapshotTombstone)
    {sessionId : String} (events : List HarnessEvent)
    (hsession : ∀ event ∈ events, event.sessionId = sessionId) {reducer : SessionEventReducer}
    (h : reducer.Sound) (appliedEvents duplicateEvents : Nat)
    {batch : Option (Reception HarnessEvent) × List HarnessEvent}
    (hbatch : Reception.acceptAll HarnessEvent.sequence (sameEvent texts)
      (reducer.held sessionId) events = batch)
    {result : SnapshotApplyResult × SessionEventReducer}
    (hresult : reducer.applyPartial texts tombstones appliedEvents duplicateEvents events = result) :
    result.1.refusal = batch.1 ∧ result.2.Sound ∧
      (∀ other, result.2.held other = if other = sessionId then batch.2 else reducer.held other) ∧
      (batch.2 = reducer.held sessionId → result.2 = reducer) := by
  -- induction on the events: each one is received into the list that the earlier ones have left
  induction events generalizing reducer appliedEvents duplicateEvents with
  | nil =>
    subst hbatch hresult
    refine ⟨rfl, h, ?_, fun _ => rfl⟩
    intro other
    split
    · rename_i hother
      rw [hother]
      rfl
    · rfl
  | cons event rest ih =>
    have hone := applyEvent_spec texts h event
    have hown := hsession event List.mem_cons_self
    have hrest := fun other hother => hsession other (List.mem_cons_of_mem event hother)
    unfold reception at hone
    rw [hown] at hone
    have hnumbered := h.numbered sessionId
    have hlength := Reception.accept_length (sameEvent texts) hnumbered event
    have hafter : Numbered HarnessEvent.sequence (Reception.accept HarnessEvent.sequence
        (sameEvent texts) (reducer.held sessionId) event).2 := Reception.accept_numbered hnumbered
    have hgrows := (Reception.prefix_acceptAll (sameEvent texts) rest hafter).length_le
    unfold Reception.acceptAll at hbatch
    unfold applyPartial at hresult
    generalize Reception.accept HarnessEvent.sequence (sameEvent texts)
      (reducer.held sessionId) event = accepted at hone hbatch hlength hgrows
    generalize reducer.applyEvent texts event = applied at hone hresult
    rcases accepted with ⟨received, list⟩
    rcases applied with ⟨outcome, next⟩
    rcases hone with ⟨houtcome, hsound, hheld, hsame⟩
    dsimp only at houtcome hheld hsame hbatch hlength hgrows hresult
    have hlist : next.held sessionId = list := by rw [hheld, if_pos rfl]
    -- a reception that goes on hands its list to the rest
    have hgo : ∀ applied duplicates,
        Reception.acceptAll HarnessEvent.sequence (sameEvent texts) list rest = batch →
        next.applyPartial texts tombstones applied duplicates rest = result →
        result.1.refusal = batch.1 ∧ result.2.Sound ∧
          (∀ other, result.2.held other =
            if other = sessionId then batch.2 else reducer.held other) ∧
          (batch.2 = reducer.held sessionId → result.2 = reducer) := by
      intro applied duplicates hbatch hresult
      have hall := ih hrest hsound applied duplicates (hlist.symm ▸ hbatch) hresult
      refine ⟨hall.1, hall.2.1, ?_, ?_⟩
      · intro other
        rw [hall.2.2.1 other]
        split
        · rfl
        · rename_i hother
          rw [hheld other, if_neg hother]
      · intro hunchanged
        rw [hbatch, hunchanged] at hgrows
        rcases hlength with hequal | hlonger
        · rw [hall.2.2.2 (by rw [hlist, hequal, hunchanged]), hsame hequal]
        · omega
    rcases reported_cases event received with
      ⟨hreceived, hreport⟩ | ⟨existing, hreceived, hreport⟩ | ⟨expected, hreceived, hreport⟩ |
        ⟨existing, hreceived, hreport⟩
    · rw [houtcome, hreport] at hresult
      rw [hreceived] at hbatch
      exact hgo _ _ hbatch hresult
    · rw [houtcome, hreport] at hresult
      rw [hreceived] at hbatch
      exact hgo _ _ hbatch hresult
    · rw [houtcome, hreport] at hresult
      rw [hreceived] at hbatch
      subst hbatch hresult
      exact ⟨rfl, hsound, hheld, hsame⟩
    · rw [houtcome, hreport] at hresult
      rw [hreceived] at hbatch
      subst hbatch hresult
      exact ⟨rfl, hsound, hheld, hsame⟩

/-- The map of a complete snapshot holds its events. -/
theorem replacement_spec {sessionId : String} (events : List HarnessEvent)
    (hnumbered : Numbered HarnessEvent.sequence events)
    (hsession : ∀ event ∈ events, event.sessionId = sessionId) :
    (replacement events).values = events ∧
      (replacement events).entries = events.map fun event => (event.sequence, event) := by
  -- induction from the end: the last event stands under a new key
  induction events using List.reverseRecOn with
  | nil => exact ⟨rfl, rfl⟩
  | append_singleton before event ih =>
    have hbefore := hnumbered.of_prefix (List.prefix_append before [event])
    have hlast := hnumbered.getElem
      (show before.length < (before ++ [event]).length by simp)
    rw [List.getElem_concat_length rfl] at hlast
    rcases ih hbefore fun other hother => hsession other (List.mem_append_left _ hother) with
      ⟨hvalues, hentries⟩
    have hnone : (replacement before).get? event.sequence = none := by
      unfold Dict.get?
      rw [hentries, Dict.find_map_key]
      rcases Reception.find?_cases hbefore event with ⟨existing, hmem, hsame, -⟩ | ⟨-, hnone⟩
      · have htake : existing ∈ before.take before.length := by
          rw [List.take_length]
          exact hmem
        have hle := hbefore.le_of_mem_take htake
        omega
      · exact hnone
    have hset : replacement (before ++ [event]) =
        (replacement before).set event.sequence event := by
      unfold replacement
      rw [List.foldl_append]
      rfl
    have hadded := Dict.entries_set_of_none event hnone
    rw [hset]
    constructor
    · unfold Dict.values at hvalues ⊢
      rw [hadded, List.map_append, hvalues]
      rfl
    · rw [hadded, hentries, List.map_append]
      rfl

end SessionEventReducer

theorem contiguousFrom_iff {sessionId : String} {first : Nat} {events : List HarnessEvent} :
    contiguousFrom sessionId first events = true ↔
      (∀ event ∈ events, event.sessionId = sessionId) ∧
        events.map HarnessEvent.sequence = List.range' first events.length := by
  induction events generalizing first with
  | nil => simp [contiguousFrom]
  | cons event rest ih =>
    simp only [contiguousFrom, Bool.and_eq_true, beq_iff_eq, ih, List.map_cons, List.length_cons,
      List.range'_succ, List.cons.injEq, List.forall_mem_cons]
    constructor
    · rintro ⟨⟨hsession, hfirst⟩, hrest, hnumbers⟩
      exact ⟨⟨hsession, hrest⟩, hfirst, hnumbers⟩
    · rintro ⟨⟨hsession, hrest⟩, hfirst, hnumbers⟩
      exact ⟨⟨hsession, hfirst⟩, hrest, hnumbers⟩

structure SnapshotSlice (snapshot : SessionSnapshot) : Prop where
  nonempty : snapshot.events ≠ []
  session : ∀ event ∈ snapshot.events, event.sessionId = snapshot.sessionId
  sequences : snapshot.events.map HarnessEvent.sequence =
    List.range' snapshot.fromSequence snapshot.events.length
  fromStart : snapshot.complete = true → snapshot.fromSequence = 1
  positive : 0 < snapshot.fromSequence

variable {schemas : PayloadSchemas}

theorem SessionSnapshot.slice {snapshot : SessionSnapshot}
    (h : snapshot.valid schemas = true) : SnapshotSlice snapshot := by
  unfold SessionSnapshot.valid at h
  simp only [Bool.and_eq_true, Bool.or_eq_true, Bool.not_eq_true', decide_eq_true_eq,
    beq_iff_eq] at h
  rcases h with ⟨⟨⟨⟨⟨⟨⟨-, hnonempty⟩, -⟩, hpositive⟩, hstart⟩, -⟩, hcontiguous⟩, -⟩
  have hslice := contiguousFrom_iff.mp hcontiguous
  constructor
  · rintro hnil
    rw [hnil] at hnonempty
    cases hnonempty
  · exact hslice.1
  · exact hslice.2
  · intro hcomplete
    rcases hstart with hpartial | hone
    · rw [hcomplete] at hpartial
      cases hpartial
    · exact hone
  · exact hpositive

theorem SnapshotPayload.slice {snapshot : SnapshotPayload}
    (h : snapshot.valid schemas = true) : SnapshotSlice snapshot.toSessionSnapshot := by
  unfold SnapshotPayload.valid at h
  rw [Bool.and_eq_true] at h
  exact SessionSnapshot.slice h.1

namespace SessionEventReducer

/-- The effect of a snapshot on the list of its session. -/
def batch (texts : JsonTexts) (reducer : SessionEventReducer) (snapshot : SessionSnapshot) :
    Option (Reception HarnessEvent) × List HarnessEvent :=
  if snapshot.complete then (none, snapshot.events)
  else Reception.acceptAll HarnessEvent.sequence (sameEvent texts)
    (reducer.held snapshot.sessionId) snapshot.events

/-- `applySnapshot` replaces the list of its session or extends it; a refusal changes nothing. -/
theorem applySnapshot_spec (texts : JsonTexts) {snapshot : SnapshotPayload}
    (hslice : SnapshotSlice snapshot.toSessionSnapshot) {reducer : SessionEventReducer}
    (h : reducer.Sound) :
    (reducer.applySnapshot texts snapshot).1.refusal =
        (reducer.batch texts snapshot.toSessionSnapshot).1 ∧
      (reducer.applySnapshot texts snapshot).2.Sound ∧
      (∀ other, (reducer.applySnapshot texts snapshot).2.held other =
        if other = snapshot.sessionId then (reducer.batch texts snapshot.toSessionSnapshot).2
        else reducer.held other) ∧
      ((reducer.applySnapshot texts snapshot).1.refusal ≠ none →
        (reducer.applySnapshot texts snapshot).2 = reducer) := by
  unfold applySnapshot batch
  cases hcomplete : snapshot.complete with
  | true =>
    rw [if_pos rfl, if_pos rfl]
    have hnumbered : Numbered HarnessEvent.sequence snapshot.events := by
      have hsequences := hslice.sequences
      rw [hslice.fromStart hcomplete] at hsequences
      exact hsequences
    have hmap := replacement_spec snapshot.events hnumbered hslice.session
    have hledger : Ledger snapshot.sessionId (replacement snapshot.events) := by
      constructor
      · rw [hmap.1, hmap.2]
      · rw [hmap.1]
        exact hnumbered
      · rw [hmap.1]
        exact hslice.nonempty
      · rw [hmap.1]
        exact hslice.session
    have hset := h.set hledger
    refine ⟨rfl, hset.1, ?_, fun hrefused => absurd rfl hrefused⟩
    intro other
    rw [hset.2 other, hmap.1]
  | false =>
    rw [if_neg Bool.false_ne_true, if_neg Bool.false_ne_true]
    have hspec := applyPartial_spec texts snapshot.tombstones snapshot.events hslice.session h
      0 0 rfl rfl
    refine ⟨hspec.1, hspec.2.1, hspec.2.2.1, ?_⟩
    intro hrefused
    rw [hspec.1] at hrefused
    rcases Option.ne_none_iff_exists'.mp hrefused with ⟨result, hresult⟩
    exact hspec.2.2.2 (Reception.acceptAll_refused snapshot.events
      (h.numbered snapshot.sessionId) hslice.sequences hresult)

/-! ## The resume cursor -/

theorem Sound.mem_resumeCursor {reducer : SessionEventReducer} (h : reducer.Sound)
    (texts : JsonTexts) (sessionId : String) (last : Nat) :
    ⟨sessionId, last⟩ ∈ (reducer.resumeCursor texts).getD [] ↔
      reducer.held sessionId ≠ [] ∧ last = (reducer.held sessionId).length := by
  have hmem : ⟨sessionId, last⟩ ∈ (reducer.resumeCursor texts).getD [] ↔
      ∃ entry ∈ reducer.eventsBySession.entries, (⟨entry.1, maxKey entry.2⟩ : ResumePosition) =
        ⟨sessionId, last⟩ := by
    unfold resumeCursor
    dsimp only
    split
    · rw [Option.getD_some, List.mem_mergeSort, List.mem_map]
    · rename_i hempty
      have hnil := List.eq_nil_of_length_eq_zero (Nat.eq_zero_of_not_pos hempty)
      have hsource : (reducer.eventsBySession.entries.map fun entry =>
          (⟨entry.1, maxKey entry.2⟩ : ResumePosition)) = [] := by
        apply List.eq_nil_of_length_eq_zero
        rw [← List.length_mergeSort, hnil, List.length_nil]
      rw [Option.getD_none, ← List.mem_map, hsource]
  rw [hmem]
  constructor
  · rintro ⟨⟨session, events⟩, hentry, hposition⟩
    cases hposition
    have hget := Dict.get?_eq_some_iff.mpr hentry
    have hledger := h session events hget
    rw [held_of_get? hget]
    exact ⟨hledger.nonempty, hledger.maxKey⟩
  · rintro ⟨hnonempty, rfl⟩
    cases hget : reducer.eventsBySession.get? sessionId with
    | none =>
      unfold held at hnonempty
      rw [hget] at hnonempty
      exact absurd rfl hnonempty
    | some events =>
      refine ⟨(sessionId, events), Dict.get?_eq_some_iff.mp hget, ?_⟩
      rw [held_of_get? hget]
      exact congrArg (ResumePosition.mk sessionId) (h sessionId events hget).maxKey

/-! ## The events in order -/

theorem Sound.filter_events {reducer : SessionEventReducer} (h : reducer.Sound)
    (texts : JsonTexts) (sessionId : String) :
    (reducer.events texts).filter (fun event => event.sessionId == sessionId) =
      reducer.held sessionId := by
  have hledger : ∀ entry ∈ reducer.eventsBySession.entries, Ledger entry.1 entry.2 :=
    fun entry hentry => h entry.1 entry.2 (Dict.get?_eq_some_iff.mpr hentry)
  -- before the sort, later events of a session stand behind its earlier ones
  have hordered : (reducer.eventsBySession.values.flatMap Dict.values).Pairwise fun a b =>
      a.sessionId = b.sessionId → a.sequence ≤ b.sequence := by
    rw [List.pairwise_flatMap]
    constructor
    · intro events hevents
      rcases List.mem_map.mp hevents with ⟨entry, hentry, rfl⟩
      have hsorted : (entry.2.values.map HarnessEvent.sequence).Pairwise (· < ·) := by
        rw [(hledger entry hentry).numbered]
        exact List.pairwise_lt_range'
      apply (List.pairwise_map.mp hsorted).imp
      intro a b hlt _
      exact Nat.le_of_lt hlt
    · unfold Dict.values
      rw [List.pairwise_map]
      apply (List.pairwise_map.mp reducer.eventsBySession.nodup).imp_of_mem
      intro a b ha hb hne x hx y hy hsame
      rw [(hledger a ha).session x hx, (hledger b hb).session y hy] at hsame
      exact absurd hsame hne
  have hrefl : ∀ session, texts.localeLe session session = true := by
    intro session
    simpa using texts.localeLe_total session session
  unfold events
  rw [mergeSort_congr fun left right => texts.localeLe left.sessionId right.sessionId]
  · rw [filter_mergeSort]
    · apply Dict.filter_flatMap_find sessionId reducer.eventsBySession.nodup
      intro entry hentry event hevent
      rw [(hledger entry hentry).session event hevent]
      rfl
    · exact fun a b c => texts.localeLe_trans _ _ _
    · exact fun a b => texts.localeLe_total _ _
    · apply List.pairwise_of_forall_mem_list
      intro a ha b hb
      have hleft := beq_iff_eq.mp (List.mem_filter.mp ha).2
      have hright := beq_iff_eq.mp (List.mem_filter.mp hb).2
      rw [hleft, hright]
      exact hrefl sessionId
  · apply hordered.imp
    intro a b hsame
    split
    · rename_i hsession
      rw [hsession, hrefl]
      exact decide_eq_true (hsame hsession)
    · rfl

/-! ## Runs -/

end SessionEventReducer

inductive ReducerInput where
  | event (payload : HarnessEvent)
  | snapshot (payload : SnapshotPayload)

def ReducerInput.valid (schemas : PayloadSchemas) : ReducerInput → Bool
  | .event payload => payload.valid schemas
  | .snapshot payload => payload.valid schemas

def ReducerInput.events : ReducerInput → List HarnessEvent
  | .event payload => [payload]
  | .snapshot payload => payload.events

namespace SessionEventReducer

def call (texts : JsonTexts) (reducer : SessionEventReducer) :
    ReducerInput → Option (Reception HarnessEvent) × SessionEventReducer
  | .event event =>
    ((reducer.applyEvent texts event).1.refusal, (reducer.applyEvent texts event).2)
  | .snapshot snapshot =>
    ((reducer.applySnapshot texts snapshot).1.refusal, (reducer.applySnapshot texts snapshot).2)

def step (texts : JsonTexts) (reducer : SessionEventReducer) (input : ReducerInput) :
    SessionEventReducer :=
  (reducer.call texts input).2

theorem reported_refusal (event : HarnessEvent) (result : Reception HarnessEvent) :
    (reported event result).refusal = if result.refused then some result else none := by
  cases result <;> rfl

theorem Sound.call (texts : JsonTexts) {reducer : SessionEventReducer}
    (h : reducer.Sound) {input : ReducerInput} (hvalid : input.valid schemas = true) :
    (reducer.step texts input).Sound ∧
      ((reducer.call texts input).1 ≠ none → reducer.step texts input = reducer) := by
  cases input with
  | event event =>
    have hspec := applyEvent_spec texts h event
    refine ⟨hspec.2.1, ?_⟩
    intro hrefused
    have hrefused' : (reducer.applyEvent texts event).1.refusal ≠ none := hrefused
    rw [hspec.1, reported_refusal] at hrefused'
    apply hspec.2.2.2
    apply Reception.accept_refused (h.numbered event.sessionId)
    by_contra haccepted
    exact hrefused' (if_neg haccepted)
  | snapshot snapshot =>
    have hspec := applySnapshot_spec texts (SnapshotPayload.slice hvalid) h
    exact ⟨hspec.2.1, hspec.2.2.2⟩

theorem Sound.follow (texts : JsonTexts)
    {reducer : SessionEventReducer} (h : reducer.Sound) {input : ReducerInput}
    (hvalid : input.valid schemas = true) {sessionId : String} {log : List HarnessEvent}
    (hlog : Numbered HarnessEvent.sequence log)
    (hfrom : ∀ event ∈ input.events, event.sessionId = sessionId → event ∈ log)
    (hheld : reducer.held sessionId <+: log) :
    (reducer.step texts input).held sessionId <+: log := by
  cases input with
  | event event =>
    have hspec := applyEvent_spec texts h event
    show (reducer.applyEvent texts event).2.held sessionId <+: log
    rw [hspec.2.2.1 sessionId]
    split
    · rename_i hsession
      have hmem := hfrom event List.mem_cons_self hsession.symm
      unfold reception
      rw [← hsession]
      exact Reception.accept_prefix hlog hheld hmem (sameEvent_self texts)
    · exact hheld
  | snapshot snapshot =>
    have hslice := SnapshotPayload.slice hvalid
    have hspec := applySnapshot_spec texts hslice h
    show (reducer.applySnapshot texts snapshot).2.held sessionId <+: log
    rw [hspec.2.2.1 sessionId]
    split
    · rename_i hsession
      have hmem : ∀ event ∈ snapshot.events, event ∈ log := fun event hevent =>
        hfrom event hevent ((hslice.session event hevent).trans hsession.symm)
      unfold batch
      split
      · rename_i hcomplete
        have hsequences := hslice.sequences
        rw [hslice.fromStart hcomplete] at hsequences
        exact hlog.prefix_of_mem hsequences hmem
      · rw [← hsession]
        exact Reception.acceptAll_prefix snapshot.events hlog hheld hmem (sameEvent_self texts)
    · exact hheld

def loggedEvent (sequence : Nat) : HarnessEvent :=
  { sessionId := "s", turnId := none, sequence, eventType := "session.state.changed", createdAt := 0
    data := .obj .nil }

def plainTexts : JsonTexts where
  stringify _ := ""
  localeLe left right := decide (left ≤ right)
  localeLe_trans a b c hab hbc := by
    rw [decide_eq_true_eq] at hab hbc ⊢
    exact String.le_trans hab hbc
  localeLe_total a b := by
    rw [Bool.or_eq_true, decide_eq_true_eq, decide_eq_true_eq]
    exact String.le_total a b

end SessionEventReducer

end HarnessControl.Protocol
