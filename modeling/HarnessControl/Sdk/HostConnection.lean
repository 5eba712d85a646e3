import HarnessControl.Library.Announcement
import HarnessControl.Protocol.SessionReducer

/-!
# The client's connection

`HcpHostConnection` receives the messages of one socket, applies the events and snapshots to its
reducer, and tells the observers of the application.
-/

namespace HarnessControl.Sdk

open HarnessControl.Library HarnessControl.Protocol

inductive ConnectionState where
  | awaitingHello
  | awaitingAccept
  | accepted
  | closed
deriving DecidableEq

inductive UnconfirmedReason where
  | disconnected
  | reconciliationRequired
deriving DecidableEq

inductive SessionObservation where
  | event (event : HarnessEvent)
  | unconfirmed (reason : UnconfirmedReason) (sessionId : Option String)
deriving DecidableEq

/-- An observer function, and what the reducer has taken since it was registered: the session and
the sequence of each event that it did not hold before. -/
structure Registration where
  observer : Nat
  committed : List (String × Nat)
deriving DecidableEq

inductive RunnerMessage where
  | hostHello
  | harnessEvent (payload : HarnessEvent)
  | sessionSnapshot (payload : SnapshotPayload)
  | replayUnavailable (sessionId : String)
  | other
deriving DecidableEq

def RunnerMessage.valid (schemas : PayloadSchemas) : RunnerMessage → Bool
  | .harnessEvent payload => payload.valid schemas
  | .sessionSnapshot payload => payload.valid schemas
  | .hostHello | .replayUnavailable _ | .other => true

structure HostConnection where
  state : ConnectionState
  events : SessionEventReducer
  sessionObservers : Announcement SessionObservation Registration

def maxSessionObservers : Nat := 128

namespace HostConnection

/-- A new connection takes a reducer of the application. -/
def opened (events : SessionEventReducer) : HostConnection := ⟨.awaitingHello, events, .opened⟩

/-- The events of a session that the reducer holds now and did not hold before. -/
def newlyHeld (before after : SessionEventReducer) (sessionId : String) : List (String × Nat) :=
  ((after.held sessionId).filter fun event => !(before.held sessionId).any fun old =>
    old.sequence == event.sequence).map fun event => (sessionId, event.sequence)

/-- `#observeEvent` of each event, after the reducer has taken them. -/
def observeEvents (connection : HostConnection) (after : SessionEventReducer)
    (sessionId : String) (events : List HarnessEvent) : HostConnection :=
  let committed := newlyHeld connection.events after sessionId
  { connection with
    events := after
    sessionObservers := (connection.sessionObservers.retag fun registration =>
        { registration with committed := registration.committed ++ committed }).announce
      (events.map SessionObservation.event) }

/-- `#failEventWaiters`, as far as the observers see it. -/
def reconcile (connection : HostConnection) (sessionId : String) : HostConnection :=
  { connection with
    sessionObservers := connection.sessionObservers.announce
      [.unconfirmed .reconciliationRequired (some sessionId)] }

def receive (schemas : PayloadSchemas) (texts : JsonTexts) (connection : HostConnection)
    (message : RunnerMessage) : HostConnection :=
  if message.valid schemas = true then
    match connection.state, message with
    | .awaitingHello, .hostHello => { connection with state := .awaitingAccept }
    | .accepted, .replayUnavailable sessionId => connection.reconcile sessionId
    | .accepted, .harnessEvent payload =>
      match connection.events.applyEvent texts payload with
      | (.applied _, after) => connection.observeEvents after payload.sessionId [payload]
      | (.duplicate _, _) => connection
      | (_, after) => { connection with events := after }.reconcile payload.sessionId
    | .accepted, .sessionSnapshot payload =>
      match connection.events.applySnapshot texts payload with
      | (.applied _ _ _ _, after) =>
        connection.observeEvents after payload.sessionId <|
          (after.events texts).filter fun event => event.sessionId == payload.sessionId
      | (_, after) => { connection with events := after }.reconcile payload.sessionId
    | _, _ => connection
  else connection

def disconnect (connection : HostConnection) : HostConnection :=
  { connection with
    state := .closed
    sessionObservers := connection.sessionObservers.clear (.unconfirmed .disconnected none) }

/-- The runner is accepted; the message may fail to be sent. -/
def accept (connection : HostConnection) (fails : Bool) : HostConnection :=
  if connection.state = .awaitingAccept then
    let accepted := { connection with state := .accepted }
    if fails then accepted.disconnect else accepted
  else connection

def observing (observer : Nat) (watcher : Watcher SessionObservation Registration) : Bool :=
  watcher.attached && watcher.tag.observer == observer

def subscribeSessionObservations (connection : HostConnection) (observer : Nat) :
    HostConnection :=
  if maxSessionObservers ≤ connection.sessionObservers.watchers.countP Watcher.attached then
    connection
  else if connection.sessionObservers.watchers.any (observing observer) then connection
  else { connection with
    sessionObservers := connection.sessionObservers.subscribe ⟨observer, []⟩ }

def unsubscribe (connection : HostConnection) (observer : Nat) : HostConnection :=
  { connection with
    sessionObservers := connection.sessionObservers.unsubscribe
      (connection.sessionObservers.watchers.findIdx (observing observer)) }

/-! ## Runs -/

/-- What may happen, also inside a callback of an observer. -/
inductive Action where
  | receive (message : RunnerMessage)
  | accept (fails : Bool)
  | disconnect
  | subscribe (observer : Nat)
  | unsubscribe (observer : Nat)
  /-- The next step of the innermost notification; the observer that it calls may throw. -/
  | notify (throws : Bool)

def step (schemas : PayloadSchemas) (texts : JsonTexts) (connection : HostConnection) :
    Action → HostConnection
  | .receive message => connection.receive schemas texts message
  | .accept fails => connection.accept fails
  | .disconnect => connection.disconnect
  | .subscribe observer => connection.subscribeSessionObservations observer
  | .unsubscribe observer => connection.unsubscribe observer
  | .notify throws =>
    { connection with sessionObservers := connection.sessionObservers.advance throws }

/-! ## What observers are told -/

/-- The session and the sequence of an event that an observer is told. -/
def position : SessionObservation → Option (String × Nat)
  | .event event => some (event.sessionId, event.sequence)
  | .unconfirmed _ _ => none

/-- What is told of the events of a session that were committed since the registration. -/
def sequencesTold (registration : Registration) (told : List SessionObservation)
    (sessionId : String) : List Nat :=
  ((told.filterMap position).filter fun place =>
    place.1 == sessionId && registration.committed.contains place).map Prod.snd

/-- Each observer is told of what was committed since its registration in order and, while it is
registered, exactly once. -/
structure ToldOnce (connection : HostConnection) : Prop where
  ordered : ∀ watcher ∈ connection.sessionObservers.watchers, ∀ sessionId,
    (sequencesTold watcher.tag watcher.told sessionId).Pairwise (· < ·)
  once : connection.sessionObservers.idle = true →
    ∀ watcher ∈ connection.sessionObservers.watchers, watcher.attached = true →
      ∀ place ∈ watcher.tag.committed, (watcher.told.filterMap position).count place = 1

theorem sequencesTold_append (registration : Registration) (told rest : List SessionObservation)
    (sessionId : String) : sequencesTold registration (told ++ rest) sessionId =
      sequencesTold registration told sessionId ++ sequencesTold registration rest sessionId := by
  unfold sequencesTold
  rw [List.filterMap_append, List.filter_append, List.map_append]

variable {told : List SessionObservation} {sessionId : String}

theorem sequencesTold_committed {committed fresh : List (String × Nat)} {observer : Nat}
    (hfresh : ∀ place ∈ told.filterMap position, place.1 = sessionId → place ∉ fresh) :
    sequencesTold ⟨observer, committed ++ fresh⟩ told sessionId =
      sequencesTold ⟨observer, committed⟩ told sessionId := by
  unfold sequencesTold
  congr 1
  apply List.filter_congr
  intro place hplace
  by_cases hsession : place.1 = sessionId
  · have hnot := hfresh place hplace hsession
    simp [hnot]
  · have hother : (place.1 == sessionId) = false := beq_eq_false_iff_ne.mpr hsession
    rw [hother, Bool.false_and, Bool.false_and]

theorem sequencesTold_nil {registration : Registration}
    (h : ∀ place ∈ told.filterMap position, place ∈ registration.committed → place.1 ≠ sessionId) :
    sequencesTold registration told sessionId = [] := by
  unfold sequencesTold
  rw [List.map_eq_nil_iff, List.filter_eq_nil_iff]
  intro place hplace hboth
  rw [Bool.and_eq_true, beq_iff_eq, List.contains_iff_mem] at hboth
  exact h place hplace hboth.2 hboth.1

theorem filterMap_position_event (events : List HarnessEvent) :
    (events.map SessionObservation.event).filterMap position =
      events.map fun event => (event.sessionId, event.sequence) := by
  rw [List.filterMap_map]
  exact congrFun (List.filterMap_eq_map (f := fun event : HarnessEvent =>
    (event.sessionId, event.sequence))) events

theorem ordered_observed {committed fresh : List (String × Nat)} {observer : Nat}
    {told rest : List SessionObservation} {events : List HarnessEvent}
    (hfresh : ∀ place ∈ fresh, place.1 = sessionId ∧ place ∉ (told ++ rest).filterMap position)
    (hrest : ∀ place ∈ rest.filterMap position, place ∈ committed → place.1 ≠ sessionId)
    (htold : ∀ place ∈ told.filterMap position, place ∈ committed → place.1 = sessionId →
      ∀ event ∈ events, place.2 < event.sequence)
    (hsession : ∀ event ∈ events, event.sessionId = sessionId)
    (hevents : (events.map HarnessEvent.sequence).Pairwise (· < ·))
    (hordered : ∀ other, (sequencesTold ⟨observer, committed⟩ (told ++ rest) other).Pairwise (· < ·))
    (other : String) :
    (sequencesTold ⟨observer, committed ++ fresh⟩
      (told ++ (events.map SessionObservation.event ++ rest)) other).Pairwise (· < ·) := by
  have hmem : ∀ list : List SessionObservation, (∀ place ∈ list.filterMap position,
      place ∈ (told ++ rest).filterMap position) → ∀ session,
      sequencesTold ⟨observer, committed ++ fresh⟩ list session =
        sequencesTold ⟨observer, committed⟩ list session := by
    intro list hlist session
    apply sequencesTold_committed
    intro place hplace _ hnew
    exact (hfresh place hnew).2 (hlist place hplace)
  have hbefore := hmem told fun place hplace => by
    rw [List.filterMap_append]
    exact List.mem_append_left _ hplace
  have hafter := hmem rest fun place hplace => by
    rw [List.filterMap_append]
    exact List.mem_append_right _ hplace
  have hold := hordered other
  rw [sequencesTold_append] at hold
  rw [sequencesTold_append, sequencesTold_append, hbefore, hafter]
  by_cases hother : other = sessionId
  · subst hother
    have hnone : sequencesTold ⟨observer, committed⟩ rest other = [] := sequencesTold_nil hrest
    rw [hnone, List.append_nil] at hold ⊢
    have hsublist : (sequencesTold ⟨observer, committed ++ fresh⟩
        (events.map SessionObservation.event) other).Sublist (events.map HarnessEvent.sequence) := by
      have hsub := (List.filter_sublist (p := fun place : String × Nat => place.1 == other &&
        (committed ++ fresh).contains place)
        (l := events.map fun event => (event.sessionId, event.sequence))).map Prod.snd
      rw [List.map_map] at hsub
      unfold sequencesTold
      rw [filterMap_position_event]
      exact hsub
    rw [List.pairwise_append]
    refine ⟨hold, hevents.sublist hsublist, ?_⟩
    intro a ha b hb
    rcases List.mem_map.mp ha with ⟨place, hplace, rfl⟩
    rcases List.mem_map.mp (hsublist.subset hb) with ⟨event, hevent, rfl⟩
    rcases List.mem_filter.mp hplace with ⟨hplace, hboth⟩
    rw [Bool.and_eq_true, beq_iff_eq, List.contains_iff_mem] at hboth
    exact htold place hplace hboth.2 hboth.1 event hevent
  · have hnone : sequencesTold ⟨observer, committed ++ fresh⟩
        (events.map SessionObservation.event) other = [] := by
      apply sequencesTold_nil
      intro place hplace _ hsame
      rw [filterMap_position_event] at hplace
      rcases List.mem_map.mp hplace with ⟨event, hevent, rfl⟩
      exact hother (hsame.symm.trans (hsession event hevent))
    rw [hnone, List.nil_append]
    exact hold

/-! ## One step -/

def sequencesHeld (events : SessionEventReducer) (sessionId : String) : List Nat :=
  (events.held sessionId).map HarnessEvent.sequence

/-- All that is committed is told in the end, and what is told is still held. -/
def ToldAll (events : SessionEventReducer) (registration : Registration)
    (told : List SessionObservation) : Prop :=
  (∀ place ∈ registration.committed, place ∈ told.filterMap position) ∧
  ∀ place ∈ told.filterMap position, place.2 ∈ sequencesHeld events place.1

def Ordered (registration : Registration) (told : List SessionObservation) : Prop :=
  ∀ sessionId, (sequencesTold registration told sessionId).Pairwise (· < ·)

theorem Ordered.first (registration : Registration) (told rest : List SessionObservation)
    (h : Ordered registration (told ++ rest)) : Ordered registration told := by
  intro sessionId
  have hordered := h sessionId
  rw [sequencesTold_append, List.pairwise_append] at hordered
  exact hordered.1

theorem filterMap_position_unconfirmed (told : List SessionObservation)
    (reason : UnconfirmedReason) (session : Option String) (rest : List SessionObservation) :
    (told ++ ([SessionObservation.unconfirmed reason session] ++ rest)).filterMap position =
      (told ++ rest).filterMap position := by
  rw [List.filterMap_append, List.filterMap_append, List.filterMap_append]
  rfl

structure Sound (connection : HostConnection) : Prop where
  reducer : connection.events.Sound
  observers : connection.sessionObservers.Kept Ordered (ToldAll connection.events)
  upcoming : ∀ point ∈ connection.sessionObservers.upcoming.filterMap position,
    point.2 ∈ sequencesHeld connection.events point.1

theorem Sound.opened {events : SessionEventReducer} (h : events.Sound) : Sound (opened events) where
  reducer := h
  observers := Announcement.Kept.opened
  upcoming _ hmem := absurd hmem List.not_mem_nil

theorem mem_newlyHeld {before after : SessionEventReducer}
    {place : String × Nat} : place ∈ newlyHeld before after sessionId ↔
      place.1 = sessionId ∧ place.2 ∈ sequencesHeld after sessionId ∧
        place.2 ∉ sequencesHeld before sessionId := by
  unfold newlyHeld sequencesHeld
  constructor
  · intro hmem
    rcases List.mem_map.mp hmem with ⟨event, hevent, rfl⟩
    rcases List.mem_filter.mp hevent with ⟨hheld, hnew⟩
    refine ⟨rfl, List.mem_map_of_mem hheld, ?_⟩
    intro hold
    rcases List.mem_map.mp hold with ⟨old, hold, hsame⟩
    rw [Bool.not_eq_true', List.any_eq_false] at hnew
    exact hnew old hold (beq_iff_eq.mpr hsame)
  · rintro ⟨rfl, hheld, hnew⟩
    rcases List.mem_map.mp hheld with ⟨event, hevent, hsequence⟩
    refine List.mem_map.mpr ⟨event, List.mem_filter.mpr ⟨hevent, ?_⟩, Prod.ext rfl hsequence⟩
    rw [Bool.not_eq_true', List.any_eq_false]
    intro old hold hsame
    rw [beq_iff_eq, hsequence] at hsame
    exact hnew (List.mem_map.mpr ⟨old, hold, hsame⟩)

variable {connection : HostConnection}

theorem Sound.observeEvents (h : Sound connection)
    {after : SessionEventReducer} (hafter : after.Sound) {sessionId : String}
    {events : List HarnessEvent}
    (hothers : ∀ other, other ≠ sessionId → after.held other = connection.events.held other)
    (hevents : events.Sublist (after.held sessionId))
    (htaken : ∀ sequence ∈ sequencesHeld after sessionId,
      sequence ∉ sequencesHeld connection.events sessionId → sequence ∈ events.map HarnessEvent.sequence)
    (hcondition : ∀ place watcher, connection.sessionObservers.watchers[place]? = some watcher →
      watcher.attached = true →
      (∀ point ∈ (connection.sessionObservers.pending place).filterMap position,
        point ∈ watcher.tag.committed → point.1 ≠ sessionId) ∧
      (∀ point ∈ watcher.told.filterMap position, point ∈ watcher.tag.committed →
        point.1 = sessionId → ∀ event ∈ events, point.2 < event.sequence) ∧
      (∀ point ∈ watcher.told.filterMap position,
        point.1 = sessionId → point.2 ∈ sequencesHeld after sessionId))
    (hupcoming : ∀ point ∈ connection.sessionObservers.upcoming.filterMap position,
      point.1 = sessionId → point.2 ∈ sequencesHeld after sessionId) :
    Sound (connection.observeEvents after sessionId events) := by
  have hstill : ∀ point : String × Nat, point.2 ∈ sequencesHeld connection.events point.1 →
      (point.1 = sessionId → point.2 ∈ sequencesHeld after sessionId) →
      point.2 ∈ sequencesHeld after point.1 := by
    intro point hheld hsame
    by_cases hown : point.1 = sessionId
    · rw [hown]
      exact hsame hown
    · unfold sequencesHeld at hheld ⊢
      rw [hothers point.1 hown]
      exact hheld
  have hsession : ∀ event ∈ events, event.sessionId = sessionId := fun event hevent =>
    hafter.session (hevents.subset hevent)
  have hsorted : (events.map HarnessEvent.sequence).Pairwise (· < ·) := by
    apply List.Pairwise.sublist (hevents.map HarnessEvent.sequence)
    rw [hafter.numbered sessionId]
    exact List.pairwise_lt_range'
  have hnewly : ∀ point ∈ events.map fun event => (event.sessionId, event.sequence),
      point.2 ∈ sequencesHeld after point.1 := by
    intro point hpoint
    rcases List.mem_map.mp hpoint with ⟨event, hevent, rfl⟩
    dsimp only
    rw [hsession event hevent]
    exact List.mem_map_of_mem (hevents.subset hevent)
  refine ⟨hafter, h.observers.announce Ordered.first _ _ ?_, ?_⟩
  rotate_left
  · intro point hpoint
    change point ∈ ([] ++ events.map SessionObservation.event ++
      connection.sessionObservers.upcoming).filterMap position at hpoint
    rw [List.nil_append, List.filterMap_append, filterMap_position_event] at hpoint
    rcases List.mem_append.mp hpoint with hnew | hold
    · exact hnewly point hnew
    · exact hstill point (h.upcoming point hold) (hupcoming point hold)
  intro place watcher hget hattached hordered htold
  rcases hcondition place watcher hget hattached with ⟨hpending, hearlier, hkept⟩
  constructor
  · apply ordered_observed _ hpending hearlier hsession hsorted hordered
    intro point hpoint
    rcases mem_newlyHeld.mp hpoint with ⟨hsame, -, hnew⟩
    refine ⟨hsame, fun hmem => hnew ?_⟩
    rw [← hsame]
    exact htold.2 point hmem
  · have hwhole : ∀ point, point ∈ (watcher.told ++ (events.map SessionObservation.event ++
        connection.sessionObservers.pending place)).filterMap position ↔
        point ∈ (watcher.told ++ connection.sessionObservers.pending place).filterMap position ∨
          point ∈ events.map fun event => (event.sessionId, event.sequence) := by
      intro point
      rw [List.filterMap_append, List.filterMap_append, List.filterMap_append,
        filterMap_position_event, List.mem_append, List.mem_append, List.mem_append]
      tauto
    constructor
    · intro point hpoint
      rw [hwhole]
      rcases List.mem_append.mp hpoint with hold | hnew
      · exact Or.inl (htold.1 point hold)
      · right
        rcases mem_newlyHeld.mp hnew with ⟨hsame, hheld, hfresh⟩
        rcases List.mem_map.mp (htaken point.2 hheld hfresh) with ⟨event, hevent, hsequence⟩
        refine List.mem_map.mpr ⟨event, hevent, Prod.ext ?_ hsequence⟩
        exact (hsession event hevent).trans hsame.symm
    · intro point hpoint
      rw [hwhole] at hpoint
      rcases hpoint with hold | hnew
      · apply hstill point (htold.2 point hold)
        rw [List.filterMap_append] at hold
        rcases List.mem_append.mp hold with hbefore | hafterwards
        · exact hkept point hbefore
        · apply hupcoming point
          rcases List.mem_filterMap.mp hafterwards with ⟨observation, hmem, hposition⟩
          exact List.mem_filterMap.mpr
            ⟨observation, Announcement.pending_subset _ place hmem, hposition⟩
      · exact hnewly point hnew

/-! ## The condition -/

/-- When the reducer takes an event, no observer is still to be told of one of its session that was
committed since its registration; when it takes a snapshot, no observer was or is still to be told
of one, or of an event that the snapshot drops. -/
def Undisturbed (texts : JsonTexts) (connection : HostConnection) : Action → Prop
  | .receive (.harnessEvent payload) => connection.state = .accepted →
    (connection.events.applyEvent texts payload).1 = .applied payload →
    ∀ place watcher, connection.sessionObservers.watchers[place]? = some watcher →
      watcher.attached = true →
      ∀ point ∈ (connection.sessionObservers.pending place).filterMap position,
        point ∈ watcher.tag.committed → point.1 ≠ payload.sessionId
  | .receive (.sessionSnapshot payload) => connection.state = .accepted →
    (connection.events.applySnapshot texts payload).1.refusal = none →
    (∀ watcher ∈ connection.sessionObservers.watchers, watcher.attached = true →
      (∀ point ∈ watcher.tag.committed, point.1 ≠ payload.sessionId) ∧
      (payload.complete = true → ∀ point ∈ watcher.told.filterMap position,
        point.1 = payload.sessionId → point.2 ≤ payload.events.length)) ∧
    (payload.complete = true → ∀ point ∈ connection.sessionObservers.upcoming.filterMap position,
      point.1 = payload.sessionId → point.2 ≤ payload.events.length)
  | _ => True

theorem mem_sequencesHeld {events : SessionEventReducer} (h : events.Sound) {sessionId : String}
    {sequence : Nat} : sequence ∈ sequencesHeld events sessionId ↔
      1 ≤ sequence ∧ sequence ≤ (events.held sessionId).length := by
  unfold sequencesHeld
  rw [h.numbered sessionId, List.mem_range'_1]
  omega

instance (texts : JsonTexts) (connection : HostConnection) : (action : Action) →
    Decidable (connection.Undisturbed texts action)
  | .receive (.harnessEvent payload) =>
    decidable_of_iff (connection.state = .accepted →
        (connection.events.applyEvent texts payload).1 = .applied payload →
        ∀ entry ∈ connection.sessionObservers.watchers.zipIdx, entry.1.attached = true →
          ∀ point ∈ (connection.sessionObservers.pending entry.2).filterMap position,
            point ∈ entry.1.tag.committed → point.1 ≠ payload.sessionId)
      ⟨fun h hstate htaken place watcher hget =>
          h hstate htaken (watcher, place) (List.mem_zipIdx_iff_getElem?.mpr hget),
        fun h hstate htaken entry hentry =>
          h hstate htaken entry.2 entry.1 (List.mem_zipIdx_iff_getElem?.mp hentry)⟩
  | .receive (.sessionSnapshot _) => inferInstanceAs (Decidable (_ → _ → _ ∧ _))
  | .receive .hostHello | .receive (.replayUnavailable _) | .receive .other | .accept _
  | .disconnect | .subscribe _ | .unsubscribe _ | .notify _ => inferInstanceAs (Decidable True)

theorem Sound.reconcile (h : Sound connection) (sessionId : String) :
    Sound (connection.reconcile sessionId) := by
  refine ⟨h.reducer, ?_, h.upcoming⟩
  have hannounce := h.observers.announce Ordered.first id
    [SessionObservation.unconfirmed .reconciliationRequired (some sessionId)]
    (R := ToldAll connection.events) fun place watcher _ _ hordered htold => by
      unfold Ordered sequencesTold ToldAll
      rw [filterMap_position_unconfirmed]
      exact ⟨hordered, htold⟩
  rw [Announcement.retag_id] at hannounce
  exact hannounce

theorem Sound.receiveEvent (texts : JsonTexts) {connection : HostConnection}
    (h : Sound connection) {payload : HarnessEvent}
    (hcondition : connection.Undisturbed texts (.receive (.harnessEvent payload)))
    (hstate : connection.state = .accepted)
    (htaken : (connection.events.applyEvent texts payload).1 = .applied payload) :
    Sound (connection.observeEvents (connection.events.applyEvent texts payload).2
      payload.sessionId [payload]) := by
  have hspec := SessionEventReducer.applyEvent_spec texts h.reducer payload
  rcases h.reducer.applyEvent_cases texts payload with ⟨-, hnext, hheld⟩ | ⟨hnot, -⟩
  · have hown := hheld payload.sessionId
    rw [if_pos rfl] at hown
    have hgrown : ∀ point : String × Nat, point.2 ∈ sequencesHeld connection.events point.1 →
        point.1 = payload.sessionId →
        point.2 ∈ sequencesHeld (connection.events.applyEvent texts payload).2
          payload.sessionId := by
      intro point hbefore hsame
      unfold sequencesHeld at hbefore ⊢
      rw [hown, List.map_append]
      rw [hsame] at hbefore
      exact List.mem_append_left _ hbefore
    apply h.observeEvents hspec.2.1
    · intro other hother
      rw [hheld other, if_neg hother]
    · rw [hown]
      exact List.sublist_append_right _ _
    · intro sequence hafter hbefore
      unfold sequencesHeld at hafter hbefore
      rw [hown, List.map_append, List.mem_append] at hafter
      exact hafter.resolve_left hbefore
    · intro place watcher hget hattached
      have htold : ∀ point ∈ watcher.told.filterMap position,
          point.2 ∈ sequencesHeld connection.events point.1 := by
        intro point hpoint
        apply (h.observers.whole place watcher hget hattached).2.2 point
        rw [List.filterMap_append]
        exact List.mem_append_left _ hpoint
      refine ⟨hcondition hstate htaken place watcher hget hattached, ?_, ?_⟩
      · intro point hpoint _ hsame event hevent
        have hbefore := htold point hpoint
        rw [hsame, mem_sequencesHeld h.reducer] at hbefore
        rw [List.mem_singleton.mp hevent, hnext]
        exact Nat.lt_succ_of_le hbefore.2
      · exact fun point hpoint hsame => hgrown point (htold point hpoint) hsame
    · exact fun point hpoint hsame => hgrown point (h.upcoming point hpoint) hsame
  · exact absurd htaken (hnot payload)

variable {schemas : PayloadSchemas}

theorem Sound.receiveSnapshot (texts : JsonTexts)
    {connection : HostConnection} (h : Sound connection) {payload : SnapshotPayload}
    (hvalid : payload.valid schemas = true)
    (hcondition : connection.Undisturbed texts (.receive (.sessionSnapshot payload)))
    (hstate : connection.state = .accepted)
    (htaken : (connection.events.applySnapshot texts payload).1.refusal = none) :
    Sound (connection.observeEvents (connection.events.applySnapshot texts payload).2
      payload.sessionId (((connection.events.applySnapshot texts payload).2.events texts).filter
        fun event => event.sessionId == payload.sessionId)) := by
  have hslice := SnapshotPayload.slice hvalid
  have hspec := SessionEventReducer.applySnapshot_spec texts hslice h.reducer
  generalize hafter : (connection.events.applySnapshot texts payload).2 = after at hspec ⊢
  have hown := hspec.2.2.1 payload.sessionId
  rw [if_pos rfl] at hown
  rw [hspec.2.1.filter_events texts payload.sessionId]
  have hgrown : ∀ point : String × Nat, point.2 ∈ sequencesHeld connection.events point.1 →
      point.1 = payload.sessionId → (payload.complete = true → point.2 ≤ payload.events.length) →
      point.2 ∈ sequencesHeld after payload.sessionId := by
    intro point hbefore hsame hkept
    rw [hsame, mem_sequencesHeld h.reducer] at hbefore
    rw [mem_sequencesHeld hspec.2.1, hown]
    unfold SessionEventReducer.batch
    split
    · rename_i hcomplete
      exact ⟨hbefore.1, hkept hcomplete⟩
    · have hextends := Reception.prefix_acceptAll (sameEvent texts) payload.events
        (h.reducer.numbered payload.sessionId)
      exact ⟨hbefore.1, Nat.le_trans hbefore.2 hextends.length_le⟩
  apply h.observeEvents hspec.2.1
  · intro other hother
    rw [hspec.2.2.1 other, if_neg hother]
  · exact List.Sublist.refl _
  · exact fun sequence hheld _ => hheld
  · intro place watcher hget hattached
    rcases (hcondition hstate htaken).1 watcher (List.mem_of_getElem? hget) hattached with ⟨hnone, hkept⟩
    refine ⟨fun point _ hcommitted => hnone point hcommitted, ?_, ?_⟩
    · intro point _ hcommitted hsame
      exact absurd hsame (hnone point hcommitted)
    · intro point hpoint hsame
      apply hgrown point _ hsame fun hcomplete => hkept hcomplete point hpoint hsame
      apply (h.observers.whole place watcher hget hattached).2.2 point
      rw [List.filterMap_append]
      exact List.mem_append_left _ hpoint
  · intro point hpoint hsame
    exact hgrown point (h.upcoming point hpoint) hsame fun hcomplete =>
      (hcondition hstate htaken).2 hcomplete point hpoint hsame

theorem Sound.receive (texts : JsonTexts) {connection : HostConnection}
    (h : Sound connection) {message : RunnerMessage}
    (hcondition : connection.Undisturbed texts (.receive message)) :
    Sound (connection.receive schemas texts message) := by
  unfold HostConnection.receive
  split
  · rename_i hvalid
    split
    · exact ⟨h.reducer, h.observers, h.upcoming⟩
    · exact h.reconcile _
    · rename_i payload hstate
      have hcases := h.reducer.applyEvent_cases texts payload
      split
      · rename_i taken after happlied
        rcases hcases with ⟨htaken, -⟩ | ⟨hnot, -⟩
        · have hobserved := h.receiveEvent texts hcondition hstate htaken
          rw [happlied] at hobserved
          exact hobserved
        · exact absurd (congrArg Prod.fst happlied) (hnot taken)
      · exact h
      · rename_i result after hnotApplied hnotDuplicate hresult
        rcases hcases with ⟨htaken, -⟩ | ⟨-, hsame⟩
        · rw [hresult] at htaken
          exact absurd htaken (hnotApplied payload)
        · have hafter : after = connection.events := by
            rw [← hsame, hresult]
          subst hafter
          exact h.reconcile _
    · rename_i payload hstate
      have hspec := SessionEventReducer.applySnapshot_spec texts (SnapshotPayload.slice hvalid)
        h.reducer
      split
      · rename_i hresult
        have hobserved := h.receiveSnapshot texts hvalid hcondition hstate (by rw [hresult]; rfl)
        rw [hresult] at hobserved
        exact hobserved
      · rename_i result after hnotApplied hresult
        have hrefused : (connection.events.applySnapshot texts payload).1.refusal ≠ none := by
          rw [hresult]
          cases result with
          | applied complete appliedEvents duplicateEvents tombstones =>
            exact absurd rfl (hnotApplied complete appliedEvents duplicateEvents tombstones)
          | gap _ _ _ => exact Option.some_ne_none _
          | conflict _ _ _ _ => exact Option.some_ne_none _
        have hafter : after = connection.events := by
          rw [← hspec.2.2.2 hrefused, hresult]
        subst hafter
        exact h.reconcile _
    · exact h
  · exact h

theorem Sound.disconnect (h : Sound connection) :
    Sound connection.disconnect where
  reducer := h.reducer
  upcoming := h.upcoming
  observers := by
    apply h.observers.clear
    intro registration told hordered sessionId
    rw [sequencesTold_append]
    exact (List.append_nil (sequencesTold registration told sessionId)).symm ▸ hordered sessionId

theorem Sound.subscribe (h : Sound connection) (observer : Nat) :
    Sound (connection.subscribeSessionObservations observer) := by
  unfold subscribeSessionObservations
  split
  · exact h
  · split
    · exact h
    · refine ⟨h.reducer, h.observers.subscribe ?_ ⟨?_, ?_, ?_⟩, h.upcoming⟩
      · exact fun sessionId => List.Pairwise.nil
      · intro sessionId
        rw [sequencesTold_nil fun _ _ hcommitted => absurd hcommitted List.not_mem_nil]
        exact List.Pairwise.nil
      · exact fun _ hcommitted => absurd hcommitted List.not_mem_nil
      · intro point hpoint
        apply h.upcoming point
        rcases List.mem_filterMap.mp hpoint with ⟨observation, hmem, hposition⟩
        exact List.mem_filterMap.mpr ⟨observation, Announcement.pending_subset _ _ hmem, hposition⟩

theorem Sound.step (texts : JsonTexts) {connection : HostConnection}
    (h : Sound connection) {action : Action} (hcondition : connection.Undisturbed texts action) :
    Sound (connection.step schemas texts action) := by
  cases action with
  | receive message => exact h.receive texts hcondition
  | accept fails =>
    show Sound (connection.accept fails)
    have haccepted : Sound { connection with state := .accepted } :=
      ⟨h.reducer, h.observers, h.upcoming⟩
    unfold HostConnection.accept
    split
    · dsimp only
      split
      · exact haccepted.disconnect
      · exact haccepted
    · exact h
  | disconnect => exact h.disconnect
  | subscribe observer => exact h.subscribe observer
  | unsubscribe observer => exact ⟨h.reducer, h.observers.unsubscribe _, h.upcoming⟩
  | notify throws =>
    refine ⟨h.reducer, h.observers.advance Ordered.first throws, ?_⟩
    intro point hpoint
    apply h.upcoming point
    rcases List.mem_filterMap.mp hpoint with ⟨observation, hmem, hposition⟩
    exact List.mem_filterMap.mpr
      ⟨observation, Announcement.advance_upcoming _ throws hmem, hposition⟩

/-! ## Whole runs -/

theorem Ordered.count {registration : Registration}
    (h : Ordered registration told) {place : String × Nat} (hcommitted : place ∈ registration.committed)
    (htold : place ∈ told.filterMap position) : (told.filterMap position).count place = 1 := by
  have hpredicate : (place.1 == place.1 && registration.committed.contains place) = true := by
    rw [beq_self_eq_true, Bool.true_and, List.contains_iff_mem]
    exact hcommitted
  have hcount := List.count_filter (p := fun other : String × Nat =>
    other.1 == place.1 && registration.committed.contains other) (l := told.filterMap position)
    hpredicate
  have hmapped := List.count_le_count_map (f := Prod.snd) (x := place)
    (l := (told.filterMap position).filter fun other =>
      other.1 == place.1 && registration.committed.contains other)
  have honce := List.nodup_iff_count_le_one.mp
    ((h place.1).imp fun hlt => Nat.ne_of_lt hlt) place.2
  have hpositive := List.count_pos_iff.mpr htold
  unfold sequencesTold at honce
  omega

theorem Sound.toldOnce (h : Sound connection) :
    ToldOnce connection where
  ordered := h.observers.told
  once hidle watcher hwatcher hattached place hplace := by
    have hall := (h.observers.idle hidle hwatcher hattached).1
    exact Ordered.count (h.observers.told watcher hwatcher) hplace (hall place hplace)

/-- The runner is accepted, an observer is registered, and told of an event. -/
def eventObserved : List Action :=
  [.receive .hostHello, .accept false, .subscribe 0,
    .receive (.harnessEvent (SessionEventReducer.loggedEvent 1)),
    .notify false, .notify false, .notify false, .notify false]

/-- A complete snapshot of the session, with the event that the client has. -/
def completeSnapshot : SnapshotPayload :=
  { commandId := "c", sessionId := "s", generatedAt := 0, complete := true, sizeLimited := false
    fromSequence := 1, throughSequence := 1, events := [SessionEventReducer.loggedEvent 1]
    tombstones := [] }

theorem Sound.receive_complete (texts : JsonTexts)
    {connection : HostConnection} (h : Sound connection) (hstate : connection.state = .accepted)
    {payload : SnapshotPayload} (hvalid : payload.valid schemas = true)
    (hcomplete : payload.complete = true) :
    connection.receive schemas texts (.sessionSnapshot payload) = connection.observeEvents
      (connection.events.applySnapshot texts payload).2 payload.sessionId payload.events := by
  have hspec := SessionEventReducer.applySnapshot_spec texts (SnapshotPayload.slice hvalid) h.reducer
  have hheld := hspec.2.2.1 payload.sessionId
  rw [if_pos rfl] at hheld
  have htold := hspec.2.1.filter_events texts payload.sessionId
  rw [hheld] at htold
  unfold SessionEventReducer.batch at htold
  rw [if_pos hcomplete] at htold
  unfold HostConnection.receive
  rw [if_pos (show RunnerMessage.valid schemas (.sessionSnapshot payload) = true from hvalid), hstate]
  dsimp only
  unfold SessionEventReducer.applySnapshot at htold ⊢
  rw [if_pos hcomplete] at htold ⊢
  dsimp only at htold ⊢
  rw [htold]

def snapshotObserved : HostConnection :=
  run (step plainSchemas SessionEventReducer.plainTexts)
    (observeEvents (run (step plainSchemas SessionEventReducer.plainTexts) (opened .fresh)
        eventObserved)
      ⟨(Dict.empty : Dict String (Dict Nat HarnessEvent)).set "s"
        (SessionEventReducer.replacement completeSnapshot.events)⟩ "s" completeSnapshot.events)
    [.notify false, .notify false, .notify false, .notify false]

theorem run_snapshotObserved :
    run (step plainSchemas SessionEventReducer.plainTexts) (opened .fresh)
      (eventObserved ++ .receive (.sessionSnapshot completeSnapshot) ::
        [.notify false, .notify false, .notify false, .notify false]) = snapshotObserved := by
  have hcondition : Meets (step plainSchemas SessionEventReducer.plainTexts)
      (Undisturbed SessionEventReducer.plainTexts) (opened .fresh) eventObserved := by decide
  have hsound := (always_of_meets (fun _ _ h hundisturbed =>
    h.step SessionEventReducer.plainTexts hundisturbed)
    (Sound.opened SessionEventReducer.Sound.fresh) hcondition).last
  rw [run_append, run_cons]
  unfold snapshotObserved
  congr 1
  have hvalid : completeSnapshot.valid plainSchemas = true := by decide
  have hreceive := hsound.receive_complete SessionEventReducer.plainTexts (by decide) hvalid rfl
  have hafter : ((run (step plainSchemas SessionEventReducer.plainTexts) (opened .fresh)
      eventObserved).events.applySnapshot SessionEventReducer.plainTexts completeSnapshot).2 =
      ⟨(Dict.empty : Dict String (Dict Nat HarnessEvent)).set "s"
        (SessionEventReducer.replacement completeSnapshot.events)⟩ := by decide
  rw [hafter] at hreceive
  exact hreceive

end HostConnection

end HarnessControl.Sdk
