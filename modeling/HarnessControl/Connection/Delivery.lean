import HarnessControl.Library.Outbox
import HarnessControl.Harnesses.Replay

/-!
# Events on one socket

Three paths send the events of a session over the socket: the subscription to the session manager,
the callbacks of turns, and the replay that an acceptance asks for once the capabilities are sent.
They share `#lastSentEvent`.  An event that is sent while the replay still waits takes the watermark
past the range of the replay, which then sends nothing.
-/

namespace HarnessControl.Connection

open HarnessControl.Library HarnessControl.Protocol HarnessControl.State HarnessControl.Harnesses

/-! ## The socket -/

/-- What was sent for a session since a host resumed it at a cursor. -/
structure Opening where
  sessionId : String
  cursor : Int
  sent : List HarnessEvent
deriving DecidableEq

def Opening.receive (event : HarnessEvent) (opening : Opening) : Opening :=
  if opening.sessionId = event.sessionId then
    { opening with sent := opening.sent ++ [event] }
  else opening

structure DeliverySocket where
  run : StoreRun
  accepted : Bool
  /-- The acceptances whose capabilities are still being collected. -/
  waiting : List (List SessionCursor)
  lastSentEvent : Dict String Nat
  openings : List Opening
  /-- The committed events that no path has offered to the socket yet. -/
  unoffered : List HarnessEvent

/-- `#openSocket`: nothing is accepted yet and `#lastSentEvent` is cleared. -/
def DeliverySocket.opened (run : StoreRun) (unoffered : List HarnessEvent) : DeliverySocket :=
  ⟨run, false, [], Dict.empty, [], unoffered⟩

def DeliverySocket.watermark (socket : DeliverySocket) (sessionId : String) : Nat :=
  (socket.lastSentEvent.get? sessionId).getD 0

/-- `#sendEventIfConnected`. -/
def DeliverySocket.sendEventIfConnected (socket : DeliverySocket) (event : HarnessEvent) :
    DeliverySocket :=
  if event.sequence ≤ socket.watermark event.sessionId then socket
  else { socket with
    lastSentEvent := socket.lastSentEvent.set event.sessionId event.sequence
    openings := socket.openings.map (Opening.receive event) }

/-- `#replayRequestedEvents`. -/
def DeliverySocket.replayRequestedEvents (host : Host) (socket : DeliverySocket)
    (cursors : List SessionCursor) : DeliverySocket :=
  (replayEventsAfter host socket.run.store cursors).events.foldl
    DeliverySocket.sendEventIfConnected socket

inductive DeliveryAction where
  | call (moment : Moment) (action : StoreAction)
  /-- The listener of `subscribeEvents` gets an event. -/
  | publish (event : HarnessEvent)
  /-- A callback or the completion of a turn, a reply or a recovery gives an event. -/
  | send (event : HarnessEvent)
  /-- `host.accepted` arrives, and `#sendCapabilities` starts. -/
  | accept (resume : List SessionCursor)
  | capabilitiesSent (index : Nat)
  | capabilitiesFailed (index : Nat)

def DeliverySocket.offered (socket : DeliverySocket) (event : HarnessEvent) : DeliverySocket :=
  { socket with unoffered := socket.unoffered.filter fun other => decide (other ≠ event) }

def DeliverySocket.step (runtime : Runtime) (socket : DeliverySocket) :
    DeliveryAction → DeliverySocket
  | .call moment action =>
    let next := socket.run.step runtime (.call moment action)
    { socket with
      run := next
      unoffered := socket.unoffered ++ next.committed.drop socket.run.committed.length }
  | .publish event =>
    if event ∈ socket.run.committed then
      (if socket.accepted then socket.sendEventIfConnected event else socket).offered event
    else socket
  | .send event =>
    if event ∈ socket.run.committed then (socket.sendEventIfConnected event).offered event
    else socket
  | .accept resume =>
    { socket with
      accepted := true
      waiting := socket.waiting ++ [resume]
      openings := socket.openings ++ resume.map fun cursor =>
        ⟨cursor.sessionId, cursor.lastEventSequence, []⟩ }
  | .capabilitiesSent index =>
    match socket.waiting[index]? with
    | none => socket
    | some cursors =>
      { socket.replayRequestedEvents runtime.host cursors with
        waiting := socket.waiting.eraseIdx index }
  | .capabilitiesFailed index => { socket with waiting := socket.waiting.eraseIdx index }

/-! ## What a resumed session is owed -/

/-- What the session has committed after the cursor. -/
def Opening.range (run : StoreRun) (opening : Opening) : List HarnessEvent :=
  (committedLog run opening.sessionId).filter fun event =>
    decide (opening.cursor < (event.sequence : Int))

/-- The messages are the events after the cursor, in order and each once; once no replay waits and
every event of the session was offered, they are all of them. -/
structure Delivered (socket : DeliverySocket) (opening : Opening) : Prop where
  inOrder : opening.sent <+: opening.range socket.run
  sequences : opening.sent.map HarnessEvent.sequence =
    List.range' (opening.cursor.toNat + 1) opening.sent.length
  complete : socket.waiting = [] →
    (∀ event ∈ socket.unoffered, event.sessionId ≠ opening.sessionId) →
      opening.sent = opening.range socket.run

/-- The store retains what the session has committed after the cursor. -/
structure Retains (run : StoreRun) (cursor : SessionCursor) : Prop where
  nonneg : 0 ≤ cursor.lastEventSequence
  within : cursor.lastEventSequence ≤ (committedLog run cursor.sessionId).length
  later : ∀ event ∈ committedLog run cursor.sessionId,
    cursor.lastEventSequence < (event.sequence : Int) →
      event ∈ retainedEvents run cursor.sessionId

/-- What is resumed is retained, at the acceptance and at the replay. -/
def retainsResumed (socket : DeliverySocket) : DeliveryAction → Prop
  | .accept resume => ∀ cursor ∈ resume, Retains socket.run cursor
  | .capabilitiesSent index => ∀ cursors ∈ socket.waiting[index]?, ∀ cursor ∈ cursors,
    Retains socket.run cursor
  | _ => True

def Opening.next (opening : Opening) : Int := opening.cursor + opening.sent.length

/-- Where the event is above the watermark, it is the one after those that were sent. -/
def DeliverySocket.consecutive (socket : DeliverySocket) (event : HarnessEvent) : Prop :=
  ∀ opening ∈ socket.openings, opening.sessionId = event.sessionId →
    socket.watermark event.sessionId < event.sequence →
      (event.sequence : Int) = opening.next + 1

/-- No live event overtakes a replay, no acceptance goes back behind what was sent, and no replay
that is still needed is given up. -/
def replayFirst (socket : DeliverySocket) : DeliveryAction → Prop
  | .call _ _ => True
  | .publish event => socket.accepted = true → socket.consecutive event
  | .send event => socket.consecutive event
  | .accept resume => ∀ cursor ∈ resume,
    (socket.watermark cursor.sessionId : Int) ≤ cursor.lastEventSequence
  | .capabilitiesSent index => ∀ cursors ∈ socket.waiting[index]?, ∀ cursor ∈ cursors,
    ∀ opening ∈ socket.openings, opening.sessionId = cursor.sessionId →
      opening.cursor ≤ cursor.lastEventSequence ∧ cursor.lastEventSequence ≤ opening.next
  | .capabilitiesFailed index => ∀ cursors ∈ socket.waiting[index]?, ∀ cursor ∈ cursors,
    ∀ opening ∈ socket.openings, opening.sessionId = cursor.sessionId →
      ∀ event ∈ committedLog socket.run opening.sessionId,
        opening.next < (event.sequence : Int) → event ∈ socket.unoffered

instance (run : StoreRun) (cursor : SessionCursor) : Decidable (Retains run cursor) :=
  decidable_of_iff (0 ≤ cursor.lastEventSequence ∧
      cursor.lastEventSequence ≤ (committedLog run cursor.sessionId).length ∧
      ∀ event ∈ committedLog run cursor.sessionId,
        cursor.lastEventSequence < (event.sequence : Int) →
          event ∈ retainedEvents run cursor.sessionId)
    ⟨fun h => ⟨h.1, h.2.1, h.2.2⟩, fun h => ⟨h.nonneg, h.within, h.later⟩⟩

instance (socket : DeliverySocket) (event : HarnessEvent) :
    Decidable (socket.consecutive event) :=
  inferInstanceAs (Decidable (∀ opening ∈ socket.openings, _ → _ → _))

instance (socket : DeliverySocket) : (action : DeliveryAction) →
    Decidable (retainsResumed socket action)
  | .call _ _ | .publish _ | .send _ | .capabilitiesFailed _ => inferInstanceAs (Decidable True)
  | .accept resume => inferInstanceAs (Decidable (∀ cursor ∈ resume, _))
  | .capabilitiesSent index =>
    inferInstanceAs (Decidable (∀ cursors ∈ socket.waiting[index]?, ∀ cursor ∈ cursors, _))

instance (socket : DeliverySocket) : (action : DeliveryAction) →
    Decidable (replayFirst socket action)
  | .call _ _ => inferInstanceAs (Decidable True)
  | .publish event => inferInstanceAs (Decidable (_ → socket.consecutive event))
  | .send event => inferInstanceAs (Decidable (socket.consecutive event))
  | .accept resume => inferInstanceAs (Decidable (∀ cursor ∈ resume, _ ≤ _))
  | .capabilitiesSent index =>
    inferInstanceAs (Decidable (∀ cursors ∈ socket.waiting[index]?, ∀ cursor ∈ cursors,
      ∀ opening ∈ socket.openings, _ → _ ∧ _))
  | .capabilitiesFailed index =>
    inferInstanceAs (Decidable (∀ cursors ∈ socket.waiting[index]?, ∀ cursor ∈ cursors,
      ∀ opening ∈ socket.openings, _ →
        ∀ event ∈ committedLog socket.run opening.sessionId, _ → _))

/-! ## One opening -/

def DeliverySocket.outbox (socket : DeliverySocket) (opening : Opening) : Outbox HarnessEvent :=
  ⟨socket.watermark opening.sessionId, opening.sent⟩

def Opening.Continues (later earlier : Opening) : Prop :=
  later.sessionId = earlier.sessionId ∧ later.cursor = earlier.cursor

theorem DeliverySocket.sendEventIfConnected_outbox (socket : DeliverySocket)
    (event : HarnessEvent) {later : Opening}
    (hlater : later ∈ (socket.sendEventIfConnected event).openings) :
    ∃ opening ∈ socket.openings, later.Continues opening ∧
      (socket.sendEventIfConnected event).outbox later =
        if opening.sessionId = event.sessionId then
          (socket.outbox opening).offer HarnessEvent.sequence event
        else socket.outbox opening := by
  unfold DeliverySocket.sendEventIfConnected at hlater ⊢
  split at hlater
  · rename_i hdropped
    rw [if_pos hdropped]
    refine ⟨later, hlater, ⟨rfl, rfl⟩, ?_⟩
    split
    · rename_i hsession
      unfold Outbox.offer DeliverySocket.outbox
      rw [if_pos (hsession ▸ hdropped)]
    · rfl
  · rename_i hpassed
    rw [if_neg hpassed]
    rcases List.mem_map.mp hlater with ⟨opening, hopening, rfl⟩
    refine ⟨opening, hopening, ?_⟩
    unfold Opening.receive
    by_cases hsession : opening.sessionId = event.sessionId
    · rw [if_pos hsession, if_pos hsession]
      refine ⟨⟨rfl, rfl⟩, ?_⟩
      unfold Outbox.offer DeliverySocket.outbox
      rw [if_neg (hsession ▸ hpassed)]
      unfold DeliverySocket.watermark
      rw [hsession, Dict.get?_set_self, Option.getD_some]
    · rw [if_neg hsession, if_neg hsession]
      refine ⟨⟨rfl, rfl⟩, ?_⟩
      unfold DeliverySocket.outbox DeliverySocket.watermark
      rw [Dict.get?_set_of_ne _ _ hsession]

theorem DeliverySocket.sendEventIfConnected_frame (socket : DeliverySocket)
    (event : HarnessEvent) :
    (socket.sendEventIfConnected event).run = socket.run ∧
      (socket.sendEventIfConnected event).accepted = socket.accepted ∧
      (socket.sendEventIfConnected event).unoffered = socket.unoffered ∧
      (socket.sendEventIfConnected event).waiting = socket.waiting := by
  unfold DeliverySocket.sendEventIfConnected
  split <;> exact ⟨rfl, rfl, rfl, rfl⟩

theorem DeliverySocket.foldl_frame (socket : DeliverySocket) (events : List HarnessEvent) :
    (events.foldl DeliverySocket.sendEventIfConnected socket).run = socket.run ∧
      (events.foldl DeliverySocket.sendEventIfConnected socket).accepted = socket.accepted ∧
      (events.foldl DeliverySocket.sendEventIfConnected socket).unoffered = socket.unoffered ∧
      (events.foldl DeliverySocket.sendEventIfConnected socket).waiting = socket.waiting := by
  induction events generalizing socket with
  | nil => exact ⟨rfl, rfl, rfl, rfl⟩
  | cons event others ih =>
    have hone := socket.sendEventIfConnected_frame event
    have hrest := ih (socket.sendEventIfConnected event)
    rw [List.foldl_cons]
    exact ⟨hrest.1.trans hone.1, hrest.2.1.trans hone.2.1, hrest.2.2.1.trans hone.2.2.1,
      hrest.2.2.2.trans hone.2.2.2⟩

theorem DeliverySocket.foldl_outbox {sessionId : String} (events : List HarnessEvent)
    (hevents : ∀ event ∈ events, event.sessionId = sessionId) (socket : DeliverySocket)
    {later : Opening}
    (hlater : later ∈ (events.foldl DeliverySocket.sendEventIfConnected socket).openings) :
    ∃ opening ∈ socket.openings, later.Continues opening ∧
      (events.foldl DeliverySocket.sendEventIfConnected socket).outbox later =
        if opening.sessionId = sessionId then
          events.foldl (Outbox.offer HarnessEvent.sequence) (socket.outbox opening)
        else socket.outbox opening := by
  -- induction on the events: the opening that is reached continues one of the next socket
  induction events generalizing socket with
  | nil =>
    refine ⟨later, hlater, ⟨rfl, rfl⟩, ?_⟩
    rw [List.foldl_nil, List.foldl_nil, ite_self]
  | cons event others ih =>
    rw [List.foldl_cons] at hlater
    have hsession := hevents event List.mem_cons_self
    rcases ih (fun other hother => hevents other (List.mem_cons_of_mem _ hother)) _ hlater with
      ⟨middle, hmiddle, hcontinues, hothers⟩
    rcases socket.sendEventIfConnected_outbox event hmiddle with
      ⟨opening, hopening, hfirst, hone⟩
    refine ⟨opening, hopening, ⟨hcontinues.1.trans hfirst.1, hcontinues.2.trans hfirst.2⟩, ?_⟩
    rw [List.foldl_cons, List.foldl_cons, hothers, hone, hfirst.1, hsession]
    split <;> rfl

/-! ## Following the log -/

def Opening.log (run : StoreRun) (opening : Opening) : List HarnessEvent :=
  committedLog run opening.sessionId

/-- What was sent to the opening is a first part of its range, and the watermark agrees with it. -/
structure DeliverySocket.Follows (socket : DeliverySocket) (opening : Opening) : Prop where
  nonneg : 0 ≤ opening.cursor
  following : Outbox.Following (opening.log socket.run) opening.cursor.toNat (socket.outbox opening)

/-- What the opening is still to be sent. -/
def DeliverySocket.left (socket : DeliverySocket) (opening : Opening) : List HarnessEvent :=
  Outbox.rest (opening.log socket.run) opening.cursor.toNat (socket.outbox opening)

variable {run : StoreRun} {opening : Opening}

theorem Opening.log_session {event : HarnessEvent}
    (h : event ∈ opening.log run) : event.sessionId = opening.sessionId := by
  unfold Opening.log committedLog sessionLog at h
  have hsession := (List.mem_filter.mp h).2
  simpa using hsession

theorem Opening.mem_log {event : HarnessEvent}
    (hmem : event ∈ run.committed) (hsession : opening.sessionId = event.sessionId) :
    event ∈ opening.log run := by
  unfold Opening.log committedLog sessionLog
  rw [List.mem_filter]
  exact ⟨hmem, by simp [hsession]⟩

variable {socket : DeliverySocket}

theorem DeliverySocket.left_session {event : HarnessEvent} (h : event ∈ socket.left opening) :
    event.sessionId = opening.sessionId :=
  Opening.log_session (List.mem_of_mem_drop h)

theorem DeliverySocket.Follows.range (h : socket.Follows opening)
    (hnumbered : Numbered HarnessEvent.sequence (opening.log socket.run)) :
    opening.range socket.run = (opening.log socket.run).drop opening.cursor.toNat :=
  hnumbered.filter_drop h.nonneg

variable {options : StoreOptions}

theorem DeliverySocket.sendEventIfConnected_follows (hwindowed : RunWindowed options socket.run) {event : HarnessEvent}
    (hmem : event ∈ socket.run.committed) (hconsecutive : socket.consecutive event)
    (hfollows : ∀ opening ∈ socket.openings, socket.Follows opening) {later : Opening}
    (hlater : later ∈ (socket.sendEventIfConnected event).openings) :
    (socket.sendEventIfConnected event).Follows later ∧
      ∃ opening ∈ socket.openings, later.Continues opening ∧
        ∀ other ∈ (socket.sendEventIfConnected event).left later,
          other ∈ socket.left opening ∧ other ≠ event := by
  have hrun := (socket.sendEventIfConnected_frame event).1
  rcases socket.sendEventIfConnected_outbox event hlater with
    ⟨opening, hopening, hcontinues, houtbox⟩
  have hopened := hfollows opening hopening
  have hnumbered := hwindowed.windowed.numbered opening.sessionId
  have hlog : later.log socket.run = opening.log socket.run := by
    unfold Opening.log
    rw [hcontinues.1]
  have hleft : (socket.sendEventIfConnected event).left later =
      Outbox.rest (opening.log socket.run) opening.cursor.toNat
        ((socket.sendEventIfConnected event).outbox later) := by
    unfold DeliverySocket.left
    rw [hrun, hlog, hcontinues.2]
  by_cases hsession : opening.sessionId = event.sessionId
  · rw [if_pos hsession] at houtbox
    have hinlog := Opening.mem_log hmem hsession
    have hnext : (socket.outbox opening).watermark < event.sequence →
        event.sequence = opening.cursor.toNat + (socket.outbox opening).sent.length + 1 := by
      intro hpassed
      have hnumber := hconsecutive opening hopening hsession (hsession ▸ hpassed)
      have hnonneg := hopened.nonneg
      unfold Opening.next at hnumber
      show event.sequence = opening.cursor.toNat + opening.sent.length + 1
      omega
    have hfollowing := hopened.following.offer hnumbered hinlog hnext
    constructor
    · constructor
      · rw [hcontinues.2]
        exact hopened.nonneg
      · rw [hrun, hlog, hcontinues.2, houtbox]
        exact hfollowing
    · refine ⟨opening, hopening, hcontinues, fun other hother => ?_⟩
      rw [hleft, houtbox] at hother
      exact hopened.following.mem_rest hnumbered hinlog hnext hother
  · rw [if_neg hsession] at houtbox
    constructor
    · constructor
      · rw [hcontinues.2]
        exact hopened.nonneg
      · rw [hrun, hlog, hcontinues.2, houtbox]
        exact hopened.following
    · refine ⟨opening, hopening, hcontinues, fun other hother => ?_⟩
      rw [hleft, houtbox] at hother
      have hown : other ∈ socket.left opening := hother
      refine ⟨hown, ?_⟩
      rintro rfl
      exact hsession (socket.left_session hown).symm

/-! ## The replay -/

theorem Retains.replayed
    (hwindowed : RunWindowed options run) {cursor : SessionCursor} (h : Retains run cursor) :
    (if covers (span (retainedEvents run cursor.sessionId)) cursor.lastEventSequence then
      (committedLog run cursor.sessionId).filter fun event =>
        decide (cursor.lastEventSequence < (event.sequence : Int))
    else []) = (committedLog run cursor.sessionId).drop cursor.lastEventSequence.toNat := by
  have hnumbered : Numbered HarnessEvent.sequence (committedLog run cursor.sessionId) :=
    hwindowed.windowed.numbered cursor.sessionId
  have hnonneg := h.nonneg
  have hwithin := h.within
  rw [hnumbered.filter_drop hnonneg]
  split
  · rfl
  · rename_i huncovered
    symm
    rw [List.drop_eq_nil_iff]
    by_contra hbehind
    have hlt : cursor.lastEventSequence.toNat < (committedLog run cursor.sessionId).length := by
      omega
    -- the event after the cursor is retained, so the span covers the cursor
    have hsequence := hnumbered.getElem hlt
    have hkept := h.later _ (List.getElem_mem hlt) (by omega)
    have hretained := hwindowed.retained cursor.sessionId
    have hlast : ∀ last, (retainedEvents run cursor.sessionId).getLast? = some last →
        last.sequence = (committedLog run cursor.sessionId).length := by
      intro last hget
      rw [hretained] at hget
      exact hnumbered.getLast?_rtake hget
    have hfirst : ∀ first, (retainedEvents run cursor.sessionId).head? = some first →
        (first.sequence : Int) - 1 ≤ cursor.lastEventSequence := by
      intro first hget
      rw [hretained] at hget hkept
      have hhead := hnumbered.head?_rtake hget
      have hafter := hnumbered.lt_of_mem_drop hkept
      omega
    cases hevents : retainedEvents run cursor.sessionId with
    | nil =>
      rw [hevents] at hkept
      cases hkept
    | cons first others =>
      rw [hevents] at hlast hfirst huncovered
      rcases span_cons first others with ⟨last, hget, hspan⟩
      rw [hspan, covers_some] at huncovered
      have hlow := hfirst first List.head?_cons
      have hhigh := hlast last hget
      exact huncovered ⟨hlow, by omega⟩

def replayRange (run : StoreRun) (cursor : SessionCursor) : List HarnessEvent :=
  (committedLog run cursor.sessionId).drop cursor.lastEventSequence.toNat

/-- The cursor is not behind the opening, and not beyond what was sent to it. -/
def Opening.reaches (opening : Opening) (cursor : SessionCursor) : Prop :=
  opening.sessionId = cursor.sessionId →
    opening.cursor ≤ cursor.lastEventSequence ∧ cursor.lastEventSequence ≤ opening.next

theorem DeliverySocket.foldl_cursor
    (hwindowed : RunWindowed options socket.run) {cursor : SessionCursor}
    (hreaches : ∀ opening ∈ socket.openings, opening.reaches cursor)
    (hfollows : ∀ opening ∈ socket.openings, socket.Follows opening) {after : DeliverySocket}
    (hafter : (replayRange socket.run cursor).foldl DeliverySocket.sendEventIfConnected socket =
      after) {later : Opening} (hlater : later ∈ after.openings) :
    after.Follows later ∧ ∃ opening ∈ socket.openings, later.Continues opening ∧
      opening.next ≤ later.next ∧ (∀ event ∈ after.left later, event ∈ socket.left opening) ∧
        (opening.sessionId = cursor.sessionId → after.left later = []) := by
  have hrun : after.run = socket.run := by
    rw [← hafter]
    exact (socket.foldl_frame _).1
  have hsessions : ∀ event ∈ replayRange socket.run cursor,
      event.sessionId = cursor.sessionId := by
    intro event hevent
    have hmem := List.mem_of_mem_drop hevent
    have hsession := (List.mem_filter.mp hmem).2
    simpa using hsession
  rcases socket.foldl_outbox _ hsessions (hafter.symm ▸ hlater) with
    ⟨opening, hopening, hcontinues, houtbox⟩
  rw [hafter] at houtbox
  have hopened := hfollows opening hopening
  have hnumbered := hwindowed.windowed.numbered opening.sessionId
  have hlog : later.log socket.run = opening.log socket.run := by
    unfold Opening.log
    rw [hcontinues.1]
  unfold DeliverySocket.left
  rw [hrun, hlog, hcontinues.2]
  by_cases hsession : opening.sessionId = cursor.sessionId
  · rw [if_pos hsession] at houtbox
    have hrange : replayRange socket.run cursor =
        (opening.log socket.run).drop cursor.lastEventSequence.toNat := by
      unfold replayRange Opening.log
      rw [hsession]
    rw [hrange] at houtbox
    have hbounds := hreaches opening hopening hsession
    have hnonneg := hopened.nonneg
    unfold Opening.next at hbounds
    have hstart : cursor.lastEventSequence.toNat ≤
        opening.cursor.toNat + (socket.outbox opening).sent.length := by
      show cursor.lastEventSequence.toNat ≤ opening.cursor.toNat + opening.sent.length
      omega
    have hall := hopened.following.offer_drop hnumbered (by omega) hstart
    have hlength := (@Outbox.sent_prefix_foldl _ HarnessEvent.sequence
      ((opening.log socket.run).drop cursor.lastEventSequence.toNat)
      (socket.outbox opening)).length_le
    rw [← houtbox] at hall hlength
    constructor
    · constructor
      · rw [hcontinues.2]
        exact hnonneg
      · rw [hrun, hlog, hcontinues.2]
        exact hall.1
    · refine ⟨opening, hopening, hcontinues, ?_, ?_, fun _ => hall.2⟩
      · have hmore : opening.sent.length ≤ later.sent.length := hlength
        unfold Opening.next
        rw [hcontinues.2]
        omega
      · intro event hevent
        rw [hall.2] at hevent
        cases hevent
  · rw [if_neg hsession] at houtbox
    have hsent : later.sent = opening.sent := congrArg Outbox.sent houtbox
    constructor
    · constructor
      · rw [hcontinues.2]
        exact hopened.nonneg
      · rw [hrun, hlog, hcontinues.2, houtbox]
        exact hopened.following
    · refine ⟨opening, hopening, hcontinues, ?_, ?_, fun h => absurd h hsession⟩
      · unfold Opening.next
        rw [hcontinues.2, hsent]
      · rw [houtbox]
        exact fun event hevent => hevent

theorem DeliverySocket.foldl_cursors (cursors : List SessionCursor)
    {socket : DeliverySocket} (hwindowed : RunWindowed options socket.run)
    (hreaches : ∀ cursor ∈ cursors, ∀ opening ∈ socket.openings, opening.reaches cursor)
    (hfollows : ∀ opening ∈ socket.openings, socket.Follows opening) {after : DeliverySocket}
    (hafter : (cursors.flatMap (replayRange socket.run)).foldl
      DeliverySocket.sendEventIfConnected socket = after)
    {later : Opening} (hlater : later ∈ after.openings) :
    after.Follows later ∧ ∃ opening ∈ socket.openings, later.Continues opening ∧
      (∀ event ∈ after.left later, event ∈ socket.left opening) ∧
        ((∃ cursor ∈ cursors, opening.sessionId = cursor.sessionId) → after.left later = []) := by
  -- induction on the cursors; what is left of an opening only gets less
  induction cursors generalizing socket with
  | nil =>
    rw [List.flatMap_nil, List.foldl_nil] at hafter
    subst hafter
    refine ⟨hfollows later hlater, later, hlater, ⟨rfl, rfl⟩, fun _ h => h, ?_⟩
    rintro ⟨cursor, hcursor, -⟩
    cases hcursor
  | cons cursor others ih =>
    rw [List.flatMap_cons, List.foldl_append] at hafter
    generalize hmiddle : (replayRange socket.run cursor).foldl
      DeliverySocket.sendEventIfConnected socket = middle at hafter
    have hrun : middle.run = socket.run := by
      rw [← hmiddle]
      exact (socket.foldl_frame _).1
    have hone : ∀ {inner : Opening}, inner ∈ middle.openings → _ := fun hinner =>
      DeliverySocket.foldl_cursor hwindowed (hreaches cursor List.mem_cons_self) hfollows hmiddle
        hinner
    rw [← hrun] at hafter hwindowed
    have hnext : ∀ other ∈ others, ∀ inner ∈ middle.openings, inner.reaches other := by
      intro other hother inner hinner hsession
      rcases (hone hinner).2 with ⟨opening, hopening, hcontinues, hgrown, -, -⟩
      have hbounds := hreaches other (List.mem_cons_of_mem _ hother) opening hopening
        (hcontinues.1.symm.trans hsession)
      rw [hcontinues.2]
      exact ⟨hbounds.1, Int.le_trans hbounds.2 hgrown⟩
    rcases ih hwindowed hnext (fun inner hinner => (hone hinner).1) hafter with
      ⟨hlast, inner, hinner, hsecond, hless, hnone⟩
    rcases (hone hinner).2 with ⟨opening, hopening, hfirst, -, hfewer, hempty⟩
    refine ⟨hlast, opening, hopening, ⟨hsecond.1.trans hfirst.1, hsecond.2.trans hfirst.2⟩,
      fun event hevent => hfewer event (hless event hevent), ?_⟩
    rintro ⟨chosen, hchosen, hsession⟩
    rcases List.mem_cons.mp hchosen with rfl | hothers
    · have hinnerNone := hempty hsession
      apply List.eq_nil_iff_forall_not_mem.mpr
      intro event hevent
      have hmem := hless event hevent
      rw [hinnerNone] at hmem
      cases hmem
    · exact hnone ⟨chosen, hothers, hfirst.1.trans hsession⟩

/-! ## The invariant -/

/-- What is left of an opening is replayed by an acceptance that waits, or is still to be offered. -/
def DeliverySocket.Awaits (socket : DeliverySocket) (opening : Opening) : Prop :=
  (∃ cursors ∈ socket.waiting, ⟨opening.sessionId, opening.cursor⟩ ∈ cursors) ∨
    ∀ event ∈ socket.left opening, event ∈ socket.unoffered

structure DeliverySocket.Sound (options : StoreOptions) (socket : DeliverySocket) : Prop where
  windowed : RunWindowed options socket.run
  accepted : socket.openings ≠ [] → socket.accepted = true
  follows : ∀ opening ∈ socket.openings, socket.Follows opening
  awaits : ∀ opening ∈ socket.openings, socket.Awaits opening

theorem DeliverySocket.Sound.opened (h : RunWindowed options run) (unoffered : List HarnessEvent) :
    (DeliverySocket.opened run unoffered).Sound options where
  windowed := h
  accepted hopenings := absurd rfl hopenings
  follows opening hopening := by cases hopening
  awaits opening hopening := by cases hopening

theorem DeliverySocket.Sound.send
    (h : socket.Sound options) {event : HarnessEvent} (hmem : event ∈ socket.run.committed)
    (hconsecutive : socket.consecutive event) :
    ((socket.sendEventIfConnected event).offered event).Sound options := by
  have hframe := socket.sendEventIfConnected_frame event
  have hone := fun {later : Opening}
      (hlater : later ∈ (socket.sendEventIfConnected event).openings) =>
    socket.sendEventIfConnected_follows h.windowed hmem hconsecutive h.follows hlater
  constructor
  · show RunWindowed options (socket.sendEventIfConnected event).run
    rw [hframe.1]
    exact h.windowed
  · intro hopenings
    show (socket.sendEventIfConnected event).accepted = true
    rw [hframe.2.1]
    apply h.accepted
    intro hnil
    apply hopenings
    show (socket.sendEventIfConnected event).openings = []
    unfold DeliverySocket.sendEventIfConnected
    split
    · exact hnil
    · exact List.map_eq_nil_iff.mpr hnil
  · exact fun later hlater => ⟨(hone hlater).1.nonneg, (hone hlater).1.following⟩
  · intro later hlater
    rcases (hone hlater).2 with ⟨opening, hopening, hcontinues, hless⟩
    rcases h.awaits opening hopening with ⟨cursors, hwaiting, hcursor⟩ | hleft
    · left
      refine ⟨cursors, ?_, ?_⟩
      · show cursors ∈ (socket.sendEventIfConnected event).waiting
        rw [hframe.2.2.2]
        exact hwaiting
      · rw [hcontinues.1, hcontinues.2]
        exact hcursor
    · right
      intro other hother
      have hboth := hless other hother
      show other ∈ (socket.sendEventIfConnected event).unoffered.filter _
      rw [hframe.2.2.1, List.mem_filter]
      exact ⟨hleft other hboth.1, decide_eq_true hboth.2⟩

variable {runtime : Runtime}

theorem DeliverySocket.Sound.call
    (h : socket.Sound runtime.options) (moment : Moment) (action : StoreAction) :
    (socket.step runtime (.call moment action)).Sound runtime.options := by
  rcases socket.run.committed_step runtime (.call moment action) with ⟨more, hcommitted⟩
  have hlog : ∀ opening : Opening, opening.log (socket.run.step runtime (.call moment action)) =
      opening.log socket.run ++ sessionLog more opening.sessionId := by
    intro opening
    unfold Opening.log committedLog
    rw [hcommitted, sessionLog_append]
  have hfollows : ∀ opening ∈ socket.openings,
      (socket.step runtime (.call moment action)).Follows opening := by
    intro opening hopening
    constructor
    · exact (h.follows opening hopening).nonneg
    · show Outbox.Following
        (opening.log (socket.run.step runtime (.call moment action))) _ (socket.outbox opening)
      rw [hlog]
      exact (h.follows opening hopening).following.append _
  constructor
  · show RunWindowed runtime.options (socket.run.step runtime (.call moment action))
    apply h.windowed.step
    trivial
  · exact h.accepted
  · exact hfollows
  · intro opening hopening
    rcases h.awaits opening hopening with hwaiting | hleft
    · exact Or.inl hwaiting
    · right
      intro event hevent
      have hrest : event ∈ Outbox.rest
          (opening.log (socket.run.step runtime (.call moment action))) opening.cursor.toNat
          (socket.outbox opening) := hevent
      rw [hlog, (h.follows opening hopening).following.rest_append, List.mem_append] at hrest
      show event ∈ socket.unoffered ++
        (socket.run.step runtime (.call moment action)).committed.drop socket.run.committed.length
      rw [hcommitted, List.drop_left, List.mem_append]
      rcases hrest with hold | hnew
      · exact Or.inl (hleft event hold)
      · exact Or.inr (List.mem_filter.mp hnew).1

theorem DeliverySocket.Sound.accept (h : socket.Sound runtime.options) {resume : List SessionCursor}
    (hretains : ∀ cursor ∈ resume, Retains socket.run cursor)
    (hahead : ∀ cursor ∈ resume,
      (socket.watermark cursor.sessionId : Int) ≤ cursor.lastEventSequence) :
    (socket.step runtime (.accept resume)).Sound runtime.options := by
  constructor
  · exact h.windowed
  · exact fun _ => rfl
  · intro opening hopening
    rcases List.mem_append.mp hopening with hold | hnew
    · exact ⟨(h.follows opening hold).nonneg, (h.follows opening hold).following⟩
    · rcases List.mem_map.mp hnew with ⟨cursor, hcursor, rfl⟩
      have hnonneg := (hretains cursor hcursor).nonneg
      have hwithin := (hretains cursor hcursor).within
      have hwatermark := hahead cursor hcursor
      constructor
      · exact hnonneg
      · constructor
        · show cursor.lastEventSequence.toNat ≤ (committedLog socket.run cursor.sessionId).length
          omega
        · exact List.nil_prefix
        · intro _
          show socket.watermark cursor.sessionId ≤ cursor.lastEventSequence.toNat
          omega
        · exact fun hnonempty => absurd rfl hnonempty
  · intro opening hopening
    rcases List.mem_append.mp hopening with hold | hnew
    · rcases h.awaits opening hold with ⟨cursors, hwaiting, hcursor⟩ | hleft
      · exact Or.inl ⟨cursors, List.mem_append_left _ hwaiting, hcursor⟩
      · exact Or.inr hleft
    · rcases List.mem_map.mp hnew with ⟨cursor, hcursor, rfl⟩
      exact Or.inl ⟨resume, List.mem_append_right _ List.mem_cons_self, hcursor⟩

theorem DeliverySocket.Sound.capabilitiesSent (h : socket.Sound runtime.options) {index : Nat}
    (hretains : retainsResumed socket (.capabilitiesSent index))
    (hfirst : replayFirst socket (.capabilitiesSent index)) :
    (socket.step runtime (.capabilitiesSent index)).Sound runtime.options := by
  unfold DeliverySocket.step
  dsimp only
  cases hindex : socket.waiting[index]? with
  | none => exact h
  | some cursors =>
    have hevents : (replayEventsAfter runtime.host socket.run.store cursors).events =
        cursors.flatMap (replayRange socket.run) := by
      rw [h.windowed.managerReplay runtime.host cursors]
      apply List.flatMap_congr
      intro cursor hcursor
      exact (hretains cursors hindex cursor hcursor).replayed h.windowed
    have hreaches : ∀ cursor ∈ cursors, ∀ opening ∈ socket.openings,
        opening.reaches cursor := fun cursor hcursor opening hopening hsession =>
      hfirst cursors hindex cursor hcursor opening hopening hsession
    dsimp only
    generalize hafter : socket.replayRequestedEvents runtime.host cursors = after
    unfold DeliverySocket.replayRequestedEvents at hafter
    rw [hevents] at hafter
    have hframe := socket.foldl_frame (cursors.flatMap (replayRange socket.run))
    rw [hafter] at hframe
    have hall := fun {later : Opening} (hlater : later ∈ after.openings) =>
      DeliverySocket.foldl_cursors cursors h.windowed hreaches h.follows hafter hlater
    constructor
    · show RunWindowed runtime.options after.run
      rw [hframe.1]
      exact h.windowed
    · intro hopenings
      show after.accepted = true
      rw [hframe.2.1]
      apply h.accepted
      intro hnil
      rcases List.exists_mem_of_ne_nil _ hopenings with ⟨later, hlater⟩
      rcases (hall hlater).2 with ⟨opening, hopening, -⟩
      rw [hnil] at hopening
      cases hopening
    · exact fun later hlater => ⟨(hall hlater).1.nonneg, (hall hlater).1.following⟩
    · intro later hlater
      rcases (hall hlater).2 with ⟨opening, hopening, hcontinues, hless, hnone⟩
      rcases h.awaits opening hopening with ⟨own, hwaiting, hcursor⟩ | hleft
      · by_cases hown : socket.waiting[index]? = some own
        · right
          intro event hevent
          have hnil := hnone ⟨_, Option.some.inj (hindex.symm.trans hown) ▸ hcursor, rfl⟩
          have hmem : event ∈ after.left later := hevent
          rw [hnil] at hmem
          cases hmem
        · left
          refine ⟨own, mem_eraseIdx_of_ne hwaiting hown, ?_⟩
          rw [hcontinues.1, hcontinues.2]
          exact hcursor
      · right
        intro event hevent
        show event ∈ after.unoffered
        rw [hframe.2.2.1]
        exact hleft event (hless event hevent)

theorem DeliverySocket.Sound.capabilitiesFailed (h : socket.Sound runtime.options) {index : Nat}
    (hfirst : replayFirst socket (.capabilitiesFailed index)) :
    (socket.step runtime (.capabilitiesFailed index)).Sound runtime.options := by
  constructor
  · exact h.windowed
  · exact h.accepted
  · exact fun opening hopening =>
      ⟨(h.follows opening hopening).nonneg, (h.follows opening hopening).following⟩
  · intro opening hopening
    rcases h.awaits opening hopening with ⟨own, hwaiting, hcursor⟩ | hleft
    · by_cases hown : socket.waiting[index]? = some own
      · right
        intro event hevent
        have hmem : event ∈ socket.left opening := hevent
        have hnumbered : Numbered HarnessEvent.sequence (opening.log socket.run) :=
          h.windowed.windowed.numbered opening.sessionId
        have hlater := hnumbered.lt_of_mem_drop hmem
        have hnonneg := (h.follows opening hopening).nonneg
        apply hfirst own hown _ hcursor opening hopening rfl event (List.mem_of_mem_drop hmem)
        change opening.cursor.toNat + opening.sent.length < event.sequence at hlater
        unfold Opening.next
        omega
      · exact Or.inl ⟨own, mem_eraseIdx_of_ne hwaiting hown, hcursor⟩
    · exact Or.inr hleft

theorem DeliverySocket.Sound.step (h : socket.Sound runtime.options) (action : DeliveryAction)
    (hretains : retainsResumed socket action) (hfirst : replayFirst socket action) :
    (socket.step runtime action).Sound runtime.options := by
  cases action with
  | call moment action => exact h.call moment action
  | publish event =>
    unfold DeliverySocket.step
    dsimp only
    split
    · rename_i hmem
      cases haccepted : socket.accepted with
      | true => exact h.send hmem (hfirst haccepted)
      | false =>
        -- before the acceptance there is no opening
        have hnil : socket.openings = [] := by
          by_contra hopenings
          rw [h.accepted hopenings] at haccepted
          cases haccepted
        constructor
        · exact h.windowed
        · exact fun hopenings => absurd hnil hopenings
        · intro opening hopening
          have hmem' : opening ∈ socket.openings := hopening
          rw [hnil] at hmem'
          cases hmem'
        · intro opening hopening
          have hmem' : opening ∈ socket.openings := hopening
          rw [hnil] at hmem'
          cases hmem'
    · exact h
  | send event =>
    unfold DeliverySocket.step
    dsimp only
    split
    · rename_i hmem
      exact h.send hmem hfirst
    · exact h
  | accept resume => exact h.accept hretains hfirst
  | capabilitiesSent index => exact h.capabilitiesSent hretains hfirst
  | capabilitiesFailed index => exact h.capabilitiesFailed hfirst

theorem DeliverySocket.Sound.delivered
    (h : socket.Sound options) {opening : Opening} (hopening : opening ∈ socket.openings) :
    Delivered socket opening := by
  have hfollows := h.follows opening hopening
  have hnumbered : Numbered HarnessEvent.sequence (opening.log socket.run) :=
    h.windowed.windowed.numbered opening.sessionId
  have hrange := hfollows.range hnumbered
  have hprefix : opening.sent <+: (opening.log socket.run).drop opening.cursor.toNat :=
    hfollows.following.sent
  constructor
  · rw [hrange]
    exact hprefix
  · exact hfollows.following.numbers hnumbered
  · intro hwaiting hoffered
    rw [hrange]
    apply hfollows.following.complete
    rcases h.awaits opening hopening with ⟨cursors, hmem, -⟩ | hleft
    · rw [hwaiting] at hmem
      cases hmem
    · apply List.eq_nil_iff_forall_not_mem.mpr
      intro event hevent
      exact hoffered event (hleft event hevent) (socket.left_session hevent)

/-- Over a store whose restarts kept the events, while what is resumed is retained and no live event
overtakes a replay, every opening gets the events after its cursor, in order and each once. -/
theorem resumed_events_delivered (runtime : Runtime) (history : List StoreStep)
    (unoffered : List HarnessEvent) (actions : List DeliveryAction)
    (hhistory : Meets (StoreRun.step runtime) restartKeepsEvents StoreRun.fresh history)
    (hretains : Meets (DeliverySocket.step runtime) retainsResumed
      (DeliverySocket.opened (Library.run (StoreRun.step runtime) StoreRun.fresh history) unoffered)
      actions)
    (hfirst : Meets (DeliverySocket.step runtime) replayFirst
      (DeliverySocket.opened (Library.run (StoreRun.step runtime) StoreRun.fresh history) unoffered)
      actions) :
    Always (DeliverySocket.step runtime)
      (fun socket => ∀ opening ∈ socket.openings, Delivered socket opening)
      (DeliverySocket.opened (Library.run (StoreRun.step runtime) StoreRun.fresh history) unoffered)
      actions := by
  have hwindowed := (always_of_meets (I := RunWindowed runtime.options)
    (fun _ _ h hstep => h.step hstep) (RunWindowed.fresh runtime.options) hhistory).last
  have hsound := always_of_meets (I := DeliverySocket.Sound runtime.options)
    (fun _ action h hstep => h.step action hstep.1 hstep.2)
    (DeliverySocket.Sound.opened hwindowed unoffered) (hretains.and hfirst)
  apply hsound.mono
  intro socket h opening hopening
  exact h.delivered hopening

/-! ## A live event overtakes the replay -/

def sessionEvent (sequence : Nat) : HarnessEvent :=
  { sessionId := "s", turnId := none, sequence, eventType := "turn.text", createdAt := 0
    data := .obj .nil }

/-- The session committed two events before the socket was opened. -/
def twoEvents : List StoreStep :=
  [.call ⟨0, true⟩ (.appendEvent (sessionEvent 1)), .call ⟨1, true⟩ (.appendEvent (sessionEvent 2))]

/-- The host resumes from the start; a third event is committed. -/
def resumeAndCommit : List DeliveryAction :=
  [.accept [⟨"s", 0⟩], .call ⟨2, true⟩ (.appendEvent (sessionEvent 3))]

def resumedSocket : DeliverySocket :=
  .opened (Library.run (StoreRun.step plainRuntime) StoreRun.fresh twoEvents) []

/-- The third event is published before the capabilities are sent. -/
def publishedFirst : List DeliveryAction :=
  resumeAndCommit ++ [.publish (sessionEvent 3), .capabilitiesSent 0]

/-- The third event is published after the replay. -/
def replayedFirst : List DeliveryAction :=
  resumeAndCommit ++ [.capabilitiesSent 0, .publish (sessionEvent 3)]

/-- What was published before the replay is all that the host gets. -/
theorem replay_overtaken :
    Meets (DeliverySocket.step plainRuntime) retainsResumed resumedSocket publishedFirst ∧
      ¬ Always (DeliverySocket.step plainRuntime)
        (fun socket => ∀ opening ∈ socket.openings, Delivered socket opening)
        resumedSocket publishedFirst := by
  constructor
  · decide
  · intro h
    have hdelivered := h.last ⟨"s", 0, [sessionEvent 3]⟩ (by decide)
    have hsequences := hdelivered.sequences
    revert hsequences
    decide

/-- In the other order the host gets all three. -/
theorem resumed_events_delivered_replayed :
    Meets (StoreRun.step plainRuntime) restartKeepsEvents StoreRun.fresh twoEvents ∧
      Meets (DeliverySocket.step plainRuntime) retainsResumed resumedSocket replayedFirst ∧
      Meets (DeliverySocket.step plainRuntime) replayFirst resumedSocket replayedFirst ∧
      Always (DeliverySocket.step plainRuntime)
        (fun socket => ∀ opening ∈ socket.openings, Delivered socket opening)
        resumedSocket replayedFirst := by
  have hhistory : Meets (StoreRun.step plainRuntime) restartKeepsEvents StoreRun.fresh twoEvents := by
    decide
  have hretains : Meets (DeliverySocket.step plainRuntime) retainsResumed resumedSocket
      replayedFirst := by
    decide
  have hfirst : Meets (DeliverySocket.step plainRuntime) replayFirst resumedSocket
      replayedFirst := by
    decide
  exact ⟨hhistory, hretains, hfirst,
    resumed_events_delivered plainRuntime twoEvents [] replayedFirst hhistory hretains hfirst⟩

end HarnessControl.Connection
