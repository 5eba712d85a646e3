import HarnessControl.Sdk.NativeSessions

/-!
# Runs of a native session registry

A session id is used once, a closed session stays closed, and a session that may have been lost is
not taken for active again, in whatever order acks, events, losses, aborts and calls come.
-/

namespace HarnessControl.Sdk

open HarnessControl.Library HarnessControl.Protocol

variable {id : String} {record after : NativeSession} {run next : NativeSessions}

/-! ## What was observed -/

/-- The largest sequence of the events. -/
def highest (observed : List SessionObservation) : Nat :=
  observed.foldl (fun last observation =>
    match observation with
    | .event event => max last event.sequence
    | .unconfirmed _ _ => last) 0

theorem highest_event (observed : List SessionObservation) (event : HarnessEvent) :
    highest (observed ++ [.event event]) = max (highest observed) event.sequence := by
  unfold highest
  rw [List.foldl_append]
  rfl

theorem highest_unconfirmed (observed : List SessionObservation) (reason : UnconfirmedReason)
    (sessionId : Option String) :
    highest (observed ++ [.unconfirmed reason sessionId]) = highest observed := by
  unfold highest
  rw [List.foldl_append]
  rfl

/-- After which a session is not known to go on: its continuity is lost, or an event that is later
than all those before ends it. -/
def Loss (before : List SessionObservation) : SessionObservation → Prop
  | .unconfirmed _ _ => True
  | .event event => highest before < event.sequence ∧
    (event.eventType = "session.exited" ∨ event.eventType = "native.work.owner_lost")

def Undisturbed (observed : List SessionObservation) : Prop :=
  ∀ before observation rest, observed = before ++ observation :: rest → ¬Loss before observation

theorem Undisturbed.nil : Undisturbed [] := by
  intro before observation rest heq
  cases before with
  | nil => cases heq
  | cons first others => cases heq

theorem Undisturbed.concat {observed : List SessionObservation} {observation : SessionObservation}
    (h : Undisturbed observed) (hlast : ¬Loss observed observation) :
    Undisturbed (observed ++ [observation]) := by
  intro before found rest heq
  rcases List.eq_nil_or_concat rest with rfl | ⟨init, last, rfl⟩
  · rcases List.append_inj' heq rfl with ⟨rfl, hsame⟩
    cases hsame
    exact hlast
  · rw [List.concat_eq_append, ← List.cons_append, ← List.append_assoc] at heq
    rcases List.append_inj' heq rfl with ⟨hinit, -⟩
    exact h before found init hinit

/-! ## What is kept of a session -/

def SessionPhase.late : SessionPhase → Bool
  | .closing | .closed | .unconfirmed => true
  | .opening | .reserved | .active => false

namespace NativeSession

def Configured (record : NativeSession) : Prop :=
  ∃ event, record.configured = some event ∧ ready event record.payload.executionProfile = true ∧
    ∀ expected, record.payload.expectedNativeReference = some expected →
      nativeReference event = some expected

/-- Its exit was observed after its stop was sent. -/
def Ended (id : String) (sent : List NativeCommand) (record : NativeSession) : Prop :=
  NativeCommand.stop id ∈ sent ∧ ∃ place event, record.stoppedAt = some place ∧
    .event event ∈ record.observed.drop place ∧
    confirmsExit record.payload.providerInstanceId event = true ∧ record.exited = some event

/-- What may become of a session. -/
structure Follows (before after : NativeSession) : Prop where
  payload : after.payload = before.payload
  closed : before.phase = .closed → after = before
  late : before.phase.late = true → after.phase.late = true
  reference : before.phase = .active → after.phase = .active →
    after.configured.bind nativeReference = before.configured.bind nativeReference

theorem Follows.refl (record : NativeSession) : record.Follows record :=
  ⟨rfl, fun _ => rfl, id, fun _ _ => rfl⟩

structure Fits (id : String) (sent : List NativeCommand) (position : Nat) (record : NativeSession) :
    Prop where
  named : record.payload.sessionId = id
  position : record.phase ≠ .closed → position = highest record.observed
  undisturbed : record.phase.late = false → Undisturbed record.observed
  configured : record.phase = .active → record.Configured
  ended : record.phase = .closed → record.Ended id sent
  stoppedAt : ∀ place, record.stoppedAt = some place → place ≤ record.observed.length
  attempted : .stop id ∈ sent → record.closeAttempted = true

end NativeSession

/-- A call that goes on while it has its token finds the session as it left it. -/
def NativeCall.Fits (index : Nat) (call : NativeCall) (run : NativeSessions) : Prop :=
  call.stage = .awaiting → run.mutations.get? call.sessionId = some index →
    ∃ record, run.records.get? call.sessionId = some record ∧
      match call.operation with
      | .openSession payload _ => record.phase = .opening ∧ record.payload = payload
      | .closeSession providerInstanceId =>
        record.phase = .closing ∧ record.payload.providerInstanceId = providerInstanceId ∧
        NativeCommand.stop call.sessionId ∈ run.sent ∧
        ∃ place, record.stoppedAt = some place ∧
          ∀ event, call.wait = .met event → .event event ∈ record.observed.drop place ∧
            confirmsExit providerInstanceId event = true

namespace NativeSessions

/-- Two sessions of a continuation group are not open at the same time. -/
def Exclusive (run : NativeSessions) : Prop :=
  ∀ first second one other key, first ≠ second → run.records.get? first = some one →
    run.records.get? second = some other → one.phase ≠ .closed → other.phase ≠ .closed →
    one.payload.continuationGroupKey = some key → other.payload.continuationGroupKey ≠ some key

structure Kept (run : NativeSessions) : Prop where
  sent : run.sent.Nodup
  known : ∀ id, NativeCommand.start id ∈ run.sent ∨ NativeCommand.stop id ∈ run.sent →
    (run.records.get? id).isSome = true
  records : ∀ id record, run.records.get? id = some record →
    record.Fits id run.sent ((run.positions.get? id).getD 0)
  unknown : ∀ id, run.records.get? id = none → run.positions.get? id = none
  exclusive : run.Exclusive
  calls : ∀ (index : Nat) call, run.calls[index]? = some call → call.Fits index run
  tokens : ∀ id index, run.mutations.get? id = some index → index < run.calls.length
  /-- Without observations no call goes on. -/
  detached : run.subscribed = false → (run.disposed = true ∨ run.state = .closed) ∧
    ∀ (index : Nat) call, run.calls[index]? = some call → call.stage = .awaiting →
      run.mutations.get? call.sessionId ≠ some index

/-- Every session goes on as one may. -/
def Continues (run next : NativeSessions) : Prop :=
  ∀ id record, run.records.get? id = some record →
    ∃ after, next.records.get? id = some after ∧ record.Follows after

theorem Continues.of_records (h : next.records = run.records) : run.Continues next :=
  fun id record hrecord => ⟨record, (congrArg (Dict.get? · id) h).trans hrecord, .refl record⟩

theorem Continues.congr {last : NativeSessions} (h : run.Continues next)
    (hrecords : last.records = next.records) : run.Continues last := by
  intro id record hrecord
  rw [hrecords]
  exact h id record hrecord

/-! ## Sessions change -/

/-- How a session may change while the calls stay. -/
structure Turn (run next : NativeSessions) (id : String) (record after : NativeSession) : Prop where
  follows : record.Follows after
  stoppedAt : after.stoppedAt = record.stoppedAt
  observed : ∃ rest, after.observed = record.observed ++ rest
  fits : after.Fits id run.sent ((next.positions.get? id).getD 0)
  /-- A call that goes on finds the phase that it has left. -/
  token : ∀ (index : Nat) call, next.mutations.get? id = some index → run.calls[index]? = some call →
    call.stage = .awaiting → record.phase = .opening ∨ record.phase = .closing →
    after.phase = record.phase

theorem Kept.turn (h : run.Kept) (hcalls : next.calls = run.calls) (hsent : next.sent = run.sent)
    (hrecords : ∀ id record, run.records.get? id = some record →
      ∃ after, next.records.get? id = some after ∧ run.Turn next id record after)
    (hunknown : ∀ id, run.records.get? id = none →
      next.records.get? id = none ∧ next.positions.get? id = none)
    (htokens : ∀ id index, next.mutations.get? id = some index →
      run.mutations.get? id = some index)
    (hdetached : next.subscribed = false → (next.disposed = true ∨ next.state = .closed) ∧
      ∀ (index : Nat) call, run.calls[index]? = some call → call.stage = .awaiting →
        next.mutations.get? call.sessionId ≠ some index) :
    next.Kept ∧ run.Continues next := by
  -- every session of the next state comes from one of this state
  have hback : ∀ id after, next.records.get? id = some after →
      ∃ record, run.records.get? id = some record ∧ run.Turn next id record after := by
    intro id after hafter
    cases hrecord : run.records.get? id with
    | none => cases (hunknown id hrecord).1.symm.trans hafter
    | some record =>
      rcases hrecords id record hrecord with ⟨found, hfound, hturn⟩
      cases hfound.symm.trans hafter
      exact ⟨record, rfl, hturn⟩
  refine ⟨?_, fun id record hrecord => ?_⟩
  · constructor
    · rw [hsent]
      exact h.sent
    · intro id hsome
      rw [hsent] at hsome
      rcases Option.isSome_iff_exists.mp (h.known id hsome) with ⟨record, hrecord⟩
      rcases hrecords id record hrecord with ⟨after, hafter, -⟩
      rw [hafter]
      rfl
    · intro id after hafter
      rcases hback id after hafter with ⟨record, -, hturn⟩
      rw [hsent]
      exact hturn.fits
    · intro id hnone
      cases hrecord : run.records.get? id with
      | none => exact (hunknown id hrecord).2
      | some record =>
        rcases hrecords id record hrecord with ⟨after, hafter, -⟩
        cases hnone.symm.trans hafter
    · intro first second one other key hne hone hother hfirst hsecond hkey
      rcases hback first one hone with ⟨before, hbefore, hturn⟩
      rcases hback second other hother with ⟨behind, hbehind, hturned⟩
      rw [hturn.follows.payload] at hkey
      rw [hturned.follows.payload]
      refine h.exclusive first second before behind key hne hbefore hbehind ?_ ?_ hkey
      · intro hclosed
        rw [hturn.follows.closed hclosed] at hfirst
        exact hfirst hclosed
      · intro hclosed
        rw [hturned.follows.closed hclosed] at hsecond
        exact hsecond hclosed
    · intro index call hcall hawaiting htoken
      rw [hcalls] at hcall
      rcases h.calls index call hcall hawaiting (htokens _ _ htoken) with ⟨record, hrecord, hfits⟩
      rcases hrecords _ record hrecord with ⟨after, hafter, hturn⟩
      have hphase := hturn.token index call htoken hcall hawaiting
      refine ⟨after, hafter, ?_⟩
      rw [hsent]
      cases hoperation : call.operation with
      | openSession payload readiness =>
        rw [hoperation] at hfits
        exact ⟨(hphase (Or.inl hfits.1)).trans hfits.1, hturn.follows.payload.trans hfits.2⟩
      | closeSession providerInstanceId =>
        rw [hoperation] at hfits
        rcases hfits with ⟨hclosing, hprovider, hstop, place, hplace, hmet⟩
        rcases hturn.observed with ⟨rest, hrest⟩
        dsimp only
        rw [hturn.follows.payload, hrest]
        refine ⟨(hphase (Or.inr hclosing)).trans hclosing, hprovider, hstop, place,
          hturn.stoppedAt.trans hplace, fun event hevent => ?_⟩
        have hle := (h.records _ record hrecord).stoppedAt place hplace
        rw [List.drop_append_of_le_length hle]
        exact ⟨List.mem_append_left _ (hmet event hevent).1, (hmet event hevent).2⟩
    · intro id index htoken
      rw [hcalls]
      exact h.tokens id index (htokens id index htoken)
    · rw [hcalls]
      exact hdetached
  · rcases hrecords id record hrecord with ⟨after, hafter, hturn⟩
    exact ⟨after, hafter, hturn.follows⟩

theorem Kept.put (h : run.Kept) (hrecord : run.records.get? id = some record)
    (hturn : run.Turn next id record after) (hrecords : next.records = run.records.set id after) (hcalls : next.calls = run.calls)
    (hsent : next.sent = run.sent)
    (hpositions : ∀ other, other ≠ id → next.positions.get? other = run.positions.get? other)
    (htokens : ∀ other index, next.mutations.get? other = some index →
      run.mutations.get? other = some index)
    (hconnection : next.subscribed = run.subscribed ∧ next.disposed = run.disposed ∧
      next.state = run.state) : next.Kept ∧ run.Continues next := by
  rcases hconnection with ⟨hsubscribed, hdisposed, hstate⟩
  refine h.turn hcalls hsent ?_ ?_ htokens ?_
  · intro other found hfound
    rw [hrecords]
    by_cases heq : other = id
    · subst heq
      cases hrecord.symm.trans hfound
      exact ⟨after, Dict.get?_set_self _ _ _, hturn⟩
    · refine ⟨found, (Dict.get?_set_of_ne _ _ heq).trans hfound, .refl found, rfl,
        ⟨[], (List.append_nil _).symm⟩, ?_, fun _ _ _ _ _ _ => rfl⟩
      rw [hpositions other heq]
      exact h.records other found hfound
  · intro other hnone
    have hne : other ≠ id := by
      rintro rfl
      cases hrecord.symm.trans hnone
    rw [hrecords, Dict.get?_set_of_ne _ _ hne, hpositions other hne]
    exact ⟨hnone, h.unknown other hnone⟩
  · intro hdetached
    rw [hdisposed, hstate]
    refine ⟨(h.detached (hsubscribed.symm.trans hdetached)).1, fun index call hcall hawaiting => ?_⟩
    intro htoken
    exact (h.detached (hsubscribed.symm.trans hdetached)).2 index call hcall hawaiting
      (htokens _ _ htoken)

/-! ## Calls are answered -/

/-- The event was observed of the session after its stop was sent. -/
def Recent (id : String) (event : HarnessEvent) (run : NativeSessions) : Prop :=
  ∀ record, run.records.get? id = some record → record.phase ≠ .closed →
    ∀ place, record.stoppedAt = some place → .event event ∈ record.observed.drop place

/-- How a call may change while the sessions stay. -/
structure Becomes (run : NativeSessions) (index : Nat) (call after : NativeCall) : Prop where
  sessionId : after.sessionId = call.sessionId
  operation : after.operation = call.operation
  stage : after.stage = .awaiting → call.stage = .awaiting
  wait : ∀ event, after.wait = .met event → call.stage = .awaiting →
    run.mutations.get? call.sessionId = some index →
    call.wait = .met event ∨ call.operation.awaits event = true ∧ run.Recent call.sessionId event

theorem Kept.answer (h : run.Kept) (calls : List NativeCall)
    (hlength : calls.length = run.calls.length)
    (hcalls : ∀ (index : Nat) after, calls[index]? = some after →
      ∃ call, run.calls[index]? = some call ∧ run.Becomes index call after) :
    Kept { run with calls } := by
  constructor
  · exact h.sent
  · exact h.known
  · exact h.records
  · exact h.unknown
  · exact h.exclusive
  · intro index after hafter hawaiting htoken
    rcases hcalls index after hafter with ⟨call, hcall, hbecomes⟩
    dsimp only at htoken ⊢
    rw [hbecomes.sessionId] at htoken ⊢
    have hstage := hbecomes.stage hawaiting
    rcases h.calls index call hcall hstage htoken with ⟨record, hrecord, hfits⟩
    refine ⟨record, hrecord, ?_⟩
    rw [hbecomes.operation]
    cases hoperation : call.operation with
    | openSession payload readiness =>
      rw [hoperation] at hfits
      exact hfits
    | closeSession providerInstanceId =>
      rw [hoperation] at hfits
      rcases hfits with ⟨hclosing, hprovider, hstop, place, hplace, hmet⟩
      refine ⟨hclosing, hprovider, hstop, place, hplace, fun event hevent => ?_⟩
      rcases hbecomes.wait event hevent hstage htoken with hold | ⟨hawaits, hrecent⟩
      · exact hmet event hold
      · rw [hoperation] at hawaits
        have hopen : record.phase ≠ .closed := by
          rw [hclosing]
          exact fun heq => nomatch heq
        exact ⟨hrecent record hrecord hopen place hplace, hawaits⟩
  · intro id index htoken
    dsimp only
    rw [hlength]
    exact h.tokens id index htoken
  · intro hdetached
    refine ⟨(h.detached hdetached).1, fun index after hafter hawaiting => ?_⟩
    rcases hcalls index after hafter with ⟨call, hcall, hbecomes⟩
    rw [hbecomes.sessionId]
    exact (h.detached hdetached).2 index call hcall (hbecomes.stage hawaiting)

theorem Kept.setCall (h : run.Kept) {index : Nat} {call changed : NativeCall}
    (hcall : run.calls[index]? = some call) (hbecomes : run.Becomes index call changed) :
    (run.setCall index changed).Kept := by
  refine h.answer _ List.length_set fun other found hfound => ?_
  rw [List.getElem?_set] at hfound
  split at hfound
  · rename_i heq
    subst heq
    split at hfound
    · cases hfound
      exact ⟨call, hcall, hbecomes⟩
    · cases hfound
  · exact ⟨found, hfound, rfl, rfl, fun hawaiting => hawaiting, fun event hmet _ _ => Or.inl hmet⟩

end NativeSessions

/-! ## Observations -/

namespace NativeSession

variable {sent : List NativeCommand} {position later : Nat} {observation : SessionObservation}

theorem unconfirm_of_ne (h : record.phase ≠ .closed) :
    record.unconfirm = { record with phase := .unconfirmed } :=
  if_neg h

theorem Fits.observed (h : record.Fits id sent position)
    (hpayload : after.payload = record.payload)
    (hobserved : after.observed = record.observed ++ [observation])
    (hstopped : after.stoppedAt = record.stoppedAt)
    (hattempted : after.closeAttempted = record.closeAttempted) (hstill : after.phase ≠ .closed)
    (hlater : later = highest after.observed)
    (hlate : after.phase.late = false →
      record.phase.late = false ∧ ¬Loss record.observed observation)
    (hconfigured : after.phase = .active → after.Configured) : after.Fits id sent later where
  named := (congrArg SessionStartPayload.sessionId hpayload).trans h.named
  position := fun _ => hlater
  undisturbed := by
    intro hnot
    rw [hobserved]
    exact (h.undisturbed (hlate hnot).1).concat (hlate hnot).2
  configured := hconfigured
  ended := fun hclosed => absurd hclosed hstill
  stoppedAt := by
    intro place hplace
    rw [hobserved, List.length_append]
    exact Nat.le_add_right_of_le (h.stoppedAt place (hstopped.symm.trans hplace))
  attempted := fun hstop => hattempted.trans (h.attempted hstop)

theorem observe_some {event : HarnessEvent} (h : record.observe event = some after) :
    (record.phase ≠ .closing →
      event.eventType ≠ "session.exited" ∧ event.eventType ≠ "native.work.owner_lost") ∧
    (after = record ∨ (record.phase = .reserved ∨ record.phase = .active) ∧
      ready event record.payload.executionProfile = true ∧ record.mismatches event = false ∧
      (record.phase = .active → record.configured.bind nativeReference = nativeReference event) ∧
      after = { record with configured := some event, phase := .active }) := by
  unfold observe at h
  split at h
  · cases h
  · rename_i hexit
    split at h
    · rename_i hready
      split at h
      · cases h
      · rename_i hsame
        cases h
        rw [not_or, Bool.not_eq_true, not_and, not_not] at hsame
        have htype : event.eventType = "session.configured" := by
          have hall := hready.2
          unfold ready at hall
          simp only [Bool.and_eq_true, beq_iff_eq] at hall
          exact hall.1.1.1
        refine ⟨fun _ => ?_, Or.inr ⟨hready.1, hready.2, hsame.1, hsame.2, rfl⟩⟩
        rw [htype]
        decide
    · split at h
      · cases h
      · rename_i hlost
        cases h
        refine ⟨fun hclosing => ⟨fun htype => ?_, fun htype => ?_⟩, Or.inl rfl⟩
        · exact hexit ⟨htype, hclosing⟩
        · exact hlost ⟨htype, hclosing⟩

theorem configured_of_ready {event : HarnessEvent}
    (hready : ready event record.payload.executionProfile = true)
    (hmatches : record.mismatches event = false) (hconfigured : after.configured = some event)
    (hpayload : after.payload = record.payload) : after.Configured := by
  refine ⟨event, hconfigured, ?_, fun expected hexpected => ?_⟩
  · rw [hpayload]
    exact hready
  · rw [hpayload] at hexpected
    unfold mismatches at hmatches
    rw [hexpected, Option.isSome_some, Bool.true_and, bne_eq_false_iff_eq] at hmatches
    exact hmatches.symm

theorem Follows.lost (hopen : record.phase ≠ .closed) (hpayload : after.payload = record.payload)
    (hphase : after.phase = .unconfirmed) : record.Follows after where
  payload := hpayload
  closed := fun hclosed => absurd hclosed hopen
  late := by
    intro _
    rw [hphase]
    rfl
  reference := by
    intro _ hactive
    cases hphase.symm.trans hactive

theorem Follows.unconfirm (record : NativeSession) : record.Follows record.unconfirm := by
  by_cases hclosed : record.phase = .closed
  · rw [NativeSession.unconfirm, if_pos hclosed]
    exact .refl record
  · rw [unconfirm_of_ne hclosed]
    exact .lost hclosed rfl rfl

theorem Fits.unconfirm (h : record.Fits id sent position) :
    record.unconfirm.Fits id sent position := by
  by_cases hclosed : record.phase = .closed
  · rw [NativeSession.unconfirm, if_pos hclosed]
    exact h
  · rw [unconfirm_of_ne hclosed]
    exact ⟨h.named, fun _ => h.position hclosed, fun hlate => (nomatch hlate),
      fun hactive => (nomatch hactive), fun hended => (nomatch hended), h.stoppedAt, h.attempted⟩

theorem Fits.sends {more : List NativeCommand} (h : record.Fits id sent position)
    (hmore : ∀ command ∈ sent, command ∈ more)
    (hstop : .stop id ∈ more → .stop id ∈ sent) : record.Fits id more position :=
  ⟨h.named, h.position, h.undisturbed, h.configured,
    fun hclosed => ⟨hmore _ (h.ended hclosed).1, (h.ended hclosed).2⟩, h.stoppedAt,
    fun hstopped => h.attempted (hstop hstopped)⟩

theorem unconfirm_observed (record : NativeSession) :
    record.unconfirm.observed = record.observed ∧
      record.unconfirm.stoppedAt = record.stoppedAt := by
  unfold NativeSession.unconfirm
  split
  · exact ⟨rfl, rfl⟩
  · exact ⟨rfl, rfl⟩

end NativeSession

namespace NativeSessions

open NativeSession

theorem token_of_erase {tokens : Dict String Nat} {other : String} {index : Nat}
    (h : (tokens.erase id).get? other = some index) : other ≠ id ∧ tokens.get? other = some index := by
  by_cases heq : other = id
  · subst heq
    cases (Dict.get?_erase_self tokens other).symm.trans h
  · exact ⟨heq, (Dict.get?_erase_of_ne tokens heq).symm.trans h⟩

theorem Kept.observeEvent (h : run.Kept) (event : HarnessEvent) :
    (run.observeEvent event).Kept ∧ run.Continues (run.observeEvent event) ∧
      (run.observeEvent event).Recent event.sessionId event := by
  unfold NativeSessions.observeEvent
  split
  · rename_i hnone
    refine ⟨h, Continues.of_records rfl, fun record hrecord => ?_⟩
    cases hnone.symm.trans hrecord
  · rename_i record hrecord
    split
    · rename_i hclosed
      refine ⟨h, Continues.of_records rfl, fun other hother hopen => ?_⟩
      cases hrecord.symm.trans hother
      exact absurd hclosed hopen
    · rename_i hopen
      have hfits := h.records _ record hrecord
      -- the event is the last one that was observed
      have hrecent : ∀ next : NativeSessions, (∀ found, next.records.get? event.sessionId =
          some found → found.observed = record.observed ++ [.event event] ∧
            found.stoppedAt = record.stoppedAt) → next.Recent event.sessionId event := by
        intro next hnext found hfound _ place hplace
        rcases hnext found hfound with ⟨hobserved, hstopped⟩
        have hle := hfits.stoppedAt place (hstopped.symm.trans hplace)
        rw [hobserved, List.drop_append_of_le_length hle]
        exact List.mem_append_right _ List.mem_cons_self
      dsimp only
      split
      · rename_i hstale
        have hhighest : (run.positions.get? event.sessionId).getD 0 =
            highest (record.observed ++ [.event event]) := by
          rw [highest_event, ← hfits.position hopen]
          omega
        have hturn : run.Turn (run.put event.sessionId
            { record with observed := record.observed ++ [.event event] }) event.sessionId record
            { record with observed := record.observed ++ [.event event] } := by
          constructor
          · exact ⟨rfl, fun hclosed => absurd hclosed hopen, fun hlate => hlate, fun _ _ => rfl⟩
          · rfl
          · exact ⟨_, rfl⟩
          · refine hfits.observed rfl rfl rfl rfl hopen hhighest (fun hlate => ?_) hfits.configured
            refine ⟨hlate, fun hloss => ?_⟩
            have hfresh := hloss.1
            rw [← hfits.position hopen] at hfresh
            omega
          · exact fun _ _ _ _ _ _ => rfl
        rcases h.put hrecord hturn rfl rfl rfl (fun _ _ => rfl) (fun _ _ htoken => htoken)
          ⟨rfl, rfl, rfl⟩ with ⟨hkept, hcontinues⟩
        refine ⟨hkept, hcontinues, hrecent _ fun found hfound => ?_⟩
        cases (Dict.get?_set_self _ _ _).symm.trans hfound
        exact ⟨rfl, rfl⟩
      · rename_i hfresh
        have hhighest : ((run.positions.set event.sessionId event.sequence).get?
            event.sessionId).getD 0 = highest (record.observed ++ [.event event]) := by
          rw [Dict.get?_set_self, highest_event, ← hfits.position hopen, Option.getD_some]
          omega
        have hpositions : ∀ other, other ≠ event.sessionId →
            (run.positions.set event.sessionId event.sequence).get? other =
              run.positions.get? other :=
          fun other hne => Dict.get?_set_of_ne _ _ hne
        have hphase : ({ record with
            observed := record.observed ++ [.event event] } : NativeSession).phase ≠ .closed := hopen
        split
        · -- the session is no longer confirmed
          rw [unconfirm_of_ne hphase]
          have hturn : run.Turn ((NativeSessions.put event.sessionId
              { record with
                observed := record.observed ++ [.event event]
                phase := .unconfirmed }
              { run with positions := run.positions.set event.sessionId event.sequence }).release
                event.sessionId) event.sessionId record
              { record with
                observed := record.observed ++ [.event event]
                phase := .unconfirmed } := by
            constructor
            · exact .lost hopen rfl rfl
            · rfl
            · exact ⟨_, rfl⟩
            · exact hfits.observed rfl rfl rfl rfl (fun heq => by cases heq) hhighest
                (fun hlate => by cases hlate) fun hactive => by cases hactive
            · intro index call htoken
              exact absurd rfl (token_of_erase htoken).1
          rcases h.put hrecord hturn rfl rfl rfl hpositions
            (fun _ _ htoken => (token_of_erase htoken).2) ⟨rfl, rfl, rfl⟩ with ⟨hkept, hcontinues⟩
          refine ⟨hkept, hcontinues, hrecent _ fun found hfound => ?_⟩
          cases (Dict.get?_set_self _ _ _).symm.trans hfound
          exact ⟨rfl, rfl⟩
        · rename_i next hnext
          rcases observe_some hnext with ⟨hgoes, hsame⟩
          have hturn : run.Turn (NativeSessions.put event.sessionId next
              { run with positions := run.positions.set event.sessionId event.sequence })
              event.sessionId record next := by
            have hundisturbed : record.phase.late = false →
                record.phase.late = false ∧ ¬Loss record.observed (.event event) := by
              intro hlate
              have hclosing : record.phase ≠ .closing := by
                intro heq
                rw [heq] at hlate
                cases hlate
              refine ⟨hlate, fun hloss => ?_⟩
              rcases hloss.2 with hexit | hlost
              · exact (hgoes hclosing).1 hexit
              · exact (hgoes hclosing).2 hlost
            rcases hsame with rfl | ⟨hlive, hready, hmatches, hreference, rfl⟩
            · constructor
              · exact ⟨rfl, fun hclosed => absurd hclosed hopen, fun hlate => hlate, fun _ _ => rfl⟩
              · rfl
              · exact ⟨_, rfl⟩
              · exact hfits.observed rfl rfl rfl rfl hopen hhighest hundisturbed hfits.configured
              · exact fun _ _ _ _ _ _ => rfl
            · -- the session is active
              have hstarted : record.phase.late = false := by
                rcases hlive with heq | heq
                · rw [show record.phase = .reserved from heq]
                  rfl
                · rw [show record.phase = .active from heq]
                  rfl
              constructor
              · refine ⟨rfl, fun hclosed => absurd hclosed hopen, fun hlate => ?_,
                  fun hactive _ => (hreference hactive).symm⟩
                cases hstarted.symm.trans hlate
              · rfl
              · exact ⟨_, rfl⟩
              · exact hfits.observed rfl rfl rfl rfl (fun heq => by cases heq) hhighest
                  (fun _ => hundisturbed hstarted)
                  fun _ => configured_of_ready hready hmatches rfl rfl
              · intro index call _ _ _ hearly
                rcases hearly with heq | heq
                · rcases hlive with hlive | hlive
                  · cases heq.symm.trans hlive
                  · cases heq.symm.trans hlive
                · rcases hlive with hlive | hlive
                  · cases heq.symm.trans hlive
                  · cases heq.symm.trans hlive
          rcases h.put hrecord hturn rfl rfl rfl hpositions (fun _ _ htoken => htoken)
            ⟨rfl, rfl, rfl⟩ with ⟨hkept, hcontinues⟩
          refine ⟨hkept, hcontinues, hrecent _ fun found hfound => ?_⟩
          cases (Dict.get?_set_self _ _ _).symm.trans hfound
          rcases hsame with rfl | ⟨-, -, -, -, rfl⟩
          · exact ⟨rfl, rfl⟩
          · exact ⟨rfl, rfl⟩

theorem Kept.observeLoss (h : run.Kept) (reason : UnconfirmedReason) (sessionId : Option String) :
    (run.observeLoss reason sessionId).Kept ∧
      run.Continues (run.observeLoss reason sessionId) := by
  unfold NativeSessions.observeLoss
  refine h.turn rfl rfl ?_ ?_ ?_ ?_
  · intro id record hrecord
    have hfits := h.records id record hrecord
    dsimp only
    rw [Dict.get?_map, hrecord, Option.map_some]
    refine ⟨_, rfl, ?_⟩
    rw [hfits.named]
    by_cases hconcerned : (concerns sessionId id && record.phase != .closed) = true
    · rw [if_pos hconcerned]
      have hopen : record.phase ≠ .closed := by
        rw [Bool.and_eq_true, bne_iff_ne] at hconcerned
        exact hconcerned.2
      have hphase : ({ record with
          observed := record.observed ++ [.unconfirmed reason sessionId] } : NativeSession).phase ≠
            .closed := hopen
      rw [unconfirm_of_ne hphase]
      constructor
      · exact .lost hopen rfl rfl
      · rfl
      · exact ⟨_, rfl⟩
      · refine hfits.observed rfl rfl rfl rfl (fun heq => nomatch heq) ?_
          (fun hlate => nomatch hlate) fun hactive => nomatch hactive
        rw [highest_unconfirmed]
        exact hfits.position hopen
      · intro index call htoken
        dsimp only at htoken
        rw [Dict.get?_filter, hrecord, Option.any_some, hconcerned] at htoken
        rcases Option.filter_eq_some_iff.mp htoken with ⟨-, hfalse⟩
        cases hfalse
    · rw [if_neg hconcerned]
      exact ⟨.refl record, rfl, ⟨[], (List.append_nil _).symm⟩, hfits, fun _ _ _ _ _ _ => rfl⟩
  · intro id hnone
    dsimp only
    rw [Dict.get?_map, hnone]
    exact ⟨rfl, h.unknown id hnone⟩
  · intro id index htoken
    dsimp only at htoken
    rw [Dict.get?_filter] at htoken
    exact (Option.filter_eq_some_iff.mp htoken).1
  · intro hdetached
    refine ⟨(h.detached hdetached).1, fun index call hcall hawaiting htoken => ?_⟩
    dsimp only at htoken
    rw [Dict.get?_filter] at htoken
    exact (h.detached hdetached).2 index call hcall hawaiting (Option.filter_eq_some_iff.mp htoken).1

theorem observeLoss_all (reason : UnconfirmedReason) (hrecord :
    (run.observeLoss reason none).records.get? id = some record) :
    record.phase = .closed ∨ record.phase = .unconfirmed := by
  unfold NativeSessions.observeLoss at hrecord
  dsimp only at hrecord
  rw [Dict.get?_map] at hrecord
  rcases Option.map_eq_some_iff.mp hrecord with ⟨before, -, rfl⟩
  by_cases hclosed : before.phase = .closed
  · rw [hclosed]
    exact Or.inl hclosed
  · have hopen : (concerns none before.payload.sessionId && before.phase != .closed) = true :=
      bne_iff_ne.mpr hclosed
    have hphase : ({ before with
        observed := before.observed ++ [.unconfirmed reason none] } : NativeSession).phase ≠
          .closed := hclosed
    rw [if_pos hopen, unconfirm_of_ne hphase]
    exact Or.inr rfl

theorem getElem?_map_some {calls : List NativeCall} {f : NativeCall → NativeCall} {index : Nat}
    {call : NativeCall} (h : (calls.map f)[index]? = some call) :
    ∃ old, calls[index]? = some old ∧ call = f old := by
  rw [List.getElem?_map] at h
  rcases Option.map_eq_some_iff.mp h with ⟨old, hold, rfl⟩
  exact ⟨old, hold, rfl⟩

theorem Kept.wake (h : run.Kept) (event : HarnessEvent)
    (hrecent : run.subscribed = true → run.Recent event.sessionId event) :
    Kept { run with calls := run.calls.map (NativeCall.wake event) } := by
  refine h.answer _ (List.length_map _) fun index after hafter => ?_
  rcases getElem?_map_some hafter with ⟨call, hcall, rfl⟩
  refine ⟨call, hcall, ?_⟩
  unfold NativeCall.wake
  split
  · rename_i hwoken
    rcases hwoken with ⟨-, hsession, -, hawaits⟩
    refine ⟨rfl, rfl, fun hawaiting => hawaiting, fun found hfound hawaiting htoken => ?_⟩
    cases hfound
    refine Or.inr ⟨hawaits, ?_⟩
    rw [hsession]
    apply hrecent
    by_contra hdetached
    exact (h.detached (Bool.not_eq_true _ ▸ hdetached)).2 index call hcall hawaiting htoken
  · exact ⟨rfl, rfl, fun hawaiting => hawaiting, fun found hfound _ _ => Or.inl hfound⟩

theorem Kept.lose (h : run.Kept) (sessionId : Option String) :
    Kept { run with calls := run.calls.map (NativeCall.lose sessionId) } := by
  refine h.answer _ (List.length_map _) fun index after hafter => ?_
  rcases getElem?_map_some hafter with ⟨call, hcall, rfl⟩
  refine ⟨call, hcall, ?_⟩
  unfold NativeCall.lose
  split
  · exact ⟨rfl, rfl, fun hawaiting => hawaiting, fun found hfound => nomatch hfound⟩
  · exact ⟨rfl, rfl, fun hawaiting => hawaiting, fun found hfound _ _ => Or.inl hfound⟩

theorem Kept.tell (h : run.Kept) (observation : SessionObservation) :
    (run.tell observation).Kept ∧ run.Continues (run.tell observation) := by
  unfold NativeSessions.tell
  cases observation with
  | event event =>
    dsimp only
    rcases h.observeEvent event with ⟨hkept, hcontinues, hrecent⟩
    cases hsubscribed : run.subscribed with
    | true => exact ⟨hkept.wake event fun _ => hrecent, hcontinues.congr rfl⟩
    | false =>
      refine ⟨h.wake event fun hsome => ?_, Continues.of_records rfl⟩
      cases hsubscribed.symm.trans hsome
  | unconfirmed reason sessionId =>
    dsimp only
    rcases h.observeLoss reason sessionId with ⟨hkept, hcontinues⟩
    cases run.subscribed with
    | true => exact ⟨hkept.lose sessionId, hcontinues.congr rfl⟩
    | false => exact ⟨h.lose sessionId, Continues.of_records rfl⟩

/-! ## The connection -/

theorem Kept.aside (h : run.Kept) (state : ConnectionState) (events : SessionEventReducer)
    (untold : List SessionObservation) (hstate : run.state = .closed → state = .closed) :
    Kept { run with state, events, untold } :=
  ⟨h.sent, h.known, h.records, h.unknown, h.exclusive, h.calls, h.tokens,
    fun hdetached => ⟨(h.detached hdetached).1.imp_right hstate, (h.detached hdetached).2⟩⟩

theorem Kept.receive (h : run.Kept) (schemas : PayloadSchemas) (texts : JsonTexts)
    (message : RunnerMessage) : (run.receive schemas texts message).Kept ∧
      run.Continues (run.receive schemas texts message) := by
  unfold NativeSessions.receive
  split
  · split
    · rename_i hstate _
      refine ⟨h.aside .awaitingAccept run.events run.untold fun hclosed => ?_,
        Continues.of_records rfl⟩
      cases hstate.symm.trans hclosed
    · exact ⟨h.aside run.state run.events _ id, Continues.of_records rfl⟩
    · split
      · exact ⟨h.aside run.state _ _ id, Continues.of_records rfl⟩
      · exact ⟨h, Continues.of_records rfl⟩
      · exact ⟨h.aside run.state _ _ id, Continues.of_records rfl⟩
    · split
      · exact ⟨h.aside run.state _ _ id, Continues.of_records rfl⟩
      · exact ⟨h.aside run.state _ _ id, Continues.of_records rfl⟩
    · exact ⟨h, Continues.of_records rfl⟩
  · exact ⟨h, Continues.of_records rfl⟩

theorem Kept.reject (h : run.Kept) : Kept { run with calls := run.calls.map NativeCall.reject } := by
  refine h.answer _ (List.length_map _) fun index after hafter => ?_
  rcases getElem?_map_some hafter with ⟨call, hcall, rfl⟩
  exact ⟨call, hcall, rfl, rfl, fun hawaiting => hawaiting, fun found hfound _ _ => Or.inl hfound⟩

theorem Kept.unsubscribe (h : run.Kept) (hover : run.disposed = true ∨ run.state = .closed)
    (hcalls : ∀ (index : Nat) call, run.calls[index]? = some call → call.stage = .awaiting →
      run.mutations.get? call.sessionId ≠ some index) :
    Kept { run with subscribed := false } :=
  ⟨h.sent, h.known, h.records, h.unknown, h.exclusive, h.calls, h.tokens, fun _ => ⟨hover, hcalls⟩⟩

theorem Kept.disconnect (h : run.Kept) :
    run.disconnect.Kept ∧ run.Continues run.disconnect := by
  have hclosed := (h.aside .closed run.events run.untold fun _ => rfl).reject
  rcases hclosed.tell (.unconfirmed .disconnected none) with ⟨hkept, hcontinues⟩
  unfold NativeSessions.disconnect
  refine ⟨hkept.unsubscribe (Or.inr ?_) fun index call hcall hawaiting htoken => ?_, ?_⟩
  · unfold NativeSessions.tell
    dsimp only
    split
    · rfl
    · rfl
  · cases hsubscribed : run.subscribed with
    | false =>
      refine (hkept.detached ?_).2 index call hcall hawaiting htoken
      unfold NativeSessions.tell
      dsimp only
      rw [hsubscribed, if_neg Bool.false_ne_true]
    | true =>
      -- the session of a call that goes on would be opening or closing
      rcases hkept.calls index call hcall hawaiting htoken with ⟨record, hrecord, hfits⟩
      have hover : record.phase = .closed ∨ record.phase = .unconfirmed := by
        unfold NativeSessions.tell at hrecord
        dsimp only at hrecord
        rw [hsubscribed, if_pos rfl] at hrecord
        exact observeLoss_all .disconnected hrecord
      cases hoperation : call.operation with
      | openSession payload readiness =>
        rw [hoperation] at hfits
        rw [hfits.1] at hover
        rcases hover with heq | heq
        · cases heq
        · cases heq
      | closeSession providerInstanceId =>
        rw [hoperation] at hfits
        rw [hfits.1] at hover
        rcases hover with heq | heq
        · cases heq
        · cases heq
  · exact hcontinues.congr rfl

end NativeSessions

end HarnessControl.Sdk
