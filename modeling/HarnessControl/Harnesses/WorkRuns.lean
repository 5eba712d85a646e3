import HarnessControl.Harnesses.WorkLifecycle
import HarnessControl.State.McpRuns

/-!
# Runs of a session's native work

Reports, the loss of the owner, cancellations, retirements and reconciliations of one session in
any order; the parts of an operation have anything in between them.
-/

namespace HarnessControl.Harnesses

open HarnessControl.Library HarnessControl.Protocol HarnessControl.State

inductive WorkAction where
  /-- `sendTurn` admits a turn. -/
  | turnAdmitted (turnId : String)
  | observed (occasion : Occasion) (turnId : Option String)
    (observation : NativeWorkObservation) (custody : Option NativeWorkCustody)
  | ownerLost (occasion : Occasion) (turnId : Option String) (data : Json)
  /-- `#stopSession` gives the owner up, and later ends the session. -/
  | stopping
  | ended
  /-- A prepared session becomes the live one. -/
  | started (session : LiveSession)
  | retired (occasion : Occasion) (commandId : String) (operation : RetireOperation)
  | cancelRequested (occasion : Occasion) (commandId : String) (operation : CancelOperation)
  | cancelDispatched (published : Bool)
  /-- The promise of `cancelNativeWork` is fulfilled, or rejected by the adapter or its timer. -/
  | cancelSettled (fulfilled : Bool)
  | cancelContinued (occasion : Occasion)
  | reconcileRequested (commandId : String) (operation : ReconcileOperation)
  | reconcileContinued (occasion : Occasion) (proof : Option WorkStatus)
  /-- Another call of the store. -/
  | stored (moment : Moment) (action : StoreAction)

namespace WorkHost

variable (sessionId : String)

/-- A save of the session's work state by another operation, which writes back the work that it
has read; every other call of the store leaves the work alone. -/
def keepsWork (action : StoreAction) (host : WorkHost) : Bool :=
  match action with
  | .saveNativeWorkState target input _ =>
    target != sessionId ||
    input.items == (host.work? sessionId).elim Dict.empty NativeWorkState.items &&
    input.retired == (host.work? sessionId).elim Dict.empty NativeWorkState.retired
  | _ => true

def admitTurn (turnId : String) (host : WorkHost) : WorkHost :=
  if (host.session? sessionId).any fun session => !(session.turnIds.contains turnId) then
    { host.updateSession sessionId fun session =>
        { session with turnIds := session.turnIds ++ [turnId] } with
      turns := host.turns ++ [turnId] }
  else host

/-- A session takes the place of the one that was live; the loss of its owner does not abort a
cancellation that the other one dispatched. -/
def startSession (session : LiveSession) (host : WorkHost) : WorkHost where
  manager := { host.manager with sessions := host.manager.sessions.set sessionId session }
  store := host.store
  control := host.control.map fun control => match control with
    | .cancelling cancellation => .cancelling { cancellation with attached := false }
    | other => other
  turns := host.turns ++ session.turnIds
  commits := host.commits

/-- An operation runs when its turn in the queue has come. -/
def queued (operation : WorkHost → WorkHost) (host : WorkHost) : WorkHost :=
  if host.control.isSome then host else operation host

def step (host : WorkHost) : WorkAction → WorkHost
  | .turnAdmitted turnId => host.admitTurn sessionId turnId
  | .observed occasion turnId observation custody =>
    (host.observe sessionId occasion turnId observation custody).1
  | .ownerLost occasion turnId data => (host.loseOwner sessionId occasion turnId data).1
  | .stopping => host.queued fun host => host.release sessionId fun session =>
    session.nativeWorkStopping || session.ownsWork
  | .ended => host.queued fun host => { host with
    manager := { host.manager with sessions := host.manager.sessions.erase sessionId } }
  | .started session => host.startSession sessionId session
  | .retired occasion commandId operation => host.queued fun host =>
    (host.retire sessionId occasion commandId operation).1
  | .cancelRequested occasion commandId operation => host.queued fun host =>
    (host.requestCancel sessionId occasion commandId operation).1
  | .cancelDispatched published =>
    match host.control with
    | some (.fenced commandId workId) =>
      (host.dispatchCancel sessionId published commandId workId).1
    | _ => host
  | .cancelSettled fulfilled =>
    match host.control with
    | some (.cancelling cancellation) => { host with control := some (.cancelling
      { cancellation with settled := cancellation.settled.or (some fulfilled) }) }
    | _ => host
  | .cancelContinued occasion =>
    match host.control with
    | some (.cancelling cancellation) =>
      (host.acknowledgeCancel sessionId occasion cancellation).1
    | _ => host
  | .reconcileRequested commandId operation => host.queued fun host =>
    (host.requestReconciliation sessionId commandId operation).1
  | .reconcileContinued occasion proof =>
    match host.control with
    | some (.reconciling plan) => (host.reconcile sessionId occasion plan proof).1
    | _ => host
  | .stored moment action =>
    if host.keepsWork sessionId action then
      { host with store := (host.store.perform host.manager.runtime moment action).state }
    else host

/-! ## What the proofs read of a host -/

/-- The child that is being reconciled. -/
def snapshot? (host : WorkHost) : Option NativeWorkRecord :=
  match host.control with
  | some (.reconciling plan) => some plan.work
  | _ => none

def turnIds (host : WorkHost) : List String :=
  (host.session? sessionId).elim [] LiveSession.turnIds

/-- Where one of two hosts is consistent with its history, the other one is. -/
structure SameWork (host next : WorkHost) : Prop where
  work : next.work? sessionId = host.work? sessionId
  turns : next.turns = host.turns
  commits : next.commits = host.commits
  turnIds : next.turnIds sessionId = host.turnIds sessionId
  snapshot : next.snapshot? = host.snapshot?

/-- A change without a live owner is about a known work, and leaves it terminal or unknown. -/
def OwnedChange (earlier : List WorkCommit) (commit : WorkCommit) : Prop :=
  commit.owned = false → commit.workId ∈ earlier.map WorkCommit.workId ∧
    (isNativeWorkTerminal commit.work.status = true ∨ commit.work.status = .unknown)

/-- The invariant of a run. -/
structure Tracks (host : WorkHost) : Prop where
  recorded : Recorded (host.work? sessionId) host.turns host.commits
  turnIds : ∀ turnId ∈ host.turnIds sessionId, turnId ∈ host.turns
  snapshot : ∀ work ∈ host.snapshot?, isNativeWorkTerminal work.status = false ∧
    ∃ commit ∈ host.commits, commit.work = work
  owners : Throughout OwnedChange host.commits

variable {sessionId} {host next : WorkHost}

theorem SameWork.refl (host : WorkHost) : SameWork sessionId host host := ⟨rfl, rfl, rfl, rfl, rfl⟩

theorem SameWork.trans {last : WorkHost} (h : SameWork sessionId host next)
    (h' : SameWork sessionId next last) : SameWork sessionId host last :=
  ⟨h'.work.trans h.work, h'.turns.trans h.turns, h'.commits.trans h.commits,
    h'.turnIds.trans h.turnIds, h'.snapshot.trans h.snapshot⟩

theorem Tracks.same (h : Tracks sessionId host) (hsame : SameWork sessionId host next) :
    Tracks sessionId next := by
  rcases hsame with ⟨hwork, hturns, hcommits, hturnIds, hsnapshot⟩
  constructor
  · rw [hwork, hturns, hcommits]
    exact h.recorded
  · rw [hturnIds, hturns]
    exact h.turnIds
  · rw [hsnapshot, hcommits]
    exact h.snapshot
  · rw [hcommits]
    exact h.owners

theorem Tracks.idle (h : Tracks sessionId host) {control : Option WorkControl}
    (hidle : snapshot? { host with control } = none) :
    Tracks sessionId { host with control } where
  recorded := h.recorded
  turnIds := h.turnIds
  snapshot work hwork := by
    rw [hidle] at hwork
    cases hwork
  owners := h.owners

/-! ## Sessions -/

theorem updateSession_session? (change : LiveSession → LiveSession) (host : WorkHost) :
    (host.updateSession sessionId change).session? sessionId =
      (host.session? sessionId).map change := by
  unfold updateSession
  cases hsession : host.session? sessionId with
  | none => exact hsession
  | some session => exact Dict.get?_set_self _ _ _

theorem updateSession_same {change : LiveSession → LiveSession}
    (hturns : ∀ session, (change session).turnIds = session.turnIds) (host : WorkHost) :
    SameWork sessionId host (host.updateSession sessionId change) := by
  have hturnIds : (host.updateSession sessionId change).turnIds sessionId =
      host.turnIds sessionId := by
    unfold turnIds
    rw [updateSession_session?]
    cases host.session? sessionId with
    | none => rfl
    | some session => exact hturns session
  have hrest : ∀ host : WorkHost, (host.updateSession sessionId change).work? sessionId =
      host.work? sessionId ∧ (host.updateSession sessionId change).turns = host.turns ∧
      (host.updateSession sessionId change).commits = host.commits ∧
      (host.updateSession sessionId change).snapshot? = host.snapshot? := by
    intro host
    unfold updateSession
    split <;> exact ⟨rfl, rfl, rfl, rfl⟩
  rcases hrest host with ⟨hwork, hturns, hcommits, hsnapshot⟩
  exact ⟨hwork, hturns, hcommits, hturnIds, hsnapshot⟩

theorem abort_same (host : WorkHost) : SameWork sessionId host (abort host) := by
  unfold abort
  split
  · rename_i cancellation hcontrol
    refine ⟨rfl, rfl, rfl, rfl, ?_⟩
    unfold snapshot?
    rw [hcontrol]
  · exact SameWork.refl host

theorem release_same (stopping : LiveSession → Bool) (host : WorkHost) :
    SameWork sessionId host (host.release sessionId stopping) := by
  unfold release
  refine SameWork.trans (updateSession_same ?_ host) (abort_same _)
  exact fun _ => rfl

/-! ## Commits -/

variable (sessionId) in
/-- A commit fails and leaves the work alone, or the state is saved. -/
inductive Committed (host : WorkHost) (state : NativeWorkState) (commit : Option WorkCommit) :
    WorkHost × Option OperationFailure → Prop where
  | failed {next : WorkHost} {failure : OperationFailure} (same : SameWork sessionId host next) :
    Committed host state commit (next, some failure)
  | saved {next : WorkHost} (work : next.work? sessionId = some state.kept)
    (commits : next.commits = host.commits ++ commit.toList) (turns : next.turns = host.turns)
    (turnIds : next.turnIds sessionId = host.turnIds sessionId)
    (snapshot : next.snapshot? = host.snapshot?) :
    Committed host state commit (next, none)

theorem commitState_committed (occasion : Occasion) (turnId : Option String) (eventType : String)
    (data : Json) (state : NativeWorkState) (commit : Option WorkCommit) (host : WorkHost) :
    Committed sessionId host state commit
      (host.commitState sessionId occasion turnId eventType data state commit) := by
  unfold commitState
  split
  · exact .failed (SameWork.refl host)
  · dsimp only
    generalize nextEvent host.store occasion.moment.now sessionId turnId eventType data = event
    have hrecords : RecordsAfter host.manager.runtime occasion.moment host.store
        (.saveNativeWorkState sessionId state (some event)) _ :=
      host.store.saveNativeWorkState_records sessionId state (some event)
    split
    · rename_i failure hfailure
      rcases hrecords with ⟨hsame, -⟩ | ⟨hreturned, -⟩
      · exact .failed ⟨hsame.work sessionId, rfl, rfl, rfl, rfl⟩
      · rw [hfailure] at hreturned
        cases hreturned
    · rename_i hreturned
      refine .saved ?_ rfl rfl rfl rfl
      have hsaved := (RunnerStore.saveNativeWorkState_saved hreturned).2
      unfold work?
      rw [hsaved, Dict.get?_set_self]

theorem commitUpdate_committed (occasion : Occasion) (turnId : Option String)
    (state : NativeWorkState) (work : NativeWorkRecord) (host : WorkHost) :
    Committed sessionId host state (some ⟨work, false, host.owned sessionId⟩)
      (host.commitUpdate sessionId occasion turnId state work) := by
  unfold commitUpdate
  dsimp only
  have hcommitted : Committed sessionId host state (some ⟨work, false, host.owned sessionId⟩) _ :=
    host.commitState_committed occasion turnId "native.work.updated" (updatedData work) state
      (some ⟨work, false, host.owned sessionId⟩)
  generalize host.commitState sessionId occasion turnId "native.work.updated" (updatedData work)
    state (some ⟨work, false, host.owned sessionId⟩) = committed at hcommitted
  cases hcommitted with
  | failed same => exact .failed same
  | @saved next hwork hcommits hturns hturnIds hsnapshot =>
    have hlive : SameWork sessionId next (next.updateSession sessionId fun session =>
        { session with liveWork := session.liveWork.insert work.workId }) := by
      refine updateSession_same ?_ next
      exact fun _ => rfl
    exact .saved (hlive.work.trans hwork) (hlive.commits.trans hcommits)
      (hlive.turns.trans hturns) (hlive.turnIds.trans hturnIds) (hlive.snapshot.trans hsnapshot)

theorem Tracks.committed (h : Tracks sessionId host) {state : NativeWorkState}
    {commit : Option WorkCommit} {result : WorkHost × Option OperationFailure}
    (hresult : Committed sessionId host state commit result)
    (hrecorded : Recorded (some state.kept) host.turns (host.commits ++ commit.toList))
    (howned : ∀ change ∈ commit, OwnedChange host.commits change) :
    Tracks sessionId result.1 := by
  cases hresult with
  | failed same => exact h.same same
  | saved hwork hcommits hturns hturnIds hsnapshot =>
    constructor
    · rw [hwork, hturns, hcommits]
      exact hrecorded
    · rw [hturnIds, hturns]
      exact h.turnIds
    · rw [hsnapshot, hcommits]
      intro work hmem
      rcases h.snapshot work hmem with ⟨hactive, change, hchange, heq⟩
      exact ⟨hactive, change, List.mem_append_left _ hchange, heq⟩
    · rw [hcommits]
      cases commit with
      | none =>
        rw [Option.toList_none, List.append_nil]
        exact h.owners
      | some change => exact throughout_concat.mpr ⟨h.owners, howned change rfl⟩

theorem Tracks.update (h : Tracks sessionId host) {before after : NativeWorkState}
    {work : NativeWorkRecord} (hbefore : host.work? sessionId = some before)
    (hcontinues : Continues before work)
    (hnew : before.items.get? work.workId = none →
      (∀ id ∈ work.parentWorkId, ∃ parent, before.work? id = some parent) ∧
      work.originTurnId ∈ host.turns)
    (hitems : after.items = before.items.set work.workId work)
    (hretired : after.retired = before.retired)
    (howned : host.owned sessionId = false → (before.items.get? work.workId).isSome = true ∧
      (isNativeWorkTerminal work.status = true ∨ work.status = .unknown))
    (occasion : Occasion) (turnId : Option String) :
    Tracks sessionId (host.commitUpdate sessionId occasion turnId after work).1 := by
  have hrecorded : Recorded (some before) host.turns host.commits := hbefore ▸ h.recorded
  have hlater : Recorded (some after.kept) host.turns
      (host.commits ++ [⟨work, false, host.owned sessionId⟩]) := by
    refine hrecorded.update hcontinues hnew ?_ ?_ _
    · exact hitems
    · exact hretired
  refine h.committed (host.commitUpdate_committed occasion turnId after work) hlater ?_
  rintro change hchange hlost
  cases hchange
  rcases howned hlost with ⟨hknown, hstatus⟩
  refine ⟨?_, hstatus⟩
  rcases Option.isSome_iff_exists.mp hknown with ⟨old, hold⟩
  rcases hrecorded.item hold with ⟨commit, hlatest, -, -⟩
  rcases latest_mem hlatest with ⟨hmem, hname⟩
  exact List.mem_map.mpr ⟨commit, hmem, hname⟩

/-! ## Steps -/

theorem Tracks.observe (h : Tracks sessionId host) (occasion : Occasion) (turnId : Option String)
    (observation : NativeWorkObservation) (custody : Option NativeWorkCustody) :
    Tracks sessionId (host.observe sessionId occasion turnId observation custody).1 := by
  unfold WorkHost.observe
  split
  · exact h
  · split
    · exact h
    · rename_i state work hobserve
      rcases observeWork_ok hobserve with
        ⟨owner, before, howner, hbefore, hitems, hretired, hobserved⟩
      have hrecorded : Recorded (some before) host.turns host.commits := hbefore ▸ h.recorded
      have hturns : ∀ turnId ∈ owner.turnIds, turnId ∈ host.turns := by
        have hturnIds := h.turnIds
        unfold WorkHost.turnIds at hturnIds
        rw [howner] at hturnIds
        exact hturnIds
      refine h.update hbefore hobserved.continues ?_ hitems hretired ?_ occasion turnId
      · intro hnone
        refine ⟨hobserved.parent, ?_⟩
        rcases hobserved.origin hnone with hturn | ⟨id, -, parent, hparent, horigin⟩
        · exact hturns _ hturn
        · -- the origin is that of the parent, which was confirmed when the parent was admitted
          rcases hrecorded.latest_of_work hparent with ⟨commit, hlatest, hsame⟩
          rw [← horigin, hsame]
          exact hrecorded.origins commit (latest_mem hlatest).1
      · intro hlost
        apply hobserved.ownerless
        unfold owned at hlost
        rw [howner] at hlost
        exact hlost

theorem Tracks.uncertain (h : Tracks sessionId host) {before after : NativeWorkState}
    (hbefore : host.work? sessionId = some before) (hitems : after.items = before.items)
    (hretired : after.retired = before.retired) {result : WorkHost × Option OperationFailure}
    (hresult : Committed sessionId host after none result) : Tracks sessionId result.1 := by
  have hrecorded : Recorded (some before) host.turns host.commits := hbefore ▸ h.recorded
  refine h.committed hresult ?_ (fun _ hnone => (nomatch hnone))
  rw [Option.toList_none, List.append_nil]
  refine hrecorded.congr (fun id => ?_) fun id => ?_
  · change after.items.get? id = before.items.get? id
    rw [hitems]
  · change after.retired.get? id = before.retired.get? id
    rw [hretired]

theorem appendEvent_work {runtime : Runtime} {moment : Moment} {event : HarnessEvent}
    (store : RunnerStore) :
    (store.appendEvent runtime.options moment event).state.data.nativeWork.get? sessionId =
      store.data.nativeWork.get? sessionId := by
  have hwork : WorkAfter runtime (store.data.nativeWork.get? sessionId) sessionId
    (.appendEvent event) _ := store.perform_work moment (.appendEvent event) sessionId
  generalize hafter : (store.perform runtime moment (.appendEvent event)).state.data.nativeWork.get?
    sessionId = after at hwork
  cases hwork
  exact hafter

theorem Tracks.loseOwner (h : Tracks sessionId host) (occasion : Occasion)
    (turnId : Option String) (data : Json) :
    Tracks sessionId (host.loseOwner sessionId occasion turnId data).1 := by
  unfold WorkHost.loseOwner
  split
  · exact h
  · split
    · exact h
    · dsimp only
      have hlost : Tracks sessionId (host.release sessionId fun _ => false) :=
        h.same (release_same _ host)
      generalize host.release sessionId (fun _ => false) = lost at hlost
      split
      · have huncertain : SameWork sessionId lost (lost.updateSession sessionId fun session =>
            { session with nativeWorkClosureUnconfirmed := true }) := by
          refine updateSession_same ?_ lost
          exact fun _ => rfl
        split
        · exact hlost.same huncertain
        · rename_i state hstate
          refine (hlost.same huncertain).uncertain (huncertain.work.trans hstate) ?_ ?_
            (commitState_committed _ _ _ _ { state with closureUnconfirmed := true } _ _)
          · rfl
          · rfl
      · split
        · exact hlost
        · exact hlost.same ⟨appendEvent_work lost.store, rfl, rfl, rfl, rfl⟩

theorem controlledWork_ok {manager : Manager} {store : RunnerStore}
    {commandId workId requestHash : String} {state : NativeWorkState} {work : NativeWorkRecord}
    (h : manager.controlledWork store commandId sessionId workId requestHash = .ok (state, work)) :
    store.data.nativeWork.get? sessionId = some state ∧ state.items.get? workId = some work := by
  unfold Manager.controlledWork at h
  split at h
  · cases h
  · rename_i found provider howned
    split at h
    · cases h
    · rename_i item hitem
      dsimp only at h
      split at h
      · cases h
      · cases h
        exact ⟨Manager.ownedWork_ok howned, hitem⟩

theorem Tracks.retire (h : Tracks sessionId host) (occasion : Occasion) (commandId : String)
    (operation : RetireOperation) :
    Tracks sessionId (host.retire sessionId occasion commandId operation).1 := by
  unfold WorkHost.retire
  split
  · exact h
  · rename_i state work hwork
    rcases controlledWork_ok hwork with ⟨hstate, hitem⟩
    have hrecorded : Recorded (some state) host.turns host.commits := hstate ▸ h.recorded
    split
    · exact h
    · rename_i hproblem
      dsimp only
      have hown : work.workId = operation.workId := (hrecorded.item_active hitem).1
      rw [← hown] at hitem
      have hdone : isNativeWorkTerminal work.status = true := by
        unfold retireProblem at hproblem
        simp only [firstError_eq_none, List.forall_mem_cons, errorIf_eq_none] at hproblem
        simpa using hproblem.2.1
      have hretired := h.committed
        (commitState_committed occasion none "native.work.retired" (retiredData work)
          { state with
            items := state.items.erase work.workId,
            retired := state.retired.set work.workId work }
          (some ⟨{ work with revision := work.revision + 1 }, true, host.owned sessionId⟩) host)
        (by
          refine hrecorded.retire hitem ?_ ?_ _
          · rfl
          · rfl)
        (by
          rintro change hchange -
          cases hchange
          rcases hrecorded.item hitem with ⟨commit, hlatest, -, -⟩
          rcases latest_mem hlatest with ⟨hmem, hname⟩
          exact ⟨List.mem_map.mpr ⟨commit, hmem, hname⟩, Or.inl hdone⟩)
      split
      · exact hretired
      · refine hretired.same (updateSession_same ?_ _)
        exact fun _ => rfl

theorem cancelProblem_owned {session : Option LiveSession} {state : NativeWorkState}
    {work : NativeWorkRecord} (h : cancelProblem session state work = none) :
    session.any LiveSession.ownsWork = true := by
  unfold cancelProblem at h
  simp only [firstError_eq_none, List.forall_mem_cons, errorIf_eq_none] at h
  cases session with
  | none => simp at h
  | some session =>
    have howner := h.2.1
    simp only [Option.any_some, Bool.not_eq_false', Bool.and_eq_true] at howner
    exact howner.2.1.1

theorem Tracks.controlled (h : Tracks sessionId host) {state : NativeWorkState} {id : String}
    {work next : NativeWorkRecord} (hstate : host.work? sessionId = some state)
    (hitem : state.items.get? id = some work)
    (hnext : next.workId = work.workId ∧
      NativeWorkRecord.execution next = NativeWorkRecord.execution work ∧
      work.revision < next.revision ∧
      (isNativeWorkTerminal work.status = true → next.status = work.status))
    {after : NativeWorkState} (hitems : after.items = state.items.set id next)
    (hretired : after.retired = state.retired)
    (howned : host.owned sessionId = false →
      isNativeWorkTerminal next.status = true ∨ next.status = .unknown) (occasion : Occasion) :
    Tracks sessionId (host.commitUpdate sessionId occasion none after next).1 := by
  have hrecorded : Recorded (some state) host.turns host.commits := hstate ▸ h.recorded
  rcases hrecorded.item_active hitem with ⟨rfl, hactive⟩
  rcases hnext with ⟨hid, hsame, hrevision, hstatus⟩
  rw [← hid] at hitem hactive hitems
  refine h.update hstate ⟨hactive, ?_⟩ ?_ hitems hretired ?_ occasion none
  · intro old hold
    cases hitem.symm.trans hold
    exact ⟨hsame, hrevision, hstatus⟩
  · intro hnone
    rw [hitem] at hnone
    cases hnone
  · intro hlost
    refine ⟨?_, howned hlost⟩
    rw [hitem]
    rfl

theorem Tracks.requestCancel (h : Tracks sessionId host) (occasion : Occasion)
    (commandId : String) (operation : CancelOperation) :
    Tracks sessionId (host.requestCancel sessionId occasion commandId operation).1 := by
  unfold WorkHost.requestCancel
  dsimp only
  split
  · exact h
  · rename_i state work hwork
    rcases controlledWork_ok hwork with ⟨hstate, hitem⟩
    split
    · exact h
    · exact h
    · split
      · exact h
      · rename_i hproblem
        have hown : work.workId = operation.workId := by
          have hrecorded : Recorded (some state) host.turns host.commits := hstate ▸ h.recorded
          exact (hrecorded.item_active hitem).1
        rw [← hown] at hitem
        generalize hfence : ({ work with
          revision := work.revision + 1,
          control := some ⟨commandId, host.manager.hash operation.toJson, .pending⟩ } :
            NativeWorkRecord) = fence
        have hfenced : Tracks sessionId (host.commitUpdate sessionId occasion none
            { state with items := state.items.set work.workId fence } fence).1 := by
          refine h.controlled hstate hitem ?_ ?_ ?_ (fun hlost => ?_) occasion
          · rw [← hfence]
            exact ⟨rfl, rfl, Int.lt_succ _, fun _ => rfl⟩
          · rfl
          · rfl
          · have howned : host.owned sessionId = true := cancelProblem_owned hproblem
            rw [howned] at hlost
            cases hlost
        split
        · exact hfenced
        · exact hfenced.idle rfl

theorem Tracks.dispatchCancel (h : Tracks sessionId host) (published : Bool)
    (commandId workId : String) :
    Tracks sessionId (host.dispatchCancel sessionId published commandId workId).1 := by
  have hended : Tracks sessionId { host with control := none } := h.idle rfl
  unfold WorkHost.dispatchCancel
  dsimp only
  split
  · exact hended
  · split
    · exact hended
    · split
      · exact hended
      · split
        · exact hended
        · exact h.idle rfl

variable (sessionId) in
/-- The work whose cancellation the adapter has confirmed, with the record that is then read. -/
def confirmed? (host : WorkHost) : Option NativeWorkRecord :=
  match host.control with
  | some (.cancelling cancellation) =>
    if cancellation.settled = some true then
      (host.work? sessionId).bind fun state => state.items.get? cancellation.workId
    else none
  | _ => none

theorem Tracks.acknowledgeCancel (h : Tracks sessionId host) (occasion : Occasion)
    {cancellation : Cancellation} (hcontrol : host.control = some (.cancelling cancellation))
    (howned : host.owned sessionId = false → ∀ work ∈ host.confirmed? sessionId,
      isNativeWorkTerminal work.status = true ∨ work.status = .unknown) :
    Tracks sessionId (host.acknowledgeCancel sessionId occasion cancellation).1 := by
  have hended : Tracks sessionId { host with control := none } := h.idle rfl
  unfold WorkHost.acknowledgeCancel
  split
  · exact h
  · exact hended
  · rename_i hsettled
    dsimp only
    split
    · exact hended
    · rename_i state hstate
      split
      · exact hended
      · rename_i work hitem
        split
        · exact hended
        · rename_i control hpending
          refine hended.controlled hstate hitem ?_ ?_ ?_ (fun hlost => ?_) occasion
          · exact ⟨rfl, rfl, Int.lt_succ _, fun _ => rfl⟩
          · rfl
          · rfl
          · have hconfirmed : host.confirmed? sessionId = some work := by
              unfold confirmed?
              rw [hcontrol]
              dsimp only
              rw [if_pos hsettled, hstate]
              exact hitem
            exact howned hlost work hconfirmed

theorem admitReconciliation_ok {manager : Manager} {store : RunnerStore} {owned : Bool}
    {commandId : String} {operation : ReconcileOperation} {plan : ReconciliationPlan}
    (h : manager.admitReconciliation store owned commandId sessionId operation = .admitted plan) :
    isNativeWorkTerminal plan.work.status = false ∧ ∃ state id,
      store.data.nativeWork.get? sessionId = some state ∧
      state.items.get? id = some plan.work := by
  unfold Manager.admitReconciliation at h
  split at h
  · cases h
  · rename_i state provider howned
    dsimp only at h
    split at h
    · cases h
    · split at h <;> cases h
    · rename_i work hwork hprior
      split at h
      · cases h
      · split at h
        · rename_i hproblem hcustody
          cases h
          unfold reconcileProblem at hproblem
          simp only [firstError_eq_none, List.forall_mem_cons, errorIf_eq_none] at hproblem
          rw [hprior] at hwork
          simp only [Option.isSome_none, Bool.false_eq_true, if_false, Option.or_none] at hwork
          exact ⟨hproblem.2.2.1, state, _, Manager.ownedWork_ok howned, hwork⟩
        · cases h
        · cases h

theorem Tracks.requestReconciliation (h : Tracks sessionId host) (commandId : String)
    (operation : ReconcileOperation) :
    Tracks sessionId (host.requestReconciliation sessionId commandId operation).1 := by
  unfold WorkHost.requestReconciliation
  split
  · exact h
  · exact h
  · rename_i plan hplan
    rcases admitReconciliation_ok hplan with ⟨hactive, state, id, hstate, hitem⟩
    have hrecorded : Recorded (some state) host.turns host.commits := hstate ▸ h.recorded
    refine ⟨h.recorded, h.turnIds, ?_, h.owners⟩
    rintro work hwork
    cases hwork
    rcases hrecorded.item hitem with ⟨commit, hlatest, -, hsame⟩
    exact ⟨hactive, commit, (latest_mem hlatest).1, hsame⟩

theorem Tracks.same_revision (h : Tracks sessionId host) {old new : WorkCommit}
    (hold : old ∈ host.commits) (hnew : new ∈ host.commits) (hname : old.workId = new.workId)
    (hrevision : old.work.revision = new.work.revision) : old = new := by
  rcases h.recorded.versions.related hold hnew hname with rfl | hfollows | hfollows
  · rfl
  · have hlt := hfollows.revision
    omega
  · have hlt := hfollows.revision
    omega

theorem Tracks.reconcile (h : Tracks sessionId host) (occasion : Occasion)
    {plan : ReconciliationPlan} (hcontrol : host.control = some (.reconciling plan))
    (proof : Option WorkStatus) :
    Tracks sessionId (host.reconcile sessionId occasion plan proof).1 := by
  have hended : Tracks sessionId { host with control := none } := h.idle rfl
  unfold WorkHost.reconcile
  dsimp only
  split
  · exact hended
  · rename_i status
    split
    · exact hended
    · rename_i state hunchanged
      rcases Option.filter_eq_some_iff.mp hunchanged with ⟨hstate, hsame⟩
      split
      · exact hended
      · rename_i hvalid
        unfold unchanged at hsame
        simp only [Bool.and_eq_true] at hsame
        rcases (Option.any_eq_true _ _).mp hsame.1.1 with ⟨current, hitem, hrevision⟩
        rw [beq_iff_eq] at hrevision
        have hrecorded : Recorded (some state) host.turns host.commits := hstate ▸ h.recorded
        -- the record that the adapter was shown is still the stored one
        have hcurrent : current = plan.work := by
          have hsnapshot : host.snapshot? = some plan.work := by
            unfold snapshot?
            rw [hcontrol]
          rcases h.snapshot plan.work hsnapshot with ⟨-, shown, hshown, hwork⟩
          rcases hrecorded.item hitem with ⟨last, hlatest, -, hlast⟩
          rcases latest_mem hlatest with ⟨hmem, hname⟩
          have hcommit : last = shown := by
            apply h.same_revision hmem hshown
            · rw [hname, ← hwork]
              rfl
            · rw [hlast, hwork, hrevision]
          rw [← hlast, ← hwork, hcommit]
        have hactive : isNativeWorkTerminal plan.work.status = false := by
          have hsnapshot : host.snapshot? = some plan.work := by
            unfold snapshot?
            rw [hcontrol]
          exact (h.snapshot plan.work hsnapshot).1
        have hdone : isNativeWorkTerminal status = true := by
          have hresponse : (workResult plan.commandId sessionId (.reconcile plan.work.workId
              (plan.work.revision + 1) status)).valid host.manager.runtime.schemas = true := by
            simpa using hvalid
          unfold ConversationResult.valid at hresponse
          simp only [Bool.and_eq_true] at hresponse
          have hwork := hresponse.1.1.1.1.1.1.2
          unfold workResult optionally at hwork
          simp only [WorkResult.valid, Bool.and_eq_true] at hwork
          exact hwork.2
        rw [hcurrent] at hitem
        refine hended.controlled hstate hitem ?_ ?_ ?_ (fun _ => ?_) occasion
        · refine ⟨rfl, rfl, Int.lt_succ _, fun hterminal => ?_⟩
          rw [hactive] at hterminal
          cases hterminal
        · rfl
        · rfl
        · exact Or.inl hdone

theorem Tracks.admitTurn (h : Tracks sessionId host) (turnId : String) :
    Tracks sessionId (host.admitTurn sessionId turnId) := by
  unfold WorkHost.admitTurn
  split
  · rename_i hadmitted
    rcases (Option.any_eq_true _ _).mp hadmitted with ⟨session, hsession, -⟩
    have hadded : (host.updateSession sessionId fun session =>
        { session with turnIds := session.turnIds ++ [turnId] }).session? sessionId =
          some { session with turnIds := session.turnIds ++ [turnId] } := by
      rw [updateSession_session?, hsession]
      rfl
    have hrest : ∀ change, (host.updateSession sessionId change).work? sessionId =
        host.work? sessionId ∧ (host.updateSession sessionId change).commits = host.commits ∧
        (host.updateSession sessionId change).snapshot? = host.snapshot? := by
      intro change
      unfold updateSession
      split <;> exact ⟨rfl, rfl, rfl⟩
    generalize hupdated : (host.updateSession sessionId fun session =>
      { session with turnIds := session.turnIds ++ [turnId] }) = updated at hadded
    have hsame := hrest fun session => { session with turnIds := session.turnIds ++ [turnId] }
    rw [hupdated] at hsame
    rcases hsame with ⟨hwork, hcommits, hsnapshot⟩
    constructor
    · change Recorded (updated.work? sessionId) (host.turns ++ [turnId]) updated.commits
      rw [hwork, hcommits]
      exact { h.recorded with
        origins := fun commit hmem => List.mem_append_left _ (h.recorded.origins commit hmem) }
    · intro id hid
      change id ∈ host.turns ++ [turnId]
      change id ∈ (updated.session? sessionId).elim [] LiveSession.turnIds at hid
      rw [hadded, Option.elim_some] at hid
      rcases List.mem_append.mp hid with hold | hnew
      · apply List.mem_append_left
        apply h.turnIds
        unfold WorkHost.turnIds
        rw [hsession]
        exact hold
      · exact List.mem_append_right _ hnew
    · change ∀ work ∈ updated.snapshot?, _ ∧ ∃ commit ∈ updated.commits, _
      rw [hsnapshot, hcommits]
      exact h.snapshot
    · change Throughout OwnedChange updated.commits
      rw [hcommits]
      exact h.owners
  · exact h

theorem Tracks.startSession (h : Tracks sessionId host) (session : LiveSession) :
    Tracks sessionId (host.startSession sessionId session) where
  recorded := { h.recorded with
    origins := fun commit hmem => List.mem_append_left _ (h.recorded.origins commit hmem) }
  turnIds turnId hmem := by
    have hsession : (host.startSession sessionId session).session? sessionId = some session :=
      Dict.get?_set_self _ _ _
    unfold WorkHost.turnIds at hmem
    rw [hsession] at hmem
    exact List.mem_append_right _ hmem
  snapshot work hwork := by
    apply h.snapshot work
    unfold snapshot? WorkHost.startSession at hwork
    unfold snapshot?
    dsimp only at hwork
    cases hcontrol : host.control with
    | none =>
      rw [hcontrol] at hwork
      exact hwork
    | some control =>
      rw [hcontrol] at hwork
      cases control <;> exact hwork
  owners := h.owners

theorem saveNativeWorkState_after {runtime : Runtime} {moment : Moment} (store : RunnerStore)
    (input : NativeWorkState) (event : Option HarnessEvent) :
    (store.saveNativeWorkState runtime moment sessionId input event).state.data.nativeWork.get?
        sessionId = store.data.nativeWork.get? sessionId ∨
      (store.saveNativeWorkState runtime moment sessionId input event).state.data.nativeWork.get?
        sessionId = some input.kept := by
  have hrecords : RecordsAfter runtime moment store (.saveNativeWorkState sessionId input event) _ :=
    store.saveNativeWorkState_records sessionId input event
  rcases hrecords with ⟨hsame, -⟩ | ⟨hreturned, -⟩
  · exact Or.inl (hsame.work sessionId)
  · right
    rw [(RunnerStore.saveNativeWorkState_saved hreturned).2, Dict.get?_set_self]

theorem get?_of_size_zero {α : Type} {d : Dict String α} (h : d.size = 0) (id : String) :
    d.get? id = none := by
  rw [Dict.size_eq_length_keys, List.length_eq_zero_iff] at h
  rw [Dict.get?_eq_none_iff, h]
  exact List.not_mem_nil

theorem Tracks.stored (h : Tracks sessionId host) (moment : Moment) {action : StoreAction}
    (hkeeps : host.keepsWork sessionId action = true) :
    Tracks sessionId { host with
      store := (host.store.perform host.manager.runtime moment action).state } := by
  have hwork : WorkAfter host.manager.runtime (host.work? sessionId) sessionId action _ :=
    host.store.perform_work moment action sessionId
  refine ⟨?_, h.turnIds, h.snapshot, h.owners⟩
  change Recorded ((host.store.perform host.manager.runtime moment action).state.data.nativeWork.get?
    sessionId) host.turns host.commits
  generalize hafter : (host.store.perform host.manager.runtime moment
    action).state.data.nativeWork.get? sessionId = after at hwork
  cases hwork with
  | same => exact h.recorded
  | @saved input state event bindings =>
    rw [← hafter]
    rcases saveNativeWorkState_after host.store input event with hsame | hsaved
    · exact hsame ▸ h.recorded
    · have hitems : input.items = (host.work? sessionId).elim Dict.empty NativeWorkState.items ∧
          input.retired =
            (host.work? sessionId).elim Dict.empty NativeWorkState.retired := by
        unfold keepsWork at hkeeps
        simpa using hkeeps
      have hbound : ∀ (field : NativeWorkState → Dict String NativeWorkRecord) (id : String),
          ((host.work? sessionId).elim Dict.empty field).get? id =
            (host.work? sessionId).bind fun state => (field state).get? id := by
        intro field id
        cases host.work? sessionId <;> rfl
      have hsame : Recorded (some input.kept) host.turns host.commits := by
        refine h.recorded.congr (fun id => ?_) fun id => ?_
        · exact (congrArg (Dict.get? · id) hitems.1).trans (hbound _ id)
        · exact (congrArg (Dict.get? · id) hitems.2).trans (hbound _ id)
      exact hsaved ▸ hsame
  | @removed old stored empty =>
    unfold NativeWorkState.removable at empty
    simp only [Bool.and_eq_true, beq_iff_eq] at empty
    have hrecorded := h.recorded
    rw [stored] at hrecorded
    refine hrecorded.congr (fun id => ?_) fun id => ?_
    · exact (get?_of_size_zero empty.1.1.1.1.1.1.2 id).symm
    · exact (get?_of_size_zero empty.1.1.1.1.1.2 id).symm
  | @rebound key commandId result event work stored bindingHash =>
    have hrecorded := h.recorded
    rw [stored] at hrecorded
    exact hrecorded.congr (fun _ => rfl) fun _ => rfl

/-! ## Runs -/

/-- Where the owner of a work is lost, no cancellation of it is acknowledged that was confirmed
before the loss, unless the work has ended or is unknown. -/
def AcknowledgedByOwner (sessionId : String) (host : WorkHost) (action : WorkAction) : Prop :=
  (match action with
    | .cancelContinued _ => host.owned sessionId || (host.confirmed? sessionId).all fun work =>
      isNativeWorkTerminal work.status || work.status == .unknown
    | _ => true) = true

theorem Tracks.queued (h : Tracks sessionId host) {operation : WorkHost → WorkHost}
    (hoperation : Tracks sessionId (operation host)) :
    Tracks sessionId (host.queued operation) := by
  unfold WorkHost.queued
  split
  · exact h
  · exact hoperation

theorem Tracks.step (h : Tracks sessionId host) (action : WorkAction)
    (hacknowledged : AcknowledgedByOwner sessionId host action) :
    Tracks sessionId (host.step sessionId action) := by
  cases action with
  | turnAdmitted turnId => exact h.admitTurn turnId
  | observed occasion turnId observation custody => exact h.observe occasion turnId observation custody
  | ownerLost occasion turnId data => exact h.loseOwner occasion turnId data
  | stopping =>
    unfold WorkHost.step
    refine h.queued ?_
    exact h.same (release_same _ host)
  | ended =>
    unfold WorkHost.step
    refine h.queued ?_
    refine ⟨h.recorded, fun turnId hmem => ?_, h.snapshot, h.owners⟩
    have hnone : (host.manager.sessions.erase sessionId).get? sessionId = none :=
      Dict.get?_erase_self _ _
    unfold WorkHost.turnIds session? at hmem
    dsimp only at hmem
    rw [hnone] at hmem
    cases hmem
  | started session => exact h.startSession session
  | retired occasion commandId operation =>
    unfold WorkHost.step
    refine h.queued ?_
    exact h.retire occasion commandId operation
  | cancelRequested occasion commandId operation =>
    unfold WorkHost.step
    refine h.queued ?_
    exact h.requestCancel occasion commandId operation
  | cancelDispatched published =>
    unfold WorkHost.step
    dsimp only
    split
    · exact h.dispatchCancel published _ _
    · exact h
  | cancelSettled fulfilled =>
    unfold WorkHost.step
    dsimp only
    split
    · exact h.idle rfl
    · exact h
  | cancelContinued occasion =>
    unfold WorkHost.step
    dsimp only
    split
    · rename_i cancellation hcontrol
      refine h.acknowledgeCancel occasion hcontrol fun hlost work hwork => ?_
      unfold AcknowledgedByOwner at hacknowledged
      dsimp only at hacknowledged
      rw [hlost, Bool.false_or, Option.mem_def.mp hwork, Option.all_some, Bool.or_eq_true,
        beq_iff_eq] at hacknowledged
      exact hacknowledged
    · exact h
  | reconcileRequested commandId operation =>
    unfold WorkHost.step
    refine h.queued ?_
    exact h.requestReconciliation commandId operation
  | reconcileContinued occasion proof =>
    unfold WorkHost.step
    dsimp only
    split
    · rename_i plan hcontrol
      exact h.reconcile occasion hcontrol proof
    · exact h
  | stored moment action =>
    unfold WorkHost.step
    dsimp only
    split
    · rename_i hkeeps
      exact h.stored moment hkeeps
    · exact h

variable (sessionId) in
/-- A session that has not been started, without work. -/
structure Unstarted (host : WorkHost) : Prop where
  session : host.session? sessionId = none
  work : host.work? sessionId = none
  control : host.control = none
  commits : host.commits = []

theorem Unstarted.tracks (h : Unstarted sessionId host) : Tracks sessionId host := by
  rcases h with ⟨hsession, hwork, hcontrol, hcommits⟩
  constructor
  · rw [hwork, hcommits]
    exact Recorded.empty host.turns
  · intro turnId hmem
    unfold WorkHost.turnIds at hmem
    rw [hsession, Option.elim_none] at hmem
    cases hmem
  · intro work hmem
    unfold snapshot? at hmem
    rw [hcontrol] at hmem
    cases hmem
  · rw [hcommits]
    exact Throughout.nil _

variable (sessionId) in
/-- What holds of the work of a session in every state of a run. -/
structure Lawful (host : WorkHost) : Prop where
  /-- The changes of a work keep its execution and raise its revision; a terminal status stays, and
  nothing follows a retirement. -/
  versions : Versioned WorkCommit.workId WorkCommit.FollowedBy host.commits
  /-- The store has the last change of each work, as an item or as a tombstone. -/
  items : ∀ id, ((host.work? sessionId).bind fun state => state.items.get? id) =
    ((latest WorkCommit.workId host.commits id).filter fun commit => !commit.retired).map
      WorkCommit.work
  retired : ∀ id, ((host.work? sessionId).bind fun state => state.retired.get? id) =
    ((latest WorkCommit.workId host.commits id).filter fun commit => commit.retired).map
      WorkCommit.tombstone
  disjoint : ∀ state, host.work? sessionId = some state → ∀ id,
    state.items.get? id = none ∨ state.retired.get? id = none
  /-- A retired work never comes back. -/
  gone : ∀ commit ∈ host.commits, commit.retired = true → ∀ state,
    host.work? sessionId = some state → state.items.get? commit.workId = none
  /-- The parent of a work was admitted before it, every origin is an admitted turn. -/
  parents : ParentsKnown WorkCommit.workId WorkCommit.parent host.commits
  origins : ∀ commit ∈ host.commits, commit.work.originTurnId ∈ host.turns
  acyclic : ∀ id, ¬Relation.TransGen (ParentIn WorkCommit.workId WorkCommit.parent host.commits)
    id id
  /-- Without a live owner no work is admitted, and none becomes or stays active. -/
  owners : Throughout OwnedChange host.commits

theorem Tracks.lawful (h : Tracks sessionId host) : Lawful sessionId host where
  versions := h.recorded.versions
  items := h.recorded.items
  retired := h.recorded.retired
  disjoint state hstate id := by
    have hrecorded : Recorded (some state) host.turns host.commits := hstate ▸ h.recorded
    cases hitem : state.items.get? id with
    | none => exact Or.inl rfl
    | some work => exact Or.inr (hrecorded.item_active hitem).2
  gone commit hmem hretired state hstate := by
    have hitems := h.recorded.items commit.workId
    rcases h.recorded.versions.latest hmem with ⟨last, hlatest, hcase⟩
    rw [hstate, Option.bind_some, hlatest, Option.filter_some] at hitems
    rcases hcase with rfl | hfollows
    · rw [hretired] at hitems
      exact hitems
    · rw [hfollows.unretired] at hretired
      cases hretired
  parents := h.recorded.parents
  origins := h.recorded.origins
  acyclic := h.recorded.parents.acyclic fun a ha b hb hname => by
    rcases h.recorded.versions.related ha hb hname with rfl | hfollows | hfollows
    · rfl
    · exact (congrArg WorkExecution.parentWorkId hfollows.execution).symm
    · exact congrArg WorkExecution.parentWorkId hfollows.execution
  owners := h.owners

/-- In every run that acknowledges a cancellation only with a live owner, or of work that is not
active, the work of the session is lawful in every state. -/
theorem work_lawful (host : WorkHost) (hunstarted : Unstarted sessionId host)
    (actions : List WorkAction)
    (hacknowledged : Meets (step sessionId) (AcknowledgedByOwner sessionId) host actions) :
    Always (step sessionId) (Lawful sessionId) host actions := by
  have htracks : Always (step sessionId) (Tracks sessionId) host actions :=
    always_of_meets (fun host action h hC => h.step action hC) hunstarted.tracks hacknowledged
  exact htracks.mono fun host h => h.lawful

instance (sessionId : String) (host : WorkHost) (action : WorkAction) :
    Decidable (AcknowledgedByOwner sessionId host action) :=
  inferInstanceAs (Decidable (_ = true))

/-! ## A run on given inputs -/

def workAdapter : Adapter where
  conversationOperations := []
  liveHistoryRead := false
  executionProfiles := [⟨"profile-1", false, false, none, false, false, false, false, false, false, false⟩]
  forkNativeWork := false
  cancelNativeWork := true
  controlNativeGoal := false
  submitNativeFeedback := false
  updateNativePolicy := false
  nativeWork := true
  sessionEvents := true

def workHost : WorkHost where
  manager := {
    runtime := plainRuntime
    workspaces := [⟨"workspace-1", "/workspace"⟩]
    inside := fun _ _ => .ok true
    providers := [⟨"provider-1", "driver", true, emptyHash⟩]
    adapter? := fun _ => some workAdapter
    sessions := Dict.empty }
  store := RunnerStore.fresh
  control := none
  turns := []
  commits := []

def workSession : LiveSession where
  startPayload := { plainStart with
    cwd := "/workspace", executionProfile := some "profile-1", continuationGroupKey := some "key-1" }
  adapter := workAdapter
  driverKind := "driver"
  nativeThreadId := some "thread-1"
  nativeWorkRootReference := none
  nativeBindingHash := some emptyHash
  currentBindingHash := emptyHash
  cancelRequested := false
  nativeWorkOwnerAvailable := some true
  nativeWorkClosureUnconfirmed := false
  nativeWorkStopping := false
  mcpDetaching := false
  policyControlling := false
  running := false
  liveWork := []
  turnIds := []

def runningWork : NativeWorkObservation where
  workId := "work-1"
  nativeReference := "thread-2"
  originTurnId := "turn-1"
  parentWorkId := none
  kind := .agent
  background := true
  status := .running
  supportsCancel := true

/-- The adapter confirms a cancellation, and the owner is lost before the operation goes on. -/
def lostAcknowledgement : List WorkAction :=
  [.stored ⟨0, true⟩ (.saveNativeWorkState "session-1" plainWorkState none),
    .started workSession,
    .turnAdmitted "turn-1",
    .observed ⟨⟨1, true⟩, true⟩ none runningWork none,
    .cancelRequested ⟨⟨2, true⟩, true⟩ "command-1" ⟨"work-1", 1⟩,
    .cancelDispatched true,
    .cancelSettled true,
    .ownerLost ⟨⟨3, true⟩, true⟩ none (.obj .nil),
    .cancelContinued ⟨⟨4, true⟩, true⟩]

theorem workHost_unstarted : Unstarted "session-1" workHost := ⟨rfl, rfl, rfl, rfl⟩

theorem work_lawful_until_lost :
    Always (step "session-1") (Lawful "session-1") workHost (lostAcknowledgement.take 8) :=
  work_lawful workHost workHost_unstarted _ (by decide +kernel)

/-- The acknowledgement is committed for work that is running without an owner. -/
theorem lost_acknowledgement_committed :
    Unstarted "session-1" workHost ∧
      ¬Always (step "session-1") (Lawful "session-1") workHost lostAcknowledgement := by
  refine ⟨workHost_unstarted, fun hlawful => ?_⟩
  have hcommit : ((run (step "session-1") workHost lostAcknowledgement).commits[2]?).map
      (fun commit => (commit.owned, commit.work.status)) = some (false, .running) := by
    decide +kernel
  rcases Option.map_eq_some_iff.mp hcommit with ⟨commit, hget, heq⟩
  have hparts := Prod.ext_iff.mp heq
  rcases (hlawful.last.owners 2 commit hget hparts.1).2 with hdone | hunknown
  · rw [show commit.work.status = .running from hparts.2] at hdone
    cases hdone
  · rw [show commit.work.status = .running from hparts.2] at hunknown
    cases hunknown

end WorkHost

end HarnessControl.Harnesses
