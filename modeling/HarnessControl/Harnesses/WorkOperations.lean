import HarnessControl.Harnesses.WorkObservation
import HarnessControl.Library.Lineage

/-!
# Operations on the native work of a session

The operations of `#nativeWorkOperation` that change a work, with the events that they commit: a
work is retired at once, a cancellation is fenced, dispatched and acknowledged, a reconciliation
waits for the adapter's inspection.  Operations wait in one queue, so at most one is under way;
reports and the loss of the owner come in between.
-/

namespace HarnessControl.Harnesses

open HarnessControl.Library HarnessControl.Protocol HarnessControl.State

/-! ## Requests -/

structure RetireOperation where
  workId : String
  expectedRevision : Int

def RetireOperation.toJson (operation : RetireOperation) : Json :=
  .obj (JsonFields.ofList [("action", .str "retire"),
    ("expected_revision", .num operation.expectedRevision), ("kind", .str "work"),
    ("work_id", .str operation.workId)])

structure ReconcileOperation where
  workId : String
  expectedRevision : Int

def ReconcileOperation.toJson (operation : ReconcileOperation) : Json :=
  .arr (JsonList.ofList [.str operation.workId, .num operation.expectedRevision])

def workResult (commandId sessionId : String) (work : WorkResult) : ConversationResult where
  commandId
  sessionId
  operation := .work
  work := some work

/-! ## Checks -/

/-- The record that a cancellation or a retirement is about; the command is not that of another. -/
def Manager.controlledWork (manager : Manager) (store : RunnerStore)
    (commandId sessionId workId requestHash : String) :
    Except HarnessError (NativeWorkState × NativeWorkRecord) :=
  match manager.ownedWork store sessionId with
  | .error error => .error error
  | .ok (state, _) =>
    match state.items.get? workId with
    | none => .error ⟨"native_work_not_found", "Native work is not owned by this session."⟩
    | some work =>
      let prior := (state.items.values ++ state.retired.values).find? fun item =>
        item.control.any fun control => control.commandId == commandId
      if prior.any fun item => item.workId != work.workId ||
          !(item.control.any fun control => control.requestHash == requestHash) then
        .error ⟨"native_work_control_conflict",
          "This native-work command has different parameters."⟩
      else .ok (state, work)

def retireProblem (work : NativeWorkRecord) (operation : RetireOperation) : Option HarnessError :=
  firstError [
    errorIf (work.revision != operation.expectedRevision) "native_work_changed"
      "Read the current native-work revision before controlling it.",
    errorIf (!(isNativeWorkTerminal work.status)) "native_work_pending"
      "Only completed native work may be retired."]

/-- The live owner can cancel the work, under the binding that the work was admitted with. -/
def cancelProblem (session : Option LiveSession) (state : NativeWorkState)
    (work : NativeWorkRecord) : Option HarnessError :=
  firstError [
    errorIf (work.control.any fun control => control.phase == .pending)
      "native_work_cancel_unknown" "An earlier native cancellation requires reconciliation.",
    errorIf (!(work.supportsCancel && session.any fun session => session.ownsWork &&
        session.adapter.cancelNativeWork && session.liveWork.contains work.workId))
      "native_work_cancel_unsupported" "This work has no live native cancellation owner.",
    errorIf (session.any fun session =>
        session.currentBindingHash != state.scope.executionBindingHash)
      "native_work_binding" "The execution binding no longer owns this native work."]

/-- The answer of a cancellation that is not dispatched, or the failure of one. -/
def cancelAnswer (commandId : String) (operation : CancelOperation) (work : NativeWorkRecord) :
    Option (Except HarnessError WorkResult) :=
  if work.control.any fun control => control.commandId == commandId then
    if work.control.any fun control => control.phase == .accepted then
      some (.ok (.cancel work.workId false))
    else if isNativeWorkTerminal work.status then some (.ok (.cancel work.workId true))
    else some (.error ⟨"native_work_cancel_unknown",
      "The earlier native cancellation has no confirmed outcome and will not be repeated."⟩)
  else if work.revision ≠ operation.expectedRevision then
    some (.error ⟨"native_work_changed",
      "Read the current native-work revision before controlling it."⟩)
  else if isNativeWorkTerminal work.status then some (.ok (.cancel work.workId true))
  else none

structure ReconciliationPlan where
  commandId : String
  requestHash : String
  work : NativeWorkRecord
  custody : NativeWorkCustody

/-- The conversation of the session is still that of the work's configuration. -/
def sameConversation (store : RunnerStore) (sessionId : String) (scope : WorkScope) : Bool :=
  let conversation := match scope.conversationKey with
    | some key => store.data.nativeConversations.get? key
    | none => (store.nativeConversationForSession sessionId).map Prod.snd
  conversation.all fun conversation => NativeConversation.sameScope conversation scope &&
    conversation.providerInstanceId == scope.providerInstanceId

def reconcileProblem (store : RunnerStore) (sessionId : String) (owned : Bool)
    (operation : ReconcileOperation) (state : NativeWorkState) (work : NativeWorkRecord)
    (adapter : Adapter) : Option HarnessError :=
  let custody := state.custody.get? work.workId
  let profile := adapter.profile? state.scope.executionProfile
  firstError [
    errorIf owned "native_work_owner_active" "Reconciliation requires a lost physical owner.",
    errorIf (work.revision != operation.expectedRevision) "native_work_changed"
      "Read the current child revision before reconciliation.",
    errorIf (isNativeWorkTerminal work.status) "native_work_terminal"
      "The retained child already has terminal proof.",
    errorIf (!((custody.any fun proof => proof.nativeExecutionReference.isSome) &&
        adapter.reconcileNativeWork && profile.any (·.nativeWorkTerminalReconciliation)))
      "native_work_reconciliation_unavailable"
      "The child lacks a declared native terminal inspection and durable execution admission.",
    errorIf (decide (1024 ≤ state.reconciliations.length)) "native_work_receipt_limit"
      "Native reconciliation receipt capacity exceeded.",
    errorIf (!(sameConversation store sessionId state.scope)) "native_work_binding"
      "Reconciliation belongs to the original execution configuration."]

/-- The checks of a reconciliation before the adapter inspects the child. -/
def Manager.admitReconciliation (manager : Manager) (store : RunnerStore) (owned : Bool)
    (commandId sessionId : String) (operation : ReconcileOperation) :
    Admission ReconciliationPlan :=
  match manager.ownedWork store sessionId with
  | .error error => .refused error
  | .ok (state, provider) =>
    let requestHash := manager.hash operation.toJson
    let prior := state.reconciliations.find? fun receipt => receipt.commandId == commandId
    -- a retired child is found again only by the command that reconciled it
    match (state.items.get? operation.workId).or
        (if prior.isSome then state.retired.get? operation.workId else none), prior with
    | none, _ => .refused ⟨"native_work_not_found", "Native work is not owned by this session."⟩
    | some _, some receipt =>
      if receipt.requestHash ≠ requestHash then
        .refused ⟨"command_conflict",
          "The original reconciliation has different parameters."⟩
      else .answered receipt.result
    | some work, none =>
      match manager.requireAdapter provider.driverKind with
      | .error error => .refused error
      | .ok adapter =>
        match reconcileProblem store sessionId owned operation state work adapter,
            state.custody.get? work.workId with
        | none, some custody => .admitted ⟨commandId, requestHash, work, custody⟩
        | some error, _ => .refused error
        | none, none => .refused ⟨"native_work_reconciliation_unavailable",
          "The child lacks a declared native terminal inspection and durable " ++
            "execution admission."⟩

/-! ## The session's host -/

/-- A committed change of a work: the record that its event shows, and whether the work had a
live owner. -/
structure WorkCommit where
  work : NativeWorkRecord
  retired : Bool
  owned : Bool
deriving DecidableEq

def WorkCommit.workId (commit : WorkCommit) : String := commit.work.workId

def WorkCommit.parent (commit : WorkCommit) : Option String := commit.work.parentWorkId

/-- A cancellation that was dispatched: how its promise has settled, and whether the loss of the
session's owner still aborts it. -/
structure Cancellation where
  commandId : String
  workId : String
  settled : Option Bool
  attached : Bool

/-- The operation that is under way. -/
inductive WorkControl where
  /-- The fence of a cancellation is committed and its event published. -/
  | fenced (commandId workId : String)
  | cancelling (cancellation : Cancellation)
  | reconciling (plan : ReconciliationPlan)

/-- The manager and its store as one session uses them.  The run remembers every turn that the
session has admitted and every change of its work that was committed. -/
structure WorkHost where
  manager : Manager
  store : RunnerStore
  control : Option WorkControl
  turns : List String
  commits : List WorkCommit

/-- The time of an event, and whether the publication queue admits it. -/
structure Occasion where
  moment : Moment
  admitted : Bool

namespace WorkHost

variable (sessionId : String)

def session? (host : WorkHost) : Option LiveSession := host.manager.sessions.get? sessionId

def work? (host : WorkHost) : Option NativeWorkState := host.store.data.nativeWork.get? sessionId

def owned (host : WorkHost) : Bool := (host.session? sessionId).any LiveSession.ownsWork

def updateSession (change : LiveSession → LiveSession) (host : WorkHost) : WorkHost :=
  match host.session? sessionId with
  | none => host
  | some session =>
    { host with manager := { host.manager with
        sessions := host.manager.sessions.set sessionId (change session) } }

def backpressure : OperationFailure := .thrown ⟨"event_publication_backpressure",
  "Reentrant event observations exceeded their bounded publication queue."⟩

/-- The end of `#event` for a work state: it is saved together with its event. -/
def commitState (occasion : Occasion) (turnId : Option String) (eventType : String) (data : Json)
    (state : NativeWorkState) (commit : Option WorkCommit) (host : WorkHost) :
    WorkHost × Option OperationFailure :=
  if !occasion.admitted then (host, some backpressure)
  else
    let event := nextEvent host.store occasion.moment.now sessionId turnId eventType data
    let attempt := host.store.saveNativeWorkState host.manager.runtime occasion.moment sessionId
      state (some event)
    match attempt.failure with
    | some failure => ({ host with store := attempt.state }, some (.store failure))
    | none =>
      ({ host with store := attempt.state, commits := host.commits ++ commit.toList }, none)

/-- `#event` of `native.work.updated`. -/
def commitUpdate (occasion : Occasion) (turnId : Option String) (state : NativeWorkState)
    (work : NativeWorkRecord) (host : WorkHost) : WorkHost × Option OperationFailure :=
  let committed := host.commitState sessionId occasion turnId "native.work.updated"
    (updatedData work) state (some ⟨work, false, host.owned sessionId⟩)
  match committed.2 with
  | some failure => (committed.1, some failure)
  | none => (committed.1.updateSession sessionId fun session =>
    { session with liveWork := session.liveWork.insert work.workId }, none)

/-- A report of the adapter. -/
def observe (occasion : Occasion) (turnId : Option String) (observation : NativeWorkObservation)
    (custody : Option NativeWorkCustody) (host : WorkHost) :
    WorkHost × Option OperationFailure :=
  if !occasion.admitted then (host, some backpressure)
  else
    match observeWork host.manager.runtime.schemas (host.session? sessionId)
        (host.work? sessionId) turnId observation custody with
    | .error failure => (host, some failure)
    | .ok (state, work) => host.commitUpdate sessionId occasion turnId state work

/-! ## Loss of the owner -/

/-- `nativeWorkCancellation?.abort()`: a promise that has not settled is rejected. -/
def abort (host : WorkHost) : WorkHost :=
  match host.control with
  | some (.cancelling cancellation) =>
    { host with control := some (.cancelling { cancellation with
        settled := cancellation.settled.or
          (if cancellation.attached then some false else none) }) }
  | _ => host

/-- The physical owner is gone: controls are fenced whether or not the loss can be recorded. -/
def release (stopping : LiveSession → Bool) (host : WorkHost) : WorkHost :=
  (host.updateSession sessionId fun session => { session with
    nativeWorkOwnerAvailable := some false, nativeWorkStopping := stopping session }).abort

/-- `{...fields, [key]: value}`. -/
def assignField (key : String) (value : Json) : JsonFields → JsonFields
  | .nil => .cons key value .nil
  | .cons first found rest =>
    if first = key then .cons key value rest else .cons first found (assignField key value rest)

/-- `{...data, closure_unconfirmed: true}`. -/
def closureData : Json → Json
  | .obj fields => .obj (assignField "closure_unconfirmed" (.bool true) fields)
  | other => other

/-- `#event` of `native.work.owner_lost`. -/
def loseOwner (occasion : Occasion) (turnId : Option String) (data : Json) (host : WorkHost) :
    WorkHost × Option OperationFailure :=
  if (turnId.any (· != "")) ||
      !((host.session? sessionId).any fun session => session.adapter.nativeWork) then
    (host, some (.thrown ⟨"native_work_unsupported",
      "Native owner loss requires its session-owned native-work contract."⟩))
  else if !(HarnessEvent.valid host.manager.runtime.schemas
      ⟨sessionId, none, 1, "native.work.owner_lost", occasion.moment.now, data⟩) then
    (host, some (.store .invalid))
  else
    let lost := host.release sessionId fun _ => false
    let work := lost.work? sessionId
    if data.field? "closure_unconfirmed" = some (.bool true) ∨
        unresolvedNativeAdmissions work = true then
      let uncertain := lost.updateSession sessionId fun session =>
        { session with nativeWorkClosureUnconfirmed := true }
      match work with
      | none => (uncertain, some (.thrown ⟨"native_work_unavailable",
        "Native closure uncertainty requires its owning inventory."⟩))
      | some state =>
        uncertain.commitState sessionId occasion none "native.work.owner_lost" (closureData data)
          { state with closureUnconfirmed := true } none
    else if !occasion.admitted then (lost, some backpressure)
    else
      let attempt := lost.store.appendEvent lost.manager.runtime.options occasion.moment
        (nextEvent lost.store occasion.moment.now sessionId none "native.work.owner_lost" data)
      ({ lost with store := attempt.state }, attempt.failure.map .store)

/-! ## Retirement -/

def retire (occasion : Occasion) (commandId : String) (operation : RetireOperation)
    (host : WorkHost) : WorkHost × Except OperationFailure ConversationResult :=
  match host.manager.controlledWork host.store commandId sessionId operation.workId
      (host.manager.hash operation.toJson) with
  | .error error => (host, .error (.thrown error))
  | .ok (state, work) =>
    match retireProblem work operation with
    | some error => (host, .error (.thrown error))
    | none =>
      let next := { state with
        items := state.items.erase work.workId,
        retired := state.retired.set work.workId work }
      let committed := host.commitState sessionId occasion none "native.work.retired"
        (retiredData work) next
        (some ⟨{ work with revision := work.revision + 1 }, true, host.owned sessionId⟩)
      match committed.2 with
      | some failure => (committed.1, .error failure)
      | none =>
        (committed.1.updateSession sessionId fun session =>
          { session with liveWork := session.liveWork.erase work.workId },
          .ok (workResult commandId sessionId (.retire work.workId)))

/-! ## Cancellation -/

/-- A reply ends the operation; without one it goes on. -/
abbrev Reply := Option (Except OperationFailure ConversationResult)

def requestCancel (occasion : Occasion) (commandId : String) (operation : CancelOperation)
    (host : WorkHost) : WorkHost × Reply :=
  let requestHash := host.manager.hash operation.toJson
  match host.manager.controlledWork host.store commandId sessionId operation.workId requestHash with
  | .error error => (host, some (.error (.thrown error)))
  | .ok (state, work) =>
    match cancelAnswer commandId operation work with
    | some (.error error) => (host, some (.error (.thrown error)))
    | some (.ok result) => (host, some (.ok (workResult commandId sessionId result)))
    | none =>
      match cancelProblem (host.session? sessionId) state work with
      | some error => (host, some (.error (.thrown error)))
      | none =>
        let fence := { work with
          revision := work.revision + 1,
          control := some ⟨commandId, requestHash, .pending⟩ }
        let committed := host.commitUpdate sessionId occasion none
          { state with items := state.items.set work.workId fence } fence
        match committed.2 with
        | some failure => (committed.1, some (.error failure))
        | none =>
          ({ committed.1 with control := some (.fenced commandId work.workId) }, none)

/-- After the publication of the fence: the adapter is asked to cancel, or the operation ends. -/
def dispatchCancel (published : Bool) (commandId workId : String) (host : WorkHost) :
    WorkHost × Reply :=
  let ended := { host with control := none }
  if !published then (ended, some (.error backpressure))
  else
    match (host.work? sessionId).bind fun state => state.items.get? workId with
    | none => (ended, some (.error (.store .invalid)))
    | some work =>
      if isNativeWorkTerminal work.status then
        (ended, some (.ok (workResult commandId sessionId (.cancel workId true))))
      else if !(host.owned sessionId) then
        (ended, some (.error (.thrown ⟨"native_work_cancel_unknown",
          "Native ownership was lost before cancellation dispatch; " ++
            "reconcile retained observations."⟩)))
      else ({ host with control := some (.cancelling ⟨commandId, workId, none, true⟩) }, none)

/-- What follows the race of the adapter's promise with its abort. -/
def acknowledgeCancel (occasion : Occasion) (cancellation : Cancellation) (host : WorkHost) :
    WorkHost × Reply :=
  match cancellation.settled with
  | none => (host, none)
  | some false => ({ host with control := none }, some (.error (.thrown
    ⟨"native_work_cancel_unknown", "Native cancellation has an unknown outcome; " ++
      "reconcile observations before trying again."⟩)))
  | some true =>
    let ended := { host with control := none }
    match host.work? sessionId with
    | none => (ended, some (.error (.store .invalid)))
    | some state =>
      match state.items.get? cancellation.workId with
      | none => (ended, some (.error (.store .invalid)))
      | some work =>
        match work.control with
        | none => (ended, some (.error (.store .invalid)))
        | some control =>
          let accepted := { work with
            revision := work.revision + 1,
            control := some { control with phase := .accepted } }
          let committed := ended.commitUpdate sessionId occasion none
            { state with items := state.items.set cancellation.workId accepted } accepted
          (committed.1, some (match committed.2 with
            | some failure => .error failure
            | none => .ok (workResult cancellation.commandId sessionId
              (.cancel cancellation.workId false))))

/-! ## Reconciliation -/

def requestReconciliation (commandId : String) (operation : ReconcileOperation)
    (host : WorkHost) : WorkHost × Reply :=
  match host.manager.admitReconciliation host.store (host.owned sessionId) commandId sessionId
      operation with
  | .refused error => (host, some (.error (.thrown error)))
  | .answered result => (host, some (.ok result))
  | .admitted plan => ({ host with control := some (.reconciling plan) }, none)

/-- The child, its custody and its lack of an owner are as they were read. -/
def unchanged (plan : ReconciliationPlan) (state : NativeWorkState) (host : WorkHost) : Bool :=
  ((state.items.get? plan.work.workId).any fun work => work.revision == plan.work.revision) &&
  state.custody.get? plan.work.workId == some plan.custody && !(host.owned sessionId)

/-- What follows the adapter's inspection, `none` where it failed. -/
def reconcile (occasion : Occasion) (plan : ReconciliationPlan) (proof : Option WorkStatus)
    (host : WorkHost) : WorkHost × Reply :=
  let ended := { host with control := none }
  match proof with
  | none => (ended, some (.error (.thrown ⟨"native_work_reconciliation_timeout",
    "Native terminal inspection exceeded its deadline."⟩)))
  | some status =>
    match (host.work? sessionId).filter fun state => host.unchanged sessionId plan state with
    | none => (ended, some (.error (.thrown ⟨"native_work_changed",
      "Child custody or ownership changed during reconciliation."⟩)))
    | some state =>
      let response := workResult plan.commandId sessionId
        (.reconcile plan.work.workId (plan.work.revision + 1) status)
      if !(response.valid host.manager.runtime.schemas) then
        (ended, some (.error (.store .invalid)))
      else
        let work := { plan.work with
          revision := plan.work.revision + 1, status, supportsCancel := false }
        let committed := ended.commitUpdate sessionId occasion none { state with
          items := state.items.set plan.work.workId work,
          closureUnconfirmed := true,
          reconciliations := state.reconciliations ++
            [⟨plan.commandId, plan.requestHash, response⟩] } work
        (committed.1, some (match committed.2 with
          | some failure => .error failure
          | none => .ok response))

end WorkHost

end HarnessControl.Harnesses
