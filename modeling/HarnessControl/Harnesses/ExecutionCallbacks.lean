import HarnessControl.Harnesses.WorkOperations

/-!
# Goals and executions of a turn

The callbacks that `#runTurn` hands to the adapter with a turn.  An execution is begun, acknowledged
and completed; a goal is begun and confirmed.  A turn keeps a table of what it has begun, the ledger
of the session keeps the records, and the log shows the acknowledgements and the outcomes.
-/

namespace HarnessControl.Harnesses

open HarnessControl.Library HarnessControl.Protocol HarnessControl.State

/-! ## Goals -/

/-- `harnessNativeGoalRequestSchema`. -/
inductive GoalRequest where
  | start (objective : String) (tokenBudget : Option Int)
  | resume (expectedNativeCreatedAt : Int)
deriving DecidableEq

def GoalRequest.valid : GoalRequest → Bool
  | .start objective tokenBudget =>
    boundedText (128 * 1024) objective &&
    optionally (fun budget => counter budget && decide (0 < budget)) tokenBudget
  | .resume expectedNativeCreatedAt => counter expectedNativeCreatedAt

/-- `harnessNativeGoalRecordSchema`. -/
def GoalRecord.valid (goal : GoalRecord) : Bool :=
  identity goal.admissionId && identity goal.originTurnId && goal.observation.valid

def GoalStatus.text : GoalStatus → String
  | .active => "active"
  | .paused => "paused"
  | .blocked => "blocked"
  | .usageLimited => "usage_limited"
  | .budgetLimited => "budget_limited"
  | .complete => "complete"

/-- The data of `native.goal.updated`. -/
def GoalRecord.toJson (goal : GoalRecord) : Json :=
  .obj (JsonFields.ofList ([("source", .str "native"), ("scope", .str "root"),
    ("admission_id", .str goal.admissionId), ("origin_turn_id", .str goal.originTurnId),
    ("native_reference", .str goal.observation.nativeReference),
    ("native_created_at", .num goal.observation.nativeCreatedAt),
    ("native_updated_at", .num goal.observation.nativeUpdatedAt),
    ("objective", .str goal.observation.objective),
    ("status", .str (GoalStatus.text goal.observation.status)),
    ("tokens_used", .num goal.observation.tokensUsed),
    ("time_used_seconds", .num goal.observation.timeUsedSeconds)] ++
    optionalField "token_budget" Json.num goal.observation.tokenBudget))

/-! ## Events of an execution -/

def TerminalStatus.text : TerminalStatus → String
  | .completed => "completed"
  | .interrupted => "interrupted"
  | .failed => "failed"

/-- The data of `native.execution.admitted`. -/
def admittedData (admission reference execution : String) (goal : Option String) : Json :=
  .obj (JsonFields.ofList ([("source", .str "native"), ("scope", .str "root"),
    ("admission_id", .str admission), ("native_reference", .str reference),
    ("native_execution_reference", .str execution)] ++ textField "goal_admission_id" goal))

/-- The data of `native.execution.completed`. -/
def completedData (admission reference execution : String) (status : TerminalStatus)
    (goal : Option String) (output : Option Json) : Json :=
  .obj (JsonFields.ofList ([("source", .str "native"), ("scope", .str "root"),
    ("admission_id", .str admission), ("native_reference", .str reference),
    ("native_execution_reference", .str execution),
    ("status", .str (TerminalStatus.text status))] ++
    textField "goal_admission_id" goal ++ optionalField "final_output" id output))

/-! ## A turn and its owner -/

/-- A session object, with the provider hash of its input file scope. -/
structure SessionOwner where
  session : LiveSession
  providerBindingHash : String

/-- `native_work_root_reference ?? native_thread_id`. -/
def SessionOwner.root? (owner : SessionOwner) : Option String :=
  owner.session.nativeWorkRootReference.or owner.session.nativeThreadId

/-- An entry of `nativeAdmissions`. -/
structure TurnAdmission where
  reference : String
  execution : Option String
  goal : Option String

structure TurnCallbacks where
  turnId : String
  /-- `payload.goal`. -/
  goal : Option GoalRequest
  /-- The session object that dispatched the turn. -/
  owner : Nat
  admissions : Dict String TurnAdmission
  goals : List String
  /-- Acknowledgements with their executions, whose event is committed and not yet delivered. -/
  delivering : List (String × String)

def ownerUnavailable : HarnessError := ⟨"native_execution_owner_unavailable",
  "Native execution admission requires its original live owner."⟩

/-- `requireProvider` still finds the provider that the session was started with. -/
def SessionOwner.providerProblem (manager : Manager) (owner : SessionOwner)
    (changed : HarnessError) : Option HarnessError :=
  match manager.requireProvider owner.session.startPayload.providerInstanceId with
  | .error error => some error
  | .ok provider => if provider.hash = owner.providerBindingHash then none else some changed

/-- `assertExecutionOwner`; the session object may be live or not. -/
def SessionOwner.problem (manager : Manager) (live observed : Bool) (owner : SessionOwner) :
    Option HarnessError :=
  if !live || owner.session.nativeWorkOwnerAvailable == some false &&
      !(observed && owner.session.nativeWorkStopping) ||
      owner.session.cancelRequested && !observed then
    some ownerUnavailable
  else owner.providerProblem manager ownerUnavailable

/-! ## Changes of the ledger -/

def NativeWorkState.root? (state : NativeWorkState) (admission : String) : Option RootExecution :=
  state.rootExecutions.find? fun value => value.admissionId == admission

def NativeWorkState.goal? (state : NativeWorkState) (admission : String) : Option GoalAdmission :=
  state.goals.find? fun value => value.admissionId == admission

def NativeWorkState.updateRoot (admission : String) (change : RootExecution → RootExecution)
    (state : NativeWorkState) : NativeWorkState :=
  { state with rootExecutions := state.rootExecutions.map fun value =>
      if value.admissionId = admission then change value else value }

def NativeWorkState.updateGoal (admission : String) (change : GoalAdmission → GoalAdmission)
    (state : NativeWorkState) : NativeWorkState :=
  { state with goals := state.goals.map fun value =>
      if value.admissionId = admission then change value else value }

def NativeWorkState.acknowledge (admission execution : String) (state : NativeWorkState) :
    NativeWorkState :=
  NativeWorkState.updateRoot admission
    (fun value => { value with nativeExecutionReference := some execution }) state

/-- The outcome of an execution. -/
def NativeWorkState.conclude (admission : String) (status : TerminalStatus)
    (state : NativeWorkState) : NativeWorkState :=
  NativeWorkState.updateRoot admission (fun value => { value with phaseStatus := some status }) state

def NativeWorkState.confirmGoal (goal : GoalRecord) (state : NativeWorkState) : NativeWorkState :=
  NativeWorkState.updateGoal goal.admissionId
    (fun value => { value with phase := .confirmed, snapshot := some goal }) state

/-- Objective and budget of the goal that is admitted; a resumed goal keeps its own. -/
def GoalRequest.admission (goal : GoalRequest) (admission turnId reference : String)
    (observation : Option GoalObservation) : GoalAdmission :=
  let objective := match goal, observation with
    | .start objective _, _ => objective
    | .resume _, some observation => observation.objective
    | .resume _, none => ""
  let tokenBudget := match goal with
    | .start _ tokenBudget => tokenBudget
    | .resume _ => observation.bind (·.tokenBudget)
  { admissionId := admission
    originTurnId := turnId
    nativeReference := reference
    objective
    tokenBudget
    expectedNativeCreatedAt := match goal with
      | .start _ _ => none
      | .resume created => some created
    phase := .pending
    snapshot := none }

/-- The observation is of the inactive goal that is to be resumed; a new goal has none. -/
def GoalRequest.resumes (goal : GoalRequest) (reference : String)
    (observation : Option GoalObservation) : Bool :=
  match goal with
  | .start _ _ => observation.isNone
  | .resume created => observation.any fun observation =>
    observation.nativeReference == reference && observation.nativeCreatedAt == created &&
      observation.status != .active && observation.status != .complete

section Turn

variable (manager : Manager) (turn : TurnCallbacks) (owner : SessionOwner) (live : Bool)
  (ledger : Option NativeWorkState)

def SessionOwner.ownsGoals : Bool := owner.session.profile?.any (·.nativeGoals)

/-- The record of `beginNativeGoal`, with the ledger that it becomes part of. -/
def TurnCallbacks.beginGoal (nativeReference : String) (requested : GoalRequest)
    (resume : Option GoalObservation) (admission : String) :
    Except OperationFailure (NativeWorkState × GoalAdmission) :=
  match owner.problem manager live false with
  | some error => .error (.thrown error)
  | none =>
    if !requested.valid then .error (.store .invalid)
    else if turn.goal ≠ some requested ∨ owner.ownsGoals = false then
      .error (.thrown ⟨"native_goal_unsupported",
        "Native job admission requires this turn's explicit supported goal request."⟩)
    else if !(identity nativeReference) then .error (.store .invalid)
    else if some nativeReference ≠ owner.root? then
      .error (.thrown ⟨"native_goal_binding",
        "Native goal admission must belong to the confirmed root conversation."⟩)
    else
      match ledger with
      | none => .error (.thrown ⟨"native_goal_fence_missing",
        "Native goals require a durable execution ledger."⟩)
      | some state =>
        if !(optionally GoalObservation.valid resume) then .error (.store .invalid)
        else if !(requested.resumes nativeReference resume) then
          .error (.thrown ⟨"native_goal_binding",
            "Resume admission requires exact inactive native generation metadata."⟩)
        else .ok (state, requested.admission admission turn.turnId nativeReference resume)

def TurnCallbacks.ownsGoal (goal : GoalRecord) (admission : GoalAdmission) : Bool :=
  turn.goals.contains goal.admissionId && admission.originTurnId == turn.turnId &&
  goal.originTurnId == turn.turnId &&
  admission.nativeReference == goal.observation.nativeReference &&
  admission.objective == goal.observation.objective &&
  admission.tokenBudget == goal.observation.tokenBudget

/-- The ledger that `confirmNativeGoal` saves, or nothing where the snapshot is known. -/
def TurnCallbacks.confirmGoal (goal : GoalRecord) :
    Except OperationFailure (Option NativeWorkState) :=
  let unavailable : HarnessError := ⟨"native_goal_owner_unavailable",
    "The original native goal owner is no longer available."⟩
  let changed : HarnessError := ⟨"native_goal_binding",
    "Native goal evidence changed its durable admission."⟩
  if !(GoalRecord.valid goal) then .error (.store .invalid)
  else if !live || owner.session.nativeWorkOwnerAvailable == some false &&
      !owner.session.nativeWorkStopping then .error (.thrown unavailable)
  else
    match owner.providerProblem manager unavailable with
    | some error => .error (.thrown error)
    | none =>
      match ledger with
      | none => .error (.thrown changed)
      | some state =>
        match NativeWorkState.goal? state goal.admissionId with
        | none => .error (.thrown changed)
        | some admission =>
          if !(turn.ownsGoal goal admission) then .error (.thrown changed)
          else if admission.snapshot = some goal then .ok none
          else .ok (some (NativeWorkState.confirmGoal goal state))

/-- An autonomous execution continues a goal that this turn has confirmed. -/
def TurnCallbacks.continuesGoal (nativeReference goalAdmissionId : String) : Bool :=
  turn.goals.contains goalAdmissionId && ledger.any fun state => state.goals.any fun goal =>
    goal.admissionId == goalAdmissionId && goal.phase == .confirmed &&
    goal.originTurnId == turn.turnId && goal.nativeReference == nativeReference

/-- The record of `beginNativeExecution`; an empty goal counts as none. -/
def TurnCallbacks.beginExecution (nativeReference : String) (goalAdmissionId : Option String)
    (observedGoalPhase : Bool) (admission : String) : Except OperationFailure RootExecution :=
  let goal := goalAdmissionId.filter (· != "")
  match owner.problem manager live (observedGoalPhase && goal.isSome) with
  | some error => .error (.thrown error)
  | none =>
    if !(identity nativeReference) then .error (.store .invalid)
    else if owner.root? ≠ some nativeReference then
      .error (.thrown ⟨"native_execution_binding",
        "Native dispatch must belong to the confirmed root conversation."⟩)
    else if !(goal.all (turn.continuesGoal ledger nativeReference)) then
      .error (.thrown ⟨"native_goal_binding",
        "Autonomous native phases require this live turn's confirmed goal admission."⟩)
    else .ok {
      admissionId := admission
      originTurnId := turn.turnId
      nativeReference
      goalAdmissionId := goal
      nativeExecutionReference := none
      requiresTerminalProof := owner.session.profile?.any (·.nativeExecutionOutcomes)
      phaseStatus := none }

/-- What `confirmNativeExecution` does: nothing where the table has the execution, otherwise it
acknowledges the pending admission, with the ledger that has one. -/
def TurnCallbacks.confirmExecution (admission nativeExecutionReference : String) :
    Except OperationFailure (Option (TurnAdmission × Option NativeWorkState)) :=
  if !(identity nativeExecutionReference) then .error (.store .invalid)
  else
    match turn.admissions.get? admission with
    | none => .error (.thrown ⟨"native_execution_binding",
      "Native acknowledgement changed its dispatch admission."⟩)
    | some pending =>
      if pending.execution.any (· != nativeExecutionReference) then
        .error (.thrown ⟨"native_execution_binding",
          "Native acknowledgement changed its dispatch admission."⟩)
      else if pending.execution = some nativeExecutionReference then .ok none
      else
        match owner.problem manager live true with
        | some error => .error (.thrown error)
        | none =>
          match ledger with
          | none => .ok (some (pending, none))
          | some state =>
            if (NativeWorkState.root? state admission).any fun retained =>
                retained.nativeReference == pending.reference &&
                  retained.originTurnId == turn.turnId then
              .ok (some (pending,
                some (NativeWorkState.acknowledge admission nativeExecutionReference state)))
            else .error (.thrown ⟨"native_execution_fence_missing",
              "The native dispatch admission was not retained."⟩)

/-- The retained record is that of the acknowledged admission, without another outcome. -/
def TurnCallbacks.completes (pending : TurnAdmission) (status : TerminalStatus)
    (retained : RootExecution) : Bool :=
  retained.nativeExecutionReference == pending.execution &&
  retained.originTurnId == turn.turnId && retained.goalAdmissionId == pending.goal &&
  retained.phaseStatus.all fun known => known == status

/-- What `completeNativeExecution` does: nothing where the ledger has the outcome, otherwise it
shows the acknowledged admission, with the ledger that has one. -/
def TurnCallbacks.completeExecution (admission : String) (status : TerminalStatus) :
    Except OperationFailure (Option (TurnAdmission × String × Option NativeWorkState)) :=
  match turn.admissions.get? admission with
  | none => .error (.thrown ⟨"native_execution_binding",
    "Native completion requires this turn's acknowledged phase admission."⟩)
  | some pending =>
    match pending.execution with
    | none => .error (.thrown ⟨"native_execution_binding",
      "Native completion requires this turn's acknowledged phase admission."⟩)
    | some execution =>
      match owner.problem manager live true with
      | some error => .error (.thrown error)
      | none =>
        match ledger with
        | none => .ok (some (pending, execution, none))
        | some state =>
          match NativeWorkState.root? state admission with
          | none => .error (.thrown ⟨"native_execution_binding",
            "Native completion changed its original phase admission."⟩)
          | some retained =>
            if !(turn.completes pending status retained) then
              .error (.thrown ⟨"native_execution_binding",
                "Native completion changed its original phase admission."⟩)
            else if retained.phaseStatus = some status then .ok none
            else .ok (some (pending, execution,
              some (NativeWorkState.conclude admission status state)))

end Turn

/-! ## The host of a session's turns -/

/-- What waits for its dispatch: a turn of the session, or a start that continues its
conversation.  Its check of the ledger is past. -/
structure Entrant where
  /-- The turn with its session object; none for the start of another session. -/
  turn : Option (String × Option GoalRequest × Nat)
  /-- The turn is in `#runningTurns`. -/
  entered : Bool
  /-- What has been begun or confirmed since the check. -/
  late : List String

/-- The manager as one session uses it.  The run remembers the versions of the ledger, the records
of the executions and goals that were begun, and for every dispatch whether the ledger was
resolved. -/
structure ExecutionHost where
  run : StoreRun
  /-- The session objects that the session has had; the live one, if any. -/
  owners : List SessionOwner
  live : Option Nat
  running : Option String
  turnIds : List String
  entrants : List Entrant
  turns : List TurnCallbacks
  ledgers : List NativeWorkState
  begun : List RootExecution
  begunGoals : List GoalAdmission
  dispatches : List Bool

/-- What events and controls change in a session object. -/
structure OwnerChange where
  nativeThreadId : Option String
  nativeWorkRootReference : Option String
  nativeWorkOwnerAvailable : Option Bool
  nativeWorkStopping : Bool
  cancelRequested : Bool
  mcpDetaching : Bool
  policyControlling : Bool

def SessionOwner.apply (owner : SessionOwner) (change : OwnerChange) : SessionOwner :=
  { owner with session := { owner.session with
      nativeThreadId := change.nativeThreadId
      nativeWorkRootReference := change.nativeWorkRootReference
      nativeWorkOwnerAvailable := change.nativeWorkOwnerAvailable
      nativeWorkStopping := change.nativeWorkStopping
      cancelRequested := change.cancelRequested
      mcpDetaching := change.mcpDetaching
      policyControlling := change.policyControlling } }

inductive ExecutionAction where
  | sendTurn (turnId : String) (goal : Option GoalRequest)
  /-- A retained MCP operation resumes the session under a new session object. -/
  | resume (owner : SessionOwner) (turnId : String)
  /-- The resumed turn reaches `#runTurn`. -/
  | enter (i : Nat)
  /-- Another session that continues the conversation has passed its checks. -/
  | continueConversation
  | dispatch (i : Nat)
  | abandon (i : Nat)
  | turnOver (turnId : String)
  | changeOwner (i : Nat) (change : OwnerChange)
  | exited
  | beginNativeGoal (moment : Moment) (i : Nat) (nativeReference : String)
    (requested : GoalRequest) (resume : Option GoalObservation) (admission : String)
  | confirmNativeGoal (occasion : Occasion) (i : Nat) (goal : GoalRecord)
  | beginNativeExecution (moment : Moment) (i : Nat) (nativeReference : String)
    (goalAdmissionId : Option String) (observedGoalPhase : Bool) (admission : String)
  | confirmNativeExecution (occasion : Occasion) (i : Nat)
    (admission nativeExecutionReference : String)
  /-- The event of an acknowledgement is delivered, or its delivery throws. -/
  | delivered (i : Nat) (admission nativeExecutionReference : String) (thrown : Bool)
  | completeNativeExecution (occasion : Occasion) (i : Nat) (admission : String)
    (status : TerminalStatus) (output : Option Json)
  /-- A call of the store that is not about the goals and executions of the session. -/
  | other (moment : Moment) (action : StoreAction)

namespace ExecutionHost

variable (manager : Manager) (sessionId : String)

def ledger? (host : ExecutionHost) : Option NativeWorkState :=
  host.run.store.data.nativeWork.get? sessionId

def owner? (host : ExecutionHost) (turn : TurnCallbacks) : Option SessionOwner :=
  host.owners[turn.owner]?

def isLive (host : ExecutionHost) (turn : TurnCallbacks) : Bool := host.live == some turn.owner

def call (moment : Moment) (action : StoreAction) (host : ExecutionHost) :
    ExecutionHost × Option OperationFailure :=
  let attempt := host.run.store.perform manager.runtime moment action
  let after := attempt.state.data.nativeWork.get? sessionId
  ({ host with
      run := host.run.step manager.runtime (.call moment action)
      ledgers := if after = host.ledger? sessionId then host.ledgers
        else host.ledgers ++ after.toList }, attempt.failure.map .store)

/-- `#event` of a turn, with the ledger that is saved with it. -/
def commit (occasion : Occasion) (turnId eventType : String) (data : Json)
    (ledger : Option NativeWorkState) (host : ExecutionHost) :
    ExecutionHost × Option OperationFailure :=
  if !occasion.admitted then (host, some WorkHost.backpressure)
  else
    let event := nextEvent host.run.store occasion.moment.now sessionId (some turnId) eventType data
    host.call manager sessionId occasion.moment (match ledger with
      | some state => .saveNativeWorkState sessionId state (some event)
      | none => .appendEvent event)

def setTurn (i : Nat) (turn : TurnCallbacks) (host : ExecutionHost) : ExecutionHost :=
  { host with turns := host.turns.set i turn }

/-- What is begun or confirmed now comes after the checks that are past. -/
def arrive (admission : String) (host : ExecutionHost) : ExecutionHost :=
  { host with entrants := host.entrants.map fun entrant =>
      { entrant with late := entrant.late ++ [admission] } }

/-! ### Callbacks -/

def beginNativeGoal (moment : Moment) (i : Nat) (turn : TurnCallbacks) (owner : SessionOwner)
    (nativeReference : String) (requested : GoalRequest) (resume : Option GoalObservation)
    (admission : String) (host : ExecutionHost) : ExecutionHost × Option OperationFailure :=
  match turn.beginGoal manager owner (host.isLive turn) (host.ledger? sessionId) nativeReference
      requested resume admission with
  | .error failure => (host, some failure)
  | .ok (state, record) =>
    let called := host.call manager sessionId moment (.saveNativeWorkState sessionId
      { state with goals := state.goals ++ [record] } none)
    match called.2 with
    | some failure => (called.1, some failure)
    | none =>
      let next := called.1.setTurn i { turn with goals := turn.goals ++ [admission] }
      ({ next.arrive admission with begunGoals := next.begunGoals ++ [record] }, none)

def confirmNativeGoal (occasion : Occasion) (turn : TurnCallbacks) (owner : SessionOwner)
    (goal : GoalRecord) (host : ExecutionHost) : ExecutionHost × Option OperationFailure :=
  match turn.confirmGoal manager owner (host.isLive turn) (host.ledger? sessionId) goal with
  | .error failure => (host, some failure)
  | .ok none => (host, none)
  | .ok (some state) =>
    let called := host.commit manager sessionId occasion turn.turnId "native.goal.updated"
      (GoalRecord.toJson goal) (some state)
    match called.2 with
    | some failure => (called.1, some failure)
    | none => (called.1.arrive goal.admissionId, none)

def beginNativeExecution (moment : Moment) (i : Nat) (turn : TurnCallbacks)
    (owner : SessionOwner) (nativeReference : String) (goalAdmissionId : Option String)
    (observedGoalPhase : Bool) (admission : String) (host : ExecutionHost) :
    ExecutionHost × Option OperationFailure :=
  match turn.beginExecution manager owner (host.isLive turn) (host.ledger? sessionId)
      nativeReference goalAdmissionId observedGoalPhase admission with
  | .error failure => (host, some failure)
  | .ok record =>
    let called := match host.ledger? sessionId with
      | none => (host, none)
      | some state => host.call manager sessionId moment (.saveNativeWorkState sessionId
        { state with rootExecutions := state.rootExecutions ++ [record] } none)
    match called.2 with
    | some failure => (called.1, some failure)
    | none =>
      let next := called.1.setTurn i { turn with
        admissions := turn.admissions.set admission
          ⟨nativeReference, none, record.goalAdmissionId⟩ }
      ({ next.arrive admission with begun := next.begun ++ [record] }, none)

def confirmNativeExecution (occasion : Occasion) (i : Nat) (turn : TurnCallbacks)
    (owner : SessionOwner) (admission nativeExecutionReference : String) (host : ExecutionHost) :
    ExecutionHost × Option OperationFailure :=
  match turn.confirmExecution manager owner (host.isLive turn) (host.ledger? sessionId) admission
      nativeExecutionReference with
  | .error failure => (host, some failure)
  | .ok none => (host, none)
  | .ok (some (pending, state)) =>
    let called := host.commit manager sessionId occasion turn.turnId "native.execution.admitted"
      (admittedData admission pending.reference nativeExecutionReference pending.goal) state
    match called.2 with
    | some failure => (called.1, some failure)
    | none => (called.1.setTurn i { turn with
      delivering := turn.delivering ++ [(admission, nativeExecutionReference)] }, none)

/-- After `onEvent`: the table has the execution, unless the delivery has thrown. -/
def delivered (i : Nat) (turn : TurnCallbacks) (admission nativeExecutionReference : String)
    (thrown : Bool) (host : ExecutionHost) : ExecutionHost :=
  if turn.delivering.contains (admission, nativeExecutionReference) then
    let rest := { turn with
      delivering := turn.delivering.erase (admission, nativeExecutionReference) }
    match thrown, turn.admissions.get? admission with
    | false, some pending => host.setTurn i { rest with
      admissions := turn.admissions.set admission
        { pending with execution := some nativeExecutionReference } }
    | _, _ => host.setTurn i rest
  else host

def completeNativeExecution (occasion : Occasion) (turn : TurnCallbacks) (owner : SessionOwner)
    (admission : String) (status : TerminalStatus) (output : Option Json)
    (host : ExecutionHost) : ExecutionHost × Option OperationFailure :=
  match turn.completeExecution manager owner (host.isLive turn) (host.ledger? sessionId) admission
      status with
  | .error failure => (host, some failure)
  | .ok none => (host, none)
  | .ok (some (pending, execution, state)) =>
    host.commit manager sessionId occasion turn.turnId "native.execution.completed"
      (completedData admission pending.reference execution status pending.goal output) state

def callback (i : Nat) (host : ExecutionHost)
    (respond : TurnCallbacks → SessionOwner → ExecutionHost) : ExecutionHost :=
  match host.turns[i]? with
  | none => host
  | some turn =>
    match host.owner? turn with
    | none => host
    | some owner => respond turn owner

/-! ### Turns -/

/-- Why `sendTurn` refuses a turn. -/
def sendProblem (turnId : String) (goal : Option GoalRequest) (session : LiveSession)
    (host : ExecutionHost) : Option HarnessError :=
  let conversation := session.startPayload.continuationGroupKey.bind
    host.run.store.data.nativeConversations.get?
  firstError [
    errorIf session.mcpDetaching "native_mcp_detach_unknown"
      "New prompts require confirmed MCP configuration and cleanup.",
    errorIf session.policyControlling "native_policy_control_unknown"
      "New prompts require confirmed native policy configuration.",
    errorIf (conversation.any fun conversation => conversation.policyControls.any fun receipt =>
        receipt.phase == .pending) "native_policy_control_unknown"
      "New prompts cannot bypass a retained uncertain native policy control.",
    errorIf (conversation.any fun conversation => conversation.goalControls.any fun receipt =>
        receipt.phase == .pending) "native_goal_control_unknown"
      "New prompts cannot bypass an uncertain native goal mutation.",
    errorIf (unresolvedNativeAdmissions (host.ledger? sessionId) && host.running.isNone)
      "native_execution_unknown"
      "New prompts cannot bypass an unresolved native execution or goal admission.",
    errorIf (goal.isSome && !(session.profile?.any (·.nativeGoals))) "native_goal_unsupported"
      "This execution profile does not advertise native goal ownership.",
    errorIf host.running.isSome "turn_in_progress"
      "This session already has an admitted root turn.",
    errorIf (host.turnIds.contains turnId) "turn_exists"
      ("Turn '" ++ turnId ++ "' already exists in session '" ++ sessionId ++ "'.")]

/-- `sendTurn` up to the first wait of `#runTurn`. -/
def sendTurn (turnId : String) (goal : Option GoalRequest) (host : ExecutionHost) :
    ExecutionHost :=
  match host.live with
  | none => host
  | some generation =>
    match host.owners[generation]? with
    | none => host
    | some owner =>
      match host.sendProblem sessionId turnId goal owner.session with
      | some _ => host
      | none => { host with
        owners := host.owners.set generation { owner with
          session := { owner.session with cancelRequested := false } }
        running := some turnId
        turnIds := host.turnIds ++ [turnId]
        entrants := host.entrants ++ [⟨some (turnId, goal, generation), true, []⟩] }

/-- `#prepareSession` of a retained start, and what follows it. -/
def resume (owner : SessionOwner) (turnId : String) (host : ExecutionHost) : ExecutionHost :=
  let ledger := host.ledger? sessionId
  if host.live.isSome || (ledger.any fun state => state.closureUnconfirmed) ||
      unresolvedNativeAdmissions ledger then host
  else { host with
    owners := host.owners ++ [owner]
    live := some host.owners.length
    turnIds := [turnId]
    entrants := host.entrants ++ [⟨some (turnId, none, host.owners.length), false, []⟩] }

/-- The start of `#runTurn` for a resumed turn. -/
def enter (i : Nat) (host : ExecutionHost) : ExecutionHost :=
  match host.entrants[i]? with
  | some ⟨some (turnId, goal, generation), false, late⟩ =>
    if (host.owners[generation]?.any fun owner => owner.session.policyControlling) ||
        host.running.isSome then
      { host with entrants := host.entrants.eraseIdx i }
    else { host with
      running := some turnId
      entrants := host.entrants.set i ⟨some (turnId, goal, generation), true, late⟩ }
  | _ => host

/-- The entrant that is handed to its adapter: a turn has entered and is not cancelled. -/
def ready? (i : Nat) (host : ExecutionHost) : Option Entrant :=
  host.entrants[i]?.filter fun entrant => match entrant.turn with
    | none => true
    | some (_, _, generation) => entrant.entered &&
      !(host.owners[generation]?.any fun owner => owner.session.cancelRequested)

def dispatch (i : Nat) (host : ExecutionHost) : ExecutionHost :=
  match host.ready? i with
  | none => host
  | some entrant => { host with
    entrants := host.entrants.eraseIdx i
    turns := match entrant.turn with
      | none => host.turns
      | some (turnId, goal, generation) =>
        host.turns ++ [⟨turnId, goal, generation, Dict.empty, [], []⟩]
    dispatches := host.dispatches ++ [!(unresolvedNativeAdmissions (host.ledger? sessionId))] }

/-! ### Steps -/

/-- The call leaves the goals and executions of the ledger alone, and shows no event of one. -/
def unrelated (moment : Moment) (action : StoreAction) (host : ExecutionHost) : Bool :=
  let after := (host.run.store.perform manager.runtime moment action).state.data.nativeWork.get?
    sessionId
  after.isSome == (host.ledger? sessionId).isSome &&
  after.elim [] (·.rootExecutions) == (host.ledger? sessionId).elim [] (·.rootExecutions) &&
  after.elim [] (·.goals) == (host.ledger? sessionId).elim [] (·.goals) &&
  action.events.all fun event => event.sessionId != sessionId ||
    event.eventType != "native.execution.admitted" &&
      event.eventType != "native.execution.completed"

def step (host : ExecutionHost) : ExecutionAction → ExecutionHost
  | .sendTurn turnId goal => host.sendTurn sessionId turnId goal
  | .resume owner turnId => host.resume sessionId owner turnId
  | .enter i => host.enter i
  | .continueConversation =>
    if workUnconfirmed (host.ledger? sessionId) then host
    else { host with entrants := host.entrants ++ [⟨none, false, []⟩] }
  | .dispatch i => host.dispatch sessionId i
  | .abandon i => { host with entrants := host.entrants.eraseIdx i }
  | .turnOver turnId =>
    if host.running = some turnId then { host with running := none } else host
  | .changeOwner i change => { host with owners := host.owners.modify i (·.apply change) }
  | .exited => { host with live := none, turnIds := [] }
  | .beginNativeGoal moment i nativeReference requested resume admission =>
    host.callback i fun turn owner => (host.beginNativeGoal manager sessionId moment i turn owner
      nativeReference requested resume admission).1
  | .confirmNativeGoal occasion i goal =>
    host.callback i fun turn owner =>
      (host.confirmNativeGoal manager sessionId occasion turn owner goal).1
  | .beginNativeExecution moment i nativeReference goalAdmissionId observedGoalPhase admission =>
    host.callback i fun turn owner => (host.beginNativeExecution manager sessionId moment i turn
      owner nativeReference goalAdmissionId observedGoalPhase admission).1
  | .confirmNativeExecution occasion i admission nativeExecutionReference =>
    host.callback i fun turn owner => (host.confirmNativeExecution manager sessionId occasion i
      turn owner admission nativeExecutionReference).1
  | .delivered i admission nativeExecutionReference thrown =>
    host.callback i fun turn _ =>
      host.delivered i turn admission nativeExecutionReference thrown
  | .completeNativeExecution occasion i admission status output =>
    host.callback i fun turn owner => (host.completeNativeExecution manager sessionId occasion
      turn owner admission status output).1
  | .other moment action =>
    if host.unrelated manager sessionId moment action then
      (host.call manager sessionId moment action).1
    else host

end ExecutionHost

end HarnessControl.Harnesses
