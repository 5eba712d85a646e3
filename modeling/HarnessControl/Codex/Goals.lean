import Mathlib.Data.List.Basic

/-!
# Native goals

`CodexGoalOwner` runs one goal of a thread.  It reads the goal before each mutation, and takes every
snapshot of the server, from a response or from a notification, if it may follow the one it holds.
The server's goal makes progress on its own; only a request starts it.
-/

namespace HarnessControl.Codex

/-! ## Snapshots -/

inductive GoalStatus where
  | active
  | paused
  | blocked
  | usageLimited
  | budgetLimited
  | complete
deriving DecidableEq

/-- `tokenBudget` on the wire. -/
inductive WireBudget where
  | absent
  | null
  | tokens (budget : Nat)
deriving DecidableEq

/-- `tokenBudget ?? undefined`. -/
def WireBudget.value : WireBudget → Option Nat
  | .absent | .null => none
  | .tokens budget => some budget

/-- `codexGoalSchema`. -/
structure CodexGoal where
  threadId : String
  objective : String
  status : GoalStatus
  createdAt : Nat
  updatedAt : Nat
  timeUsedSeconds : Nat
  tokensUsed : Nat
  tokenBudget : WireBudget

structure Snapshot where
  status : GoalStatus
  updatedAt : Nat
  timeUsedSeconds : Nat
  tokensUsed : Nat
deriving DecidableEq

structure Snapshot.Precedes (earlier later : Snapshot) : Prop where
  updatedAt : earlier.updatedAt ≤ later.updatedAt
  timeUsedSeconds : earlier.timeUsedSeconds ≤ later.timeUsedSeconds
  tokensUsed : earlier.tokensUsed ≤ later.tokensUsed

structure GoalJob where
  createdAt : Nat
  objective : String
  tokenBudget : Option Nat

/-- A snapshot as it is sent; a missing budget is left out or null. -/
def GoalJob.wire (job : GoalJob) (threadId : String) (omitted : Bool) (snapshot : Snapshot) :
    CodexGoal where
  threadId
  objective := job.objective
  status := snapshot.status
  createdAt := job.createdAt
  updatedAt := snapshot.updatedAt
  timeUsedSeconds := snapshot.timeUsedSeconds
  tokensUsed := snapshot.tokensUsed
  tokenBudget := match job.tokenBudget with
    | some budget => .tokens budget
    | none => if omitted then .absent else .null

/-! ## The server -/

structure GoalServer where
  /-- The goal of the thread, if it has had one. -/
  job : Option GoalJob
  cleared : Bool
  /-- Every snapshot of the goal, the current one last. -/
  history : List Snapshot
  ordered : history.Pairwise Snapshot.Precedes

/-- What the server decides when it makes progress or serves a request. -/
structure GoalProgress where
  status : GoalStatus
  elapsed : Nat
  seconds : Nat
  tokens : Nat
  /-- For a goal that is created. -/
  createdAt : Nat
  omitted : Bool

def Snapshot.next (status : GoalStatus) (progress : GoalProgress) (last : Snapshot) : Snapshot where
  status
  updatedAt := last.updatedAt + progress.elapsed
  timeUsedSeconds := last.timeUsedSeconds + progress.seconds
  tokensUsed := last.tokensUsed + progress.tokens

def GoalServer.last (server : GoalServer) : Snapshot :=
  server.history.getLastD ⟨.paused, 0, 0, 0⟩

theorem GoalServer.precedes_last (server : GoalServer) {snapshot : Snapshot}
    (h : snapshot ∈ server.history) : snapshot.Precedes server.last := by
  unfold GoalServer.last
  have hordered := server.ordered
  rcases List.eq_nil_or_concat server.history with hempty | ⟨init, last, heq⟩
  · rw [hempty] at h
    cases h
  · rw [List.concat_eq_append] at heq
    rw [heq] at h hordered ⊢
    rw [List.getLastD_concat]
    rcases List.mem_append.mp h with hinit | hlast
    · exact (List.pairwise_append.mp hordered).2.2 snapshot hinit last List.mem_cons_self
    · rw [List.mem_singleton] at hlast
      subst hlast
      exact ⟨Nat.le_refl _, Nat.le_refl _, Nat.le_refl _⟩

def GoalServer.append (status : GoalStatus) (progress : GoalProgress) (server : GoalServer) :
    GoalServer where
  job := server.job
  cleared := server.cleared
  history := server.history ++ [server.last.next status progress]
  ordered := by
    rw [List.pairwise_append]
    refine ⟨server.ordered, List.pairwise_singleton _ _, ?_⟩
    intro snapshot hsnapshot next hnext
    rw [List.mem_singleton] at hnext
    subst hnext
    have hlast := server.precedes_last hsnapshot
    exact ⟨Nat.le_add_right_of_le hlast.updatedAt, Nat.le_add_right_of_le hlast.timeUsedSeconds,
      Nat.le_add_right_of_le hlast.tokensUsed⟩

def GoalServer.current (server : GoalServer) : Option (GoalJob × Snapshot) :=
  if server.cleared then none
  else
    match server.job, server.history.getLast? with
    | some job, some snapshot => some (job, snapshot)
    | _, _ => none

def GoalServer.active (server : GoalServer) : Bool :=
  server.current.any fun current => current.2.status == .active

/-- The goal changes without a request; it does not start. -/
def GoalServer.progress (progress : GoalProgress) (server : GoalServer) : GoalServer :=
  server.append (if progress.status = .active ∧ server.last.status ≠ .active then server.last.status
    else progress.status) progress

inductive SetTarget where
  | active
  | paused
deriving DecidableEq

def SetTarget.status : SetTarget → GoalStatus
  | .active => .active
  | .paused => .paused

inductive GoalRequest where
  | get
  /-- `thread/goal/set` with an objective. -/
  | create (objective : String) (tokenBudget : Option Nat)
  | set (target : SetTarget)
  | clear
deriving DecidableEq

abbrev GoalAnswer := Option (Nat × CodexGoal)

def GoalServer.answer (threadId : String) (omitted : Bool) (server : GoalServer) : GoalAnswer :=
  server.current.map fun current =>
    (server.history.length - 1, current.1.wire threadId omitted current.2)

/-- A request to pause is honoured; one to start a goal may meet a limit. -/
def GoalServer.serve (threadId : String) (progress : GoalProgress) (server : GoalServer) :
    GoalRequest → GoalServer × GoalAnswer
  | .get => (server, server.answer threadId progress.omitted)
  | .create objective tokenBudget =>
    match server.job with
    | some _ => (server, none)
    | none =>
      let created := GoalServer.append .paused progress
        { server with job := some ⟨progress.createdAt, objective, tokenBudget⟩ }
      (created, created.answer threadId progress.omitted)
  | .set target =>
    if server.job.isNone ∨ server.cleared = true then (server, none)
    else
      let changed := server.append
        (match target with
          | .paused => .paused
          | .active => progress.status) progress
      (changed, changed.answer threadId progress.omitted)
  | .clear => ({ server with cleared := true }, none)

/-! ## The owner -/

structure GoalOwner where
  goal : Option CodexGoal
  stopped : Bool
  activated : Bool
  reserved : Bool
  clearing : Bool
  /-- The call of `activate`. -/
  activation : Option Nat

/-- The two requests of `#setStatus`. -/
inductive SetStage where
  | reading
  | writing
deriving DecidableEq

/-- Where a call of the owner stands. -/
inductive GoalStage where
  | prepareRead (objective : String) (tokenBudget : Option Nat)
  | prepareSet (objective : String) (tokenBudget : Option Nat)
  | resumeRead (expectedCreatedAt : Nat)
  | resumePause (stage : SetStage)
  | activate (stage : SetStage)
  /-- The owner was stopped before the goal was active. -/
  | activateStop (stage : SetStage)
  /-- `pause` waits for `activate`; it may be the first part of `clear`. -/
  | pauseWait (force clears : Bool)
  | pauseSet (clears : Bool) (stage : SetStage)
  | clearRead
  | clearSend
  | clearReread
  | resolved
  | rejected
deriving DecidableEq

inductive GoalWait where
  | idle
  | sent (request : GoalRequest)
  | answered (answer : GoalAnswer)

structure GoalCall where
  stage : GoalStage
  wait : GoalWait

/-- `#verify`. -/
def verifies (threadId : String) (admitted : Option CodexGoal) (goal : CodexGoal) : Bool :=
  admitted.any fun admitted =>
    goal.threadId == threadId && goal.createdAt == admitted.createdAt &&
    goal.objective == admitted.objective && goal.tokenBudget == admitted.tokenBudget &&
    decide (admitted.updatedAt ≤ goal.updatedAt) && decide (admitted.tokensUsed ≤ goal.tokensUsed) &&
    decide (admitted.timeUsedSeconds ≤ goal.timeUsedSeconds)

/-- What `observe` asks of a snapshot from before the current one. -/
def historical (current goal : CodexGoal) : Bool :=
  goal.threadId == current.threadId && goal.createdAt == current.createdAt &&
  goal.objective == current.objective && goal.tokenBudget == current.tokenBudget &&
  decide (goal.tokensUsed ≤ current.tokensUsed) &&
  decide (goal.timeUsedSeconds ≤ current.timeUsedSeconds)

/-! ## Runs -/

structure GoalRun where
  threadId : String
  server : GoalServer
  owner : GoalOwner
  calls : List GoalCall
  /-- `prepare` or `prepareResume` has resolved. -/
  prepared : Bool
  /-- The place in the history of the snapshot that the owner holds. -/
  heldAt : Nat
  /-- The place of the snapshot with which a request started the goal. -/
  startedAt : Option Nat
  /-- A snapshot of the goal was rejected as a mismatch. -/
  mismatched : Bool
  /-- The owner took an earlier snapshot for the one that it held. -/
  regressed : Bool
  /-- A pause resolved while the goal was active. -/
  leftActive : Bool

namespace GoalRun

/-- The snapshot becomes the one that the owner holds. -/
def accept (index : Nat) (goal : CodexGoal) (run : GoalRun) : GoalRun :=
  let earlier := decide (index < run.heldAt)
  let same := run.server.history[index]? == run.server.history[run.heldAt]?
  { run with
    owner := { run.owner with goal := some goal }
    heldAt := if earlier && same then run.heldAt else index
    regressed := run.regressed || (earlier && !same) }

def setCall (index : Nat) (stage : GoalStage) (wait : GoalWait) (run : GoalRun) : GoalRun :=
  { run with calls := run.calls.set index ⟨stage, wait⟩ }

/-- The call throws; `mismatched` where it rejects a snapshot. -/
def throws (index : Nat) (mismatched : Bool) (run : GoalRun) : GoalRun :=
  { run.setCall index .rejected .idle with mismatched := run.mismatched || mismatched }

inductive SetResult where
  | failed (mismatched : Bool)
  | write (run : GoalRun)
  | done (run : GoalRun)

/-- The statuses that `activate` accepts beside `active`. -/
def isLimited (status : GoalStatus) : Bool :=
  status != .active && status != .paused

/-- `#setStatus`, from one of its responses on. -/
def setStatus (target : SetTarget) (stage : SetStage) (answer : GoalAnswer) (run : GoalRun) :
    SetResult :=
  match answer with
  | none => .failed false
  | some (index, goal) =>
    if !verifies run.threadId run.owner.goal goal then .failed true
    else
      match stage with
      | .reading =>
        if target = .active ∧ goal.status ≠ .paused then
          if goal.status = .active then .failed true else .done (run.accept index goal)
        else .write (run.accept index goal)
      | .writing =>
        -- the server did something else than it was asked for
        if goal.status ≠ target.status ∧ ¬(target = .active ∧ isLimited goal.status = true) then
          .failed false
        else .done (run.accept index goal)

/-- `pause` has resolved, or the rest of `clear` begins. -/
def pauseResolved (index : Nat) (clears : Bool) (run : GoalRun) : GoalRun :=
  let run := { run with leftActive := run.leftActive || run.server.active }
  if clears then run.setCall index .clearRead (.sent .get) else run.setCall index .resolved .idle

/-- `pause`, once `activate` is over. -/
def pauseDecide (index : Nat) (force clears : Bool) (run : GoalRun) : GoalRun :=
  if run.owner.goal.any fun goal => goal.status == .active || force && goal.status != .paused then
    run.setCall index (.pauseSet clears .reading) (.sent .get)
  else run.pauseResolved index clears

def stageOf (index : Nat) (run : GoalRun) : Option GoalStage :=
  run.calls[index]?.map GoalCall.stage

/-- A call continues after its response, or after `activate` for a pause. -/
def settle (index : Nat) (run : GoalRun) : GoalRun :=
  match run.calls[index]? with
  | none => run
  | some ⟨.pauseWait force clears, _⟩ =>
    match run.owner.activation.bind run.stageOf with
    | some .resolved => run.pauseDecide index force clears
    | some .rejected => run.throws index false
    | _ => run
  | some ⟨stage, .answered answer⟩ =>
    match stage, answer with
    | .prepareRead objective tokenBudget, none =>
      { run with owner := { run.owner with reserved := true } }.setCall index
        (.prepareSet objective tokenBudget) (.sent (.create objective tokenBudget))
    | .prepareRead _ _, some _ => run.throws index false
    | .prepareSet objective tokenBudget, some (place, goal) =>
      if goal.threadId ≠ run.threadId ∨ goal.objective ≠ objective ∨ goal.status ≠ .paused ∨
          goal.tokenBudget.value ≠ tokenBudget then
        run.throws index true
      else
        { run with
          owner := { run.owner with goal := some goal }
          heldAt := place
          prepared := true }.setCall index .resolved .idle
    | .resumeRead expectedCreatedAt, some (place, goal) =>
      if goal.createdAt ≠ expectedCreatedAt ∨ goal.status = .active ∨ goal.status = .complete then
        run.throws index false
      else
        let held := { run with
          owner := { run.owner with goal := some goal, reserved := true }
          heldAt := place }
        if goal.status = .paused then
          { held with prepared := true }.setCall index .resolved .idle
        else held.setCall index (.resumePause .reading) (.sent .get)
    | .resumePause stage, answer =>
      match run.setStatus .paused stage answer with
      | .failed mismatched => run.throws index mismatched
      | .write run => run.setCall index (.resumePause .writing) (.sent (.set .paused))
      | .done run => { run with prepared := true }.setCall index .resolved .idle
    | .activate stage, answer =>
      match run.setStatus .active stage answer with
      | .failed mismatched => run.throws index mismatched
      | .write run => run.setCall index (.activate .writing) (.sent (.set .active))
      | .done run =>
        -- a stop may have raced the response
        if run.owner.stopped then run.setCall index (.activateStop .reading) (.sent .get)
        else
          { run with owner := { run.owner with activated := true } }.setCall index .resolved
            .idle
    | .activateStop stage, answer =>
      match run.setStatus .paused stage answer with
      | .failed mismatched => run.throws index mismatched
      | .write run => run.setCall index (.activateStop .writing) (.sent (.set .paused))
      | .done run => run.setCall index .resolved .idle
    | .pauseSet clears stage, answer =>
      match run.setStatus .paused stage answer with
      | .failed mismatched => run.throws index mismatched
      | .write run => run.setCall index (.pauseSet clears .writing) (.sent (.set .paused))
      | .done run => run.pauseResolved index clears
    | .clearRead, some (_, goal) =>
      if !verifies run.threadId run.owner.goal goal then run.throws index true
      else
        { run with owner := { run.owner with clearing := true } }.setCall index .clearSend
          (.sent .clear)
    | .clearSend, _ => run.setCall index .clearReread (.sent .get)
    | .clearReread, none =>
      { run with owner := { run.owner with goal := none } }.setCall index .resolved .idle
    | .resolved, _ | .rejected, _ | .pauseWait _ _, _ => run
    | _, _ => run.throws index false
  | some _ => run

/-- `observe` of `thread/goal/updated`. -/
def observe (index : Nat) (omitted : Bool) (run : GoalRun) : GoalRun :=
  match run.server.job, run.server.history[index]? with
  | some job, some snapshot =>
    let goal := job.wire run.threadId omitted snapshot
    match run.owner.goal with
    | none => { run with mismatched := true }
    | some current =>
      if goal.updatedAt < current.updatedAt then
        if historical current goal then run else { run with mismatched := true }
      else if verifies run.threadId (some current) goal then run.accept index goal
      else { run with mismatched := true }
  | _, _ => run

def activate (run : GoalRun) : GoalRun :=
  if run.owner.activation.isSome ∨ run.owner.goal = none ∨ run.owner.stopped = true then run
  else
    { run with
      owner := { run.owner with activation := some run.calls.length }
      calls := run.calls ++ [⟨.activate .reading, .sent .get⟩] }

/-- `pause`, and `clear`, which begins with it. -/
def pause (force clears : Bool) (run : GoalRun) : GoalRun :=
  let stopped := { run with
    owner := { run.owner with stopped := true, activated := false }
    calls := run.calls ++ [⟨.pauseWait force clears, .idle⟩] }
  if run.owner.activation.isSome then stopped
  else stopped.pauseDecide run.calls.length force clears

/-- A request is served, also when its call no longer waits for the response. -/
def serve (index : Nat) (progress : GoalProgress) (run : GoalRun) : GoalRun :=
  match run.calls[index]? with
  | some ⟨stage, .sent request⟩ =>
    let served := run.server.serve run.threadId progress request
    { run with
      server := served.1
      startedAt :=
        if request = GoalRequest.set .active ∧ served.2.isSome = true then some run.server.history.length
        else run.startedAt }.setCall index stage (.answered served.2)
  | _ => run

def fail (index : Nat) (run : GoalRun) : GoalRun :=
  match run.calls[index]? with
  | some ⟨.pauseWait _ _, _⟩ | some ⟨.resolved, _⟩ | some ⟨.rejected, _⟩ | none => run
  | some ⟨_, wait⟩ => run.setCall index .rejected wait

end GoalRun

inductive GoalAction where
  | progress (progress : GoalProgress)
  | serve (index : Nat) (progress : GoalProgress)
  | settle (index : Nat)
  | fail (index : Nat)
  /-- A notification of a snapshot arrives. -/
  | notify (index : Nat) (omitted : Bool)
  | activate
  | pause (force : Bool)
  | clear

def GoalRun.step (run : GoalRun) : GoalAction → GoalRun
  | .progress progress =>
    if run.server.job.isNone ∨ run.server.cleared = true then run
    else { run with server := run.server.progress progress }
  | .serve index progress => run.serve index progress
  | .settle index => run.settle index
  | .fail index => run.fail index
  | .notify index omitted => if run.prepared then run.observe index omitted else run
  | .activate => if run.prepared then run.activate else run
  | .pause force => if run.prepared then run.pause force false else run
  | .clear => if run.prepared then run.pause false true else run

inductive Preparation where
  | start (objective : String) (tokenBudget : Option Nat)
  | resume (expectedCreatedAt : Nat)

def Preparation.stage : Preparation → GoalStage
  | .start objective tokenBudget => .prepareRead objective tokenBudget
  | .resume expectedCreatedAt => .resumeRead expectedCreatedAt

def GoalRun.begin (threadId : String) (job : Option GoalJob) (history : List Snapshot)
    (ordered : history.Pairwise Snapshot.Precedes) (preparation : Preparation) : GoalRun where
  threadId
  server := ⟨job, false, history, ordered⟩
  owner := ⟨none, false, false, false, false, none⟩
  calls := [⟨preparation.stage, .sent .get⟩]
  prepared := false
  heldAt := 0
  startedAt := none
  mismatched := false
  regressed := false
  leftActive := false

end HarnessControl.Codex
