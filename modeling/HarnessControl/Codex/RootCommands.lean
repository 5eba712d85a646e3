import HarnessControl.Harnesses.WorkObservation

/-!
# Commands of a root turn

`CodexOwnedWork` observes the notifications of its root thread one after another in a queue.  Those
of a turn that is not admitted yet are buffered; `admitRoot` takes effect at once and queues a task
that observes them again.
-/

namespace HarnessControl.Codex

open HarnessControl.Library HarnessControl.Protocol HarnessControl.State HarnessControl.Harnesses

/-! ## Notifications -/

inductive CommandItemStatus where
  | inProgress
  | completed
  | failed
  | declined
deriving DecidableEq

/-- An item of type `commandExecution`. -/
structure CommandItem where
  id : String
  command : String
  processId : Option String
  status : CommandItemStatus
  exitCode : Option Int
  aggregatedOutput : Option String

/-- What concerns commands among the notifications of the root thread. -/
inductive RootNotification where
  /-- `item/started` and `item/completed`. -/
  | item (turnId : String) (item : CommandItem)
  | turnStarted (turnId : String)
  | turnCompleted (turnId : String)

def RootNotification.turnId : RootNotification → String
  | .item turnId _ | .turnStarted turnId | .turnCompleted turnId => turnId

structure CommandHost where
  /-- `command.slice(0, 2048)`. -/
  summary : String → String
  publishContent : Option (String → Json)
  /-- `Buffer.byteLength(JSON.stringify(message))`. -/
  messageBytes : RootNotification → Nat

/-! ## The owner -/

structure NativeCommand where
  turn : String
  process : Option String
  work : NativeWorkObservation

/-- The part of `CodexOwnedWork` that concerns the commands of its root thread. -/
structure OwnedCommands where
  /-- The turns of the application by the native turns. -/
  roots : Dict String String
  activeRoots : List String
  commands : Dict (String × String) NativeCommand
  /-- The notifications of the root thread that are buffered. -/
  pending : List RootNotification
  /-- The number of work ids so far. -/
  created : Nat
  lost : Bool
  published : List NativeWorkObservation

namespace OwnedCommands

def attached : OwnedCommands := ⟨Dict.empty, [], Dict.empty, [], 0, false, []⟩

def busy (owner : OwnedCommands) : Bool :=
  !owner.pending.isEmpty ||
  owner.commands.values.any fun command => !isNativeWorkTerminal command.work.status

def maxBufferedMessages : Nat := 256

def maxBufferedBytes : Nat := 1024 * 1024

/-- The notification has room after those that are buffered. -/
def hasRoom (host : CommandHost) (pending : List RootNotification) (message : RootNotification) :
    Bool :=
  decide (pending.length < maxBufferedMessages) &&
  decide ((pending.map host.messageBytes).sum + host.messageBytes message ≤ maxBufferedBytes)

/-- `#buffer`; `none` where it throws. -/
def buffer (host : CommandHost) (message : RootNotification) (owner : OwnedCommands) :
    Option OwnedCommands :=
  if hasRoom host owner.pending message then
    some { owner with pending := owner.pending ++ [message] }
  else none

/-- `#publishCommand`. -/
def publishCommand (command : NativeCommand) (owner : OwnedCommands) : OwnedCommands :=
  if command.work.background then
    { owner with published := owner.published ++ [command.work] }
  else owner

def setCommand (key : String × String) (command : NativeCommand) (owner : OwnedCommands) :
    OwnedCommands :=
  { owner with commands := owner.commands.set key command }

/-- The bound on `#commands` and `#works`. -/
def maxCommands : Nat := 128

def endStatus (item : CommandItem) : WorkStatus :=
  if item.status = .declined then .cancelled
  else if item.status = .failed ∨ item.exitCode.any (· != 0) = true then .failed
  else .completed

/-- `#observeCommand`. -/
def observeCommand (host : CommandHost) (turnId : String) (item : CommandItem)
    (owner : OwnedCommands) : Option OwnedCommands :=
  match owner.roots.get? turnId with
  | none => owner.buffer host (.item turnId item)
  | some origin =>
    let key := (turnId, item.id)
    if item.status = .inProgress then
      match owner.commands.get? key with
      | none =>
        if maxCommands ≤ owner.commands.size then none
        else
          let background := !owner.activeRoots.contains turnId
          let command : NativeCommand := {
            turn := turnId
            process := item.processId
            work := {
              workId := "codex-command-" ++ toString owner.created
              nativeReference := item.id
              originTurnId := origin
              parentWorkId := none
              kind := .command
              background
              status := .running
              supportsCancel := background && item.processId.isSome
              summary := some (host.summary item.command) } }
          some <| { owner with created := owner.created + 1 }.setCommand key command
            |>.publishCommand command
      | some command =>
        if isNativeWorkTerminal command.work.status then some owner
        else if item.processId.isSome = true ∧ command.process.isSome = true ∧
            command.process ≠ item.processId then none
        else
          let process := item.processId.or command.process
          let next := { command with
            process
            work.supportsCancel := command.work.background && process.isSome }
          some ((owner.setCommand key next).publishCommand next)
    else
      match owner.commands.get? key with
      | none => some owner
      | some command =>
        if isNativeWorkTerminal command.work.status then some owner
        else
          let content := if command.work.background then
              (host.publishContent.bind fun publish => item.aggregatedOutput.map publish)
            else none
          let next := { command with
            work.status := endStatus item
            work.supportsCancel := false
            work.contentRef := content.or command.work.contentRef }
          let ended := (owner.setCommand key next).publishCommand next
          some (if command.work.background then ended
            else { ended with commands := ended.commands.erase key })

def outlive (command : NativeCommand) : NativeCommand :=
  { command with
    work.background := true
    work.supportsCancel := command.process.isSome }

def outlives (turnId : String) (command : NativeCommand) : Bool :=
  command.turn == turnId && !isNativeWorkTerminal command.work.status

/-- `turn/completed`, for the commands. -/
def completeTurn (turnId : String) (owner : OwnedCommands) : OwnedCommands :=
  { owner with
    activeRoots := owner.activeRoots.filter (· != turnId)
    commands := owner.commands.map fun command =>
      if outlives turnId command then outlive command else command
    published := owner.published ++
      (owner.commands.values.filter (outlives turnId)).map fun command => (outlive command).work }

/-- `#observe` of the root thread; `none` where it throws. -/
def handle (host : CommandHost) (message : RootNotification) (owner : OwnedCommands) :
    Option OwnedCommands :=
  match message with
  | .item turnId item => owner.observeCommand host turnId item
  | .turnStarted turnId =>
    if owner.roots.get? turnId = none then owner.buffer host message else some owner
  | .turnCompleted turnId =>
    let completed := owner.completeTurn turnId
    if owner.roots.get? turnId = none then
      some ((completed.buffer host message).getD { completed with lost := true })
    else some completed

def observe (host : CommandHost) (owner : OwnedCommands) (message : RootNotification) :
    OwnedCommands :=
  if owner.lost then owner
  else (owner.handle host message).getD { owner with lost := true }

/-- `#replay`. -/
def replay (host : CommandHost) (owner : OwnedCommands) : OwnedCommands :=
  owner.pending.foldl (observe host) { owner with pending := [] }

/-- `admitRoot`, apart from the task that it queues. -/
def admitRoot (nativeTurn appTurn : String) (owner : OwnedCommands) : OwnedCommands :=
  { owner with
    roots := owner.roots.set nativeTurn appTurn
    activeRoots := nativeTurn :: owner.activeRoots.filter (· != nativeTurn) }

end OwnedCommands

/-! ## The queue -/

inductive RootTask where
  | observe (message : RootNotification)
  | replay

structure RootQueue where
  owner : OwnedCommands
  queue : List RootTask

inductive RootAction where
  | notify (message : RootNotification)
  /-- The next task of the queue runs. -/
  | work
  | admitRoot (nativeTurn appTurn : String)

namespace RootQueue

def attached : RootQueue := ⟨.attached, []⟩

def perform (host : CommandHost) (owner : OwnedCommands) : RootTask → OwnedCommands
  | .observe message => owner.observe host message
  | .replay => owner.replay host

def step (host : CommandHost) (run : RootQueue) : RootAction → RootQueue
  | .notify message => { run with queue := run.queue ++ [.observe message] }
  | .work =>
    match run.queue with
    | [] => run
    | task :: rest => ⟨perform host run.owner task, rest⟩
  | .admitRoot nativeTurn appTurn =>
    if run.owner.lost then run
    else ⟨run.owner.admitRoot nativeTurn appTurn, run.queue ++ [.replay]⟩

end RootQueue

end HarnessControl.Codex
