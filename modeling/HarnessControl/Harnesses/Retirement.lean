import HarnessControl.Harnesses.ForkRecording
import HarnessControl.Harnesses.InputFileRetention

/-!
# Retiring a conversation

`conversationOperation` of kind `retire` removes the conversation's binding from the runner's store
and then gives up its input files, one after the other.  A file may stop it at any of its steps; the
files that come after it are left alone.
-/

namespace HarnessControl.Harnesses

open HarnessControl.Library HarnessControl.Protocol HarnessControl.State

/-! ## Failing calls of the file system -/

inductive GiveUpStep where
  /-- The check or the removal of the copy. -/
  | copy
  /-- The copy is removed; its directory cannot be read or removed. -/
  | directory
  /-- The check of the body or of the record, or the removal of the record. -/
  | record
  /-- The record is removed, the body is not. -/
  | body
  /-- `#save` of a file that keeps other owners. -/
  | save
deriving DecidableEq

structure FileFailure where
  step : GiveUpStep
  error : HarnessError

def FileFailure.at? (failure : Option FileFailure) (step : GiveUpStep) : Option HarnessError :=
  (failure.filter fun failure => failure.step == step).map FileFailure.error

/-- The first part of `#delete`: the copy in the workspace is removed. -/
def InputFileStore.clearCopyUnder (failure : Option FileFailure) (fileId : String)
    (store : InputFileStore) : FileCall Unit :=
  match store.copies.get? fileId with
  | none => store.returns ()
  | some .irregular => store.throws fileUnavailable
  | some (.regular _) =>
    match FileFailure.at? failure .copy with
    | some error => store.throws error
    | none =>
      let store := { store with copies := store.copies.erase fileId }
      match FileFailure.at? failure .directory with
      | some error => store.throws error
      | none => store.returns ()

/-- `#delete`, where a call of the file system may throw. -/
def InputFileStore.deleteUnder (failure : Option FileFailure) (metadata : InputFileMetadata)
    (store : InputFileStore) : FileCall Unit :=
  let fileId := metadata.reference.fileId
  let cleared := store.clearCopyUnder failure fileId
  match cleared.outcome with
  | .error error => cleared.store.throws error
  | .ok _ =>
    let store := cleared.store
    if (store.bodies.get? fileId).isNone || (store.records.get? fileId).isNone then
      store.throws fileUnavailable
    else
      match FileFailure.at? failure .record with
      | some error => store.throws error
      | none =>
        let store := { store with records := store.records.erase fileId }
        match FileFailure.at? failure .body with
        | some error => store.throws error
        | none =>
          { store with
            bodies := store.bodies.erase fileId
            entries := store.entries.erase fileId }.returns ()

/-- One file of `retire`; the record in memory changes before the one on disk. -/
def InputFileStore.retireFileUnder (failure : Option FileFailure) (scope : InputFileScope)
    (metadata : InputFileMetadata) (store : InputFileStore) : FileCall Unit :=
  let remaining := metadata.owners.filter fun owner => owner != scope.owner
  if remaining = [] then store.deleteUnder failure metadata
  else
    let next := { metadata with owners := remaining }
    match FileFailure.at? failure .save with
    | some error =>
      { store with entries := store.entries.set metadata.reference.fileId next }.throws error
    | none => (store.save next).returns ()

def InputFileStore.retireAllUnder (failures : String → Option FileFailure)
    (scope : InputFileScope) : List InputFileMetadata → InputFileStore → FileCall Unit
  | [], store => store.returns ()
  | metadata :: rest, store =>
    if metadata.owned scope then
      let first := store.retireFileUnder (failures metadata.reference.fileId) scope metadata
      match first.outcome with
      | .error error => first.store.throws error
      | .ok _ => retireAllUnder failures scope rest first.store
    else retireAllUnder failures scope rest store

/-- `retire`. -/
def InputFileStore.retireUnder (failures : String → Option FileFailure) (scope : InputFileScope)
    (store : InputFileStore) : FileCall Unit :=
  store.retireAllUnder failures scope store.entries.values

/-! ## The operation -/

inductive RetireFailure where
  /-- Thrown before the binding is removed. -/
  | binding (failure : OperationFailure)
  /-- Thrown by the input files. -/
  | files (error : HarnessError)
deriving DecidableEq

structure RetireCall where
  runner : RunnerStore
  files : InputFileStore
  outcome : Except RetireFailure ConversationResult

def ConversationPlan.fileScope (plan : ConversationPlan) : InputFileScope where
  owner := "conversation:" ++ plan.key
  providerInstanceId := plan.conversation.providerInstanceId
  providerBindingHash := plan.conversation.providerBindingHash
  workspaceId := plan.conversation.workspaceId
  cwd := plan.conversation.cwd

/-- What may fail: writing the state file, opening the file store, and the calls for each file. -/
structure RetireEnvironment where
  moment : Moment
  unopened : Option HarnessError
  failures : String → Option FileFailure

def Manager.retireConversation (manager : Manager) (environment : RetireEnvironment)
    (commandId sessionId : String) (runner : RunnerStore) (files : InputFileStore) : RetireCall :=
  match manager.admitConversation runner ⟨commandId, sessionId, .retire⟩ with
  | .refused error => ⟨runner, files, .error (.binding (.thrown error))⟩
  | .answered result => ⟨runner, files, .ok result⟩
  | .admitted plan =>
    let removed := runner.retireNativeConversation environment.moment plan.key
    match removed.failure with
    | some failure => ⟨removed.state, files, .error (.binding (.store failure))⟩
    | none =>
      let retired := match environment.unopened with
        | some error => files.throws error
        | none => files.retireUnder environment.failures plan.fileScope
      ⟨removed.state, retired.store,
        match retired.outcome with
        | .error error => .error (.files error)
        | .ok _ => .ok { commandId, sessionId, operation := .retire }⟩

/-! ## Runs of both stores -/

structure RetirementRun where
  runner : StoreRun
  files : InputFileRun

inductive RetirementAction where
  | runner (step : StoreStep)
  | files (action : InputFileAction)
  | retire (manager : Manager) (environment : RetireEnvironment) (commandId sessionId : String)

def RetirementRun.step (runtime : Runtime) (host : InputFileHost) (run : RetirementRun) :
    RetirementAction → RetirementRun
  | .runner step => { run with runner := run.runner.step runtime step }
  | .files action => { run with files := run.files.step host action }
  | .retire manager environment commandId sessionId =>
    let call := manager.retireConversation environment commandId sessionId run.runner.store
      run.files.store
    { runner := { run.runner with store := call.runner }
      files := { run.files with store := call.files } }

def RetirementRun.fresh : RetirementRun := ⟨StoreRun.fresh, InputFileRun.empty⟩

end HarnessControl.Harnesses
