import HarnessControl.State.McpReview

/-!
# The runner state store

The data in memory, the state file, and the operations on events, MCP reviews and receipts.  Every
mutating operation changes the data in memory and writes all of it to the file; when a check or the
write fails it puts the earlier entries back and throws.
-/

namespace HarnessControl.State

open HarnessControl.Library HarnessControl.Protocol

structure RunnerStateData where
  events : Dict String (List HarnessEvent)
  commandReceipts : Dict String CommandReceipt
  localActionReceipts : Dict String LocalActionReceipt
  mcpReviews : Dict String McpReview
  nativeConversations : Dict String NativeConversation
  nativeWork : Dict String NativeWorkState
  exitedSessions : Dict String Unit
deriving DecidableEq

def emptyRunnerState : RunnerStateData :=
  ⟨Dict.empty, Dict.empty, Dict.empty, Dict.empty, Dict.empty, Dict.empty, Dict.empty⟩

structure StoreOptions where
  eventRetentionPerSession : Nat
  event_retention_pos : 0 < eventRetentionPerSession
  receiptRetentionMs : Int
  receipt_retention_pos : 0 < receiptRetentionMs

/-- What is fixed over the life of a store: the platform, the schemas, the options. -/
structure Runtime where
  host : Host
  schemas : PayloadSchemas
  options : StoreOptions

/-- A store in use, with the state file; `none` before the file first exists. -/
structure RunnerStore where
  data : RunnerStateData
  disk : Option RunnerStateData
deriving DecidableEq

inductive StoreFailure where
  /-- A value that its schema rejects. -/
  | invalid
  | refused (message : String)
  /-- The state file could not be written. -/
  | unwritten
deriving DecidableEq

/-- The state an operation leaves, and what it throws. -/
structure Attempt (σ : Type) where
  state : σ
  failure : Option StoreFailure

def Attempt.returned {σ : Type} (attempt : Attempt σ) : Bool := attempt.failure.isNone

/-- The time of a call, and whether the state file can be written during it. -/
structure Moment where
  now : Int
  written : Bool

/-- `try {change(); this.persist();} catch (error) {rollback; throw error;}`. -/
def RunnerStore.attempt (store : RunnerStore) (written : Bool)
    (change : RunnerStateData × Option StoreFailure)
    (rollback : RunnerStateData → RunnerStateData) : Attempt RunnerStore :=
  match change.2 with
  | some failure => ⟨{ store with data := rollback change.1 }, some failure⟩
  | none =>
    if written then ⟨⟨change.1, some change.1⟩, none⟩
    else ⟨{ store with data := rollback change.1 }, some .unwritten⟩

/-- An operation that throws before it changes anything. -/
def RunnerStore.refuse (store : RunnerStore) (failure : StoreFailure) : Attempt RunnerStore :=
  ⟨store, some failure⟩

theorem RunnerStore.attempt_cases (store : RunnerStore) (written : Bool)
    (change : RunnerStateData × Option StoreFailure)
    (rollback : RunnerStateData → RunnerStateData) :
    (change.2 = none ∧ written = true ∧
      store.attempt written change rollback = ⟨⟨change.1, some change.1⟩, none⟩) ∨
    ((store.attempt written change rollback).failure ≠ none ∧
      (store.attempt written change rollback).state =
        { store with data := rollback change.1 }) := by
  unfold RunnerStore.attempt
  rcases change with ⟨data, failure⟩
  cases failure with
  | some failure => exact Or.inr ⟨by simp, rfl⟩
  | none =>
    cases written with
    | true => exact Or.inl ⟨rfl, rfl, rfl⟩
    | false => exact Or.inr ⟨by simp, rfl⟩

/-! ## Events -/

def RunnerStateData.sessionEvents (data : RunnerStateData) (sessionId : String) :
    List HarnessEvent :=
  (data.events.get? sessionId).getD []

def RunnerStateData.nextEventSequence (data : RunnerStateData) (sessionId : String) : Nat :=
  ((data.sessionEvents sessionId).getLast?.elim 0 HarnessEvent.sequence) + 1

/-- `while (events.length > retention) events.shift();` -/
def shiftTo (retention : Nat) : List HarnessEvent → List HarnessEvent
  | [] => []
  | event :: rest =>
    if retention < (event :: rest).length then shiftTo retention rest else event :: rest

def sequenceMessage (event : HarnessEvent) (expected : Nat) : String :=
  "Event sequence " ++ toString event.sequence ++ " for session '" ++ event.sessionId ++
    "' does not match expected sequence " ++ toString expected ++ "."

/-- `#appendEvent`. -/
def RunnerStateData.append (options : StoreOptions) (event : HarnessEvent)
    (data : RunnerStateData) : RunnerStateData × Option StoreFailure :=
  let expected := data.nextEventSequence event.sessionId
  if event.sequence ≠ expected then
    (data, some (.refused (sequenceMessage event expected)))
  else
    let events := shiftTo options.eventRetentionPerSession
      (data.sessionEvents event.sessionId ++ [event])
    ({ data with
        events := data.events.set event.sessionId events
        exitedSessions :=
          if event.eventType = "session.exited" then data.exitedSessions.set event.sessionId ()
          else data.exitedSessions }, none)

def RunnerStore.appendEvent (options : StoreOptions) (moment : Moment) (event : HarnessEvent)
    (store : RunnerStore) : Attempt RunnerStore :=
  let previous := store.data.events.get? event.sessionId
  let exited := store.data.exitedSessions.get? event.sessionId
  store.attempt moment.written (store.data.append options event) fun data =>
    { data with
      events := data.events.restore event.sessionId previous
      exitedSessions := data.exitedSessions.restore event.sessionId exited }

def RunnerStore.hasSessionEvents (store : RunnerStore) (sessionId : String) : Bool :=
  decide (0 < (store.data.sessionEvents sessionId).length)

structure RetainedRange where
  sessionId : String
  firstEventSequence : Nat
  lastEventSequence : Nat

def retainedRange? (entry : String × List HarnessEvent) : Option RetainedRange :=
  match entry.2.head?, entry.2.getLast? with
  | some first, some last => some ⟨entry.1, first.sequence, last.sequence⟩
  | _, _ => none

/-- `retainedEventRanges`; the ranges in the order of their session ids. -/
def RunnerStore.retainedEventRanges (host : Host) (store : RunnerStore) :
    Option (List RetainedRange) :=
  let sessions := (store.data.events.entries.filterMap retainedRange?).mergeSort fun left right =>
    host.localeLe left.sessionId right.sessionId
  if 0 < sessions.length then some sessions else none

/-- `replayEventsAfter`; a cursor is an integer. -/
def RunnerStore.replayEventsAfter (store : RunnerStore) (sessionId : String)
    (lastEventSequence : Int) : Option (List HarnessEvent) :=
  match store.data.events.get? sessionId with
  | none => none
  | some events =>
    match events.head?, events.getLast? with
    | some first, some last =>
      if lastEventSequence < first.sequence - 1 ∨ (last.sequence : Int) < lastEventSequence then
        none
      else some (events.filter fun event => decide (lastEventSequence < event.sequence))
    | _, _ => none

/-! ## MCP reviews -/

/-- `#persistMcpChange`. -/
def RunnerStore.persistMcpChange (moment : Moment) (sessionId : String) (store : RunnerStore)
    (change : RunnerStateData × Option StoreFailure) : Attempt RunnerStore :=
  let review := store.data.mcpReviews.get? sessionId
  let events := store.data.events.get? sessionId
  let exited := store.data.exitedSessions.get? sessionId
  store.attempt moment.written change fun data =>
    { data with
      mcpReviews := data.mcpReviews.restore sessionId review
      events := data.events.restore sessionId events
      exitedSessions := data.exitedSessions.restore sessionId exited }

/-- An event that its schema has to accept before it is appended. -/
def RunnerStateData.appendParsed (runtime : Runtime) (event : HarnessEvent)
    (data : RunnerStateData) : RunnerStateData × Option StoreFailure :=
  if event.valid runtime.schemas then data.append runtime.options event
  else (data, some .invalid)

def RunnerStateData.appendOptional (runtime : Runtime) (event : Option HarnessEvent)
    (data : RunnerStateData) : RunnerStateData × Option StoreFailure :=
  match event with
  | none => (data, none)
  | some event => data.appendParsed runtime event

/-- Why `saveMcpReview` refuses a parsed review. -/
def saveMcpReviewProblem (runtime : Runtime) (moment : Moment) (store : RunnerStore)
    (review : McpReview) (event : Option HarnessEvent) : Option String :=
  let previous := store.data.mcpReviews.get? review.start.sessionId
  firstProblem [
    refuseIf (previous.isNone && decide (16 ≤ store.data.mcpReviews.size))
      "Pending MCP continuation capacity exceeded.",
    refuseIf (previous.any fun old => old.requestId != review.requestId)
      "A pending MCP continuation cannot be replaced.",
    refuseIf (runtime.host.sha256 review.action.actionJson != review.action.actionHash)
      "MCP review action hash changed.",
    validateMcpTransition runtime.host moment.now previous review event]

theorem accepted_of_saveMcpReview {runtime : Runtime} {moment : Moment} {store : RunnerStore}
    {review : McpReview} {event : Option HarnessEvent}
    (h : saveMcpReviewProblem runtime moment store review event = none) :
    Accepted runtime.host moment.now review (store.data.mcpReviews.get? review.start.sessionId)
      event := by
  unfold saveMcpReviewProblem at h
  simp only [firstProblem_eq_none, List.forall_mem_cons] at h
  exact accepted_of_validate h.2.2.2.1

def RunnerStore.saveMcpReview (runtime : Runtime) (moment : Moment) (input : McpReview)
    (event : Option HarnessEvent) (store : RunnerStore) : Attempt RunnerStore :=
  match (mcpReviewSchema runtime.host runtime.schemas).parse input with
  | none => store.refuse .invalid
  | some review =>
    match saveMcpReviewProblem runtime moment store review event with
    | some message => store.refuse (.refused message)
    | none =>
      let sessionId := review.start.sessionId
      store.persistMcpChange moment sessionId
        (RunnerStateData.appendOptional runtime event
          { store.data with mcpReviews := store.data.mcpReviews.set sessionId review })

def RunnerStateData.appendCleanup (runtime : Runtime) (sessionId : String) :
    List HarnessEvent → RunnerStateData → RunnerStateData × Option StoreFailure
  | [], data => (data, none)
  | event :: rest, data =>
    if event.sessionId ≠ sessionId then
      (data, some (.refused "MCP cleanup event has another session binding."))
    else
      match data.appendParsed runtime event with
      | (next, none) => appendCleanup runtime sessionId rest next
      | (next, some failure) => (next, some failure)

def RunnerStore.clearMcpReview (runtime : Runtime) (moment : Moment)
    (sessionId requestId : String) (events : List HarnessEvent) (store : RunnerStore) :
    Attempt RunnerStore :=
  if (store.data.mcpReviews.get? sessionId).any fun review => review.requestId == requestId then
    let cleaned := store.data.appendCleanup runtime sessionId events
    store.persistMcpChange moment sessionId
      (match cleaned with
        | (data, none) => ({ data with mcpReviews := data.mcpReviews.erase sessionId }, none)
        | (data, some failure) => (data, some failure))
  else store.refuse (.refused "MCP continuation identity changed.")

/-! ## Receipts -/

/-- `#pruneExpiredReceipts`. -/
def RunnerStateData.prune (options : StoreOptions) (now : Int) (data : RunnerStateData) :
    RunnerStateData :=
  let cutoff := now - options.receiptRetentionMs
  { data with
    commandReceipts := data.commandReceipts.filter fun _ receipt =>
      decide (cutoff ≤ receipt.settledAt)
    localActionReceipts := data.localActionReceipts.filter fun _ receipt =>
      decide (cutoff ≤ receipt.settledAt) }

/-- A write without a rollback: what changed in memory stays changed when it fails. -/
def RunnerStore.write (moment : Moment) (store : RunnerStore) (data : RunnerStateData) :
    Attempt RunnerStore :=
  store.attempt moment.written (data, none) id

/-- The pruning read of `getCommandReceipt` and `getLocalActionReceipt`. -/
def RunnerStore.pruneReceipts (options : StoreOptions) (moment : Moment) (store : RunnerStore) :
    Attempt RunnerStore :=
  let data := store.data.prune options moment.now
  if data = store.data then ⟨store, none⟩ else store.write moment data

def RunnerStore.setCommandReceipt (options : StoreOptions) (moment : Moment) (commandId : String)
    (receipt : CommandReceipt) (store : RunnerStore) : Attempt RunnerStore :=
  store.write moment (RunnerStateData.prune options moment.now
    { store.data with commandReceipts := store.data.commandReceipts.set commandId receipt })

def RunnerStore.setLocalActionReceipt (options : StoreOptions) (moment : Moment)
    (requestId : String) (receipt : LocalActionReceipt) (store : RunnerStore) :
    Attempt RunnerStore :=
  store.write moment (RunnerStateData.prune options moment.now
    { store.data with
      localActionReceipts := store.data.localActionReceipts.set requestId receipt })

/-! ## The state file -/

def ownProperty (key : String) : Bool := key != protoKey

/-- `runnerStateDataSchema.parse`. -/
def RunnerStateData.parse (runtime : Runtime) (data : RunnerStateData) :
    Option RunnerStateData := do
  let schemas := runtime.schemas
  return {
    events := ← ((eventSchema schemas).list.dict ownProperty).parse data.events
    commandReceipts := ←
      ((commandReceiptSchema schemas).dict ownProperty).parse data.commandReceipts
    localActionReceipts := ←
      ((localActionReceiptSchema schemas).dict ownProperty).parse data.localActionReceipts
    mcpReviews := ← ((mcpReviewSchema runtime.host schemas).dict ownProperty).parse data.mcpReviews
    nativeConversations := ←
      ((nativeConversationSchema schemas).dict ownProperty).parse data.nativeConversations
    nativeWork := ← ((nativeWorkStateSchema schemas).dict ownProperty).parse data.nativeWork
    exitedSessions := ← ((Schema.refine fun _ => true).dict ownProperty).parse data.exitedSessions }

/-- `readRunnerState`: without a file the state is empty, and a file that does not parse throws.  The
text of the file stands as the data it was written from, which JSON gives back: a `Json` has no
`-0`, `NaN`, `Infinity` or `undefined` member. -/
def readRunnerState (runtime : Runtime) : Option RunnerStateData → Option RunnerStateData
  | none => some emptyRunnerState
  | some data => data.parse runtime

/-- The constructor marks the sessions whose retained events show their exit. -/
def RunnerStateData.markExits (data : RunnerStateData) : RunnerStateData :=
  { data with
    exitedSessions := data.events.entries.foldl (fun exited entry =>
      if entry.2.any fun event => event.eventType == "session.exited" then exited.set entry.1 ()
      else exited) data.exitedSessions }

/-- A new `JsonRunnerStateStore` on the file, `none` where its constructor throws. -/
def RunnerStore.reopen (runtime : Runtime) (now : Int) (store : RunnerStore) :
    Option RunnerStore :=
  (readRunnerState runtime store.disk).map fun data =>
    { store with data := data.markExits.prune runtime.options now }

def RunnerStore.fresh : RunnerStore := ⟨emptyRunnerState, none⟩

/-! ## A platform for runs on given inputs -/

def emptyHash : String := "e3b0c44298fc1c149afbf4c8996fb92427ae41e4649b934ca495991b7852b855"

/-- Only the empty text is hashed with it. -/
def plainHost : Host where
  sha256 _ := emptyHash
  sha256_hex _ := by decide
  parseJson _ := none
  stringify _ := ""
  workText _ := ""
  parseTime _ := none
  localeLe left right := decide (left ≤ right)

def plainRuntime : Runtime where
  host := plainHost
  schemas := plainSchemas
  options := {
    eventRetentionPerSession := 512
    event_retention_pos := by decide
    receiptRetentionMs := 24 * 60 * 60 * 1000
    receipt_retention_pos := by decide }

end HarnessControl.State
