import HarnessControl.State.CommandReceipts
import HarnessControl.Connection.Commands

/-!
# Local actions

A control plane may deliver a request for a local action more than once.  The first delivery
installs a pending record and dispatches the action; the record is settled when the dispatch
returns, and identical deliveries wait for it or are answered from it.  What a dispatch throws is
caught nowhere: the error payload that the dispatcher builds may be refused by its own schema, and
recording the events of a failed execution may fail as well.
-/

namespace HarnessControl.Connection

open HarnessControl.Library HarnessControl.Protocol HarnessControl.State

/-! ## Errors of the dispatcher -/

/-- What an executor throws, or the cause of the `LocalCapabilityExecutionError` it throws. -/
inductive LocalActionFailure where
  | policy (code message : String)
  | error (message : String)
  /-- A thrown value that is no `Error`. -/
  | other

def protocolCodes : List String :=
  ["local_capability_lease_missing", "local_capability_lease_expired",
    "local_capability_lease_revoked", "local_capability_session_mismatch",
    "local_capability_workspace_mismatch", "local_capability_provider_mismatch",
    "local_capability_scope_not_granted", "local_capability_approval_required",
    "local_capability_expected_hash_mismatch", "local_capability_output_limit_exceeded",
    "local_capability_timeout", "local_capability_cancelled", "local_capability_command_denied",
    "local_capability_dev_server_exists", "local_capability_dev_server_not_found"]

def scopeCodes : List String :=
  ["local_capability_scope_unavailable", "local_capability_not_granted",
    "local_capability_unavailable", "local_capability_provider_unsupported",
    "local_capability_max_calls_exceeded"]

def pathCodes : List String :=
  ["local_capability_path_denied", "local_capability_cwd_denied",
    "local_capability_path_unresolved"]

def commandCodes : List String :=
  ["local_capability_shell_denied", "local_capability_timeout_exceeded",
    "local_capability_network_policy_unsupported", "local_capability_env_denied",
    "local_capability_executable_denied", "local_capability_executable_not_allowed",
    "local_capability_argv_denied", "local_capability_command_policy_required",
    "local_capability_command_policy_invalid", "local_capability_dev_server_host_denied",
    "local_capability_dev_server_port_denied"]

def mapPolicyErrorCode (code : String) : String :=
  if code ∈ protocolCodes then code
  else if code ∈ scopeCodes then "local_capability_scope_not_granted"
  else if code = "local_capability_sandbox_read_only" then "local_capability_sandbox_denied"
  else if code ∈ pathCodes then "local_capability_path_denied"
  else if code ∈ commandCodes then "local_capability_command_denied"
  else if code = "local_capability_dev_server_start_failed" then "local_capability_process_failed"
  else "local_capability_action_failed"

def mapProcessErrorCode (message : String) : String :=
  if "spawn ".toList.isPrefixOf message.toList then "local_capability_process_failed"
  else "local_capability_action_failed"

structure LocalActionError where
  code : String
  message : String
  retryable : Bool

def toLocalActionError : LocalActionFailure → LocalActionError
  | .policy code message => ⟨mapPolicyErrorCode code, message, false⟩
  | .error message => ⟨mapProcessErrorCode message, message, false⟩
  | .other => ⟨"local_capability_action_failed", "Local action failed.", false⟩

def LocalActionError.json (error : LocalActionError) : Json :=
  .obj (.ofList [("code", .str error.code), ("message", .str error.message),
    ("retryable", .bool error.retryable)])

def LocalActionError.status (error : LocalActionError) : String :=
  if error.code = "local_capability_timeout" then "timed_out"
  else if error.code = "local_capability_cancelled" then "cancelled"
  else "failed"

/-! ## Payloads -/

def requestField (request : Json) (key : String) : Json := (request.field? key).getD .null

def requestIdOf (request : Json) : String :=
  match requestField request "request_id" with
  | .str requestId => requestId
  | _ => ""

def auditEvent (eventType : String) (events : List HarnessEvent) : Option Json :=
  (events.find? fun event => event.eventType == eventType).map fun event =>
    .obj (.ofList [("event_type", .str eventType), ("sequence", .num event.sequence)])

/-- `responseAuditEvents` and `errorAuditEvents`, which differ in the event that ends the action. -/
def auditEvents (ending : String) (events : List HarnessEvent) : Json :=
  let started := auditEvent "local_capability.action.started" events
  let last := auditEvent ("local_capability.action." ++ ending) events
  .obj (.ofList ((started.map fun event => ("started", event)).toList ++
    [(ending, last.getD
      (.obj (.ofList [("event_type", .str ("local_capability.action." ++ ending))])))]))

structure DispatchTexts where
  /-- `new Date(milliseconds).toISOString()`. -/
  isoString : Int → String
  /-- The message of the error with which the response parser refuses a payload. -/
  issues : Json → String

/-- The `#responseBase` of a request, with the action and its output. -/
def responsePayload (texts : DispatchTexts) (request output : Json) (events : List HarnessEvent)
    (now : Int) : Json :=
  .obj (.ofList [
    ("request_id", requestField request "request_id"), ("status", .str "completed"),
    ("completed_at", .str (texts.isoString now)),
    ("attribution", requestField request "attribution"), ("lease", requestField request "lease"),
    ("audit_events", auditEvents "completed" events),
    ("action", requestField request "action"), ("output", output)])

def errorPayload (texts : DispatchTexts) (request : Json) (failure : LocalActionFailure)
    (events : List HarnessEvent) (now : Int) : Json :=
  let localError := toLocalActionError failure
  .obj (.ofList [
    ("request_id", requestField request "request_id"), ("action", requestField request "action"),
    ("status", .str localError.status), ("failed_at", .str (texts.isoString now)),
    ("attribution", requestField request "attribution"), ("lease", requestField request "lease"),
    ("error", localError.json), ("audit_events", auditEvents "failed" events)])

/-! ## Dispatch -/

/-- How recording the events of a failed execution ends. -/
inductive Emission where
  | emitted (events : List HarnessEvent)
  /-- A policy error, which is caught. -/
  | denied
  | threw

/-- How the dispatch of a request ends, by what the executor and the session manager do. -/
inductive DispatchEnd where
  /-- The session has already stopped. -/
  | stopped
  | contextFailed (failure : LocalActionFailure)
  /-- The executor returns, and its events are recorded. -/
  | responded (output : Json) (events : List HarnessEvent)
  /-- The executor throws, or recording its events does; an execution error carries events. -/
  | failed (failure : LocalActionFailure) (emission : Option Emission)

/-- The events that `#emitErrorEvents` returns, unless it throws. -/
def Emission.events : Option Emission → Option (List HarnessEvent)
  | none | some .denied => some []
  | some (.emitted events) => some events
  | some .threw => none

/-- `#errorOutcome`; it throws on a payload that the protocol refuses. -/
def errorOutcome (schemas : PayloadSchemas) (texts : DispatchTexts) (request : Json) (now : Int)
    (failure : LocalActionFailure) (emission : Option Emission) : Option LocalActionOutcome :=
  (Emission.events emission).bind fun events =>
    let payload := errorPayload texts request failure events now
    if schemas.localActionError payload then some (.error payload) else none

def stoppedSession : LocalActionFailure :=
  .policy "local_capability_lease_revoked" "Local action session has already stopped."

/-- `dispatch`; `none` when it throws. -/
def dispatch (schemas : PayloadSchemas) (texts : DispatchTexts) (request : Json) (now : Int) :
    DispatchEnd → Option LocalActionOutcome
  | .stopped => errorOutcome schemas texts request now stoppedSession none
  | .contextFailed failure => errorOutcome schemas texts request now failure none
  | .responded output events =>
    let payload := responsePayload texts request output events now
    if schemas.localActionResponse payload then some (.response payload)
    else errorOutcome schemas texts request now (.error (texts.issues payload)) none
  | .failed failure emission => errorOutcome schemas texts request now failure emission

def duplicatePayloadMismatch (schemas : PayloadSchemas) (texts : DispatchTexts) (request : Json)
    (now : Int) (emission : Emission) : Option LocalActionOutcome :=
  errorOutcome schemas texts request now
    (.policy "local_capability_action_failed" ("Local action request '" ++ requestIdOf request ++
      "' was already seen with a different payload."))
    (some emission)

/-! ## Records -/

structure SettledLocalActionRecord where
  payloadHash : String
  requestPayload : Json
  outcome : LocalActionOutcome

inductive LocalActionRecord where
  | pending (payloadHash : String) (requestPayload : Json)
  | settled (record : SettledLocalActionRecord)

def LocalActionRecord.payloadHash : LocalActionRecord → String
  | .pending payloadHash _ => payloadHash
  | .settled record => record.payloadHash

def localActionRecordFromReceipt (receipt : LocalActionReceipt) : SettledLocalActionRecord :=
  ⟨receipt.payloadHash, receipt.requestPayload, receipt.outcome⟩

def SettledLocalActionRecord.receipt (settledAt : Int) (record : SettledLocalActionRecord) :
    LocalActionReceipt :=
  ⟨record.payloadHash, record.requestPayload, settledAt, record.outcome⟩

/-! ## The machine -/

/-- A delivery of a request, by its id, the hash of its payload and the payload. -/
structure LocalActionDelivery where
  requestId : String
  payloadHash : String
  requestPayload : Json
deriving DecidableEq

def localActionDelivery (host : Host) (envelope : Envelope) : LocalActionDelivery :=
  ⟨requestIdOf envelope.payload, hashCommandPayload host envelope, envelope.payload⟩

def LocalActionDelivery.settledBy (delivery : LocalActionDelivery) (outcome : LocalActionOutcome) :
    SettledLocalActionRecord :=
  ⟨delivery.payloadHash, delivery.requestPayload, outcome⟩

/-- A response or an error that was sent, with the delivery it answers. -/
structure LocalActionReply where
  requestId : String
  payloadHash : String
  record : SettledLocalActionRecord

/-- A dispatch that was started, and how many answers had been sent by then. -/
structure LocalActionExecution extends LocalActionDelivery where
  sentBefore : Nat

/-- A dispatch that returned. -/
structure LocalActionResult extends LocalActionDelivery where
  outcome : LocalActionOutcome
  settledAt : Int

def LocalActionResult.record (result : LocalActionResult) : SettledLocalActionRecord :=
  result.settledBy result.outcome

structure LocalActionState where
  store : RunnerStore
  /-- `#localActionRecords`. -/
  records : Dict String LocalActionRecord
  /-- `#localActionMismatchRecords`. -/
  mismatchRecords : Dict String SettledLocalActionRecord
  /-- The completion promises that have been resolved. -/
  completions : Dict String SettledLocalActionRecord
  /-- Deliveries whose dispatch has not settled. -/
  running : List LocalActionDelivery
  /-- Deliveries that await a completion. -/
  waiting : List LocalActionDelivery
  /-- The current socket is open. -/
  connected : Bool
  clock : Int
  /-- Every answer sent so far. -/
  replies : List LocalActionReply
  executed : List LocalActionExecution
  results : List LocalActionResult
  /-- Identical deliveries that a failed read of the receipts left unanswered. -/
  missed : List LocalActionDelivery

inductive LocalActionAction where
  /-- A request arrives; the emission is that of a mismatch. -/
  | deliver (envelope : Envelope) (emission : Emission) (written : Bool)
  /-- The dispatch of the running delivery at an index settles. -/
  | finish (index : Nat) (ending : DispatchEnd) (written : Bool)
  /-- A waiting delivery resumes. -/
  | resume (index : Nat)
  | socket (isOpen : Bool)
  | elapse (milliseconds : Nat)
  /-- Anything else that the process does to the store. -/
  | storeCall (action : StoreAction) (written : Bool)

/-- `#sendLocalActionRecord`, which throws on a socket that is not open. -/
def LocalActionState.send (state : LocalActionState) (delivery : LocalActionDelivery)
    (record : SettledLocalActionRecord) : LocalActionState :=
  if state.connected then
    { state with
      replies := state.replies ++ [⟨delivery.requestId, delivery.payloadHash, record⟩] }
  else state

/-- The record of an id, in memory or from an unexpired receipt. -/
def LocalActionState.existing (options : StoreOptions) (state : LocalActionState)
    (requestId : String) : Option LocalActionRecord :=
  (state.records.get? requestId).or
    (((state.store.data.prune options state.clock).localActionReceipts.get? requestId).map
      fun receipt => .settled (localActionRecordFromReceipt receipt))

/-- The branch for a payload that differs from that of the record. -/
def LocalActionState.mismatch (runtime : Runtime) (texts : DispatchTexts)
    (delivery : LocalActionDelivery) (emission : Emission) (state : LocalActionState) :
    LocalActionState :=
  let mismatchKey := delivery.requestId ++ ":" ++ delivery.payloadHash
  match state.mismatchRecords.get? mismatchKey with
  | some record => state.send delivery record
  | none =>
    match duplicatePayloadMismatch runtime.schemas texts delivery.requestPayload state.clock
        emission with
    | none => state
    | some outcome =>
      let record := delivery.settledBy outcome
      { state with
        mismatchRecords := state.mismatchRecords.set mismatchKey record }.send delivery record

/-- The part of `#handleLocalAction` before the dispatch or the completion is awaited. -/
def LocalActionState.deliver (runtime : Runtime) (texts : DispatchTexts) (envelope : Envelope)
    (emission : Emission) (written : Bool) (state : LocalActionState) : LocalActionState :=
  let delivery := localActionDelivery runtime.host envelope
  let read := state.store.pruneReceipts runtime.options ⟨state.clock, written⟩
  let existing := state.existing runtime.options delivery.requestId
  let state := { state with store := read.state }
  if read.failure ≠ none then
    -- `getLocalActionReceipt` throws
    if existing.any fun record => record.payloadHash == delivery.payloadHash then
      { state with missed := state.missed ++ [delivery] }
    else state
  else
    match existing with
    | none =>
      { state with
        records := state.records.set delivery.requestId
          (.pending delivery.payloadHash delivery.requestPayload)
        running := state.running ++ [delivery]
        executed := state.executed ++
          [{ toLocalActionDelivery := delivery, sentBefore := state.replies.length }] }
    | some record =>
      if record.payloadHash = delivery.payloadHash then
        match record with
        | .pending _ _ => { state with waiting := state.waiting ++ [delivery] }
        | .settled record => state.send delivery record
      else state.mismatch runtime texts delivery emission

/-- The part of `#handleLocalAction` after the dispatch. -/
def LocalActionState.finish (runtime : Runtime) (texts : DispatchTexts)
    (delivery : LocalActionDelivery) (ending : DispatchEnd) (written : Bool)
    (state : LocalActionState) : LocalActionState :=
  match dispatch runtime.schemas texts delivery.requestPayload state.clock ending with
  | none => state
  | some outcome =>
    let record := delivery.settledBy outcome
    let write := state.store.setLocalActionReceipt runtime.options ⟨state.clock, written⟩
      delivery.requestId (record.receipt state.clock)
    let state := { state with
      records := state.records.set delivery.requestId (.settled record)
      store := write.state
      results := state.results ++
        [{ toLocalActionDelivery := delivery, outcome, settledAt := state.clock }] }
    -- a failed write leaves the promise unresolved
    if write.failure ≠ none then state
    else
      { state with completions := state.completions.set delivery.requestId record }.send
        delivery record

def LocalActionState.step (runtime : Runtime) (texts : DispatchTexts) (state : LocalActionState) :
    LocalActionAction → LocalActionState
  | .deliver envelope emission written => state.deliver runtime texts envelope emission written
  | .finish index ending written =>
    match state.running[index]? with
    | none => state
    | some delivery =>
      { state with running := state.running.eraseIdx index }.finish runtime texts delivery
        ending written
  | .resume index =>
    match state.waiting[index]? with
    | none => state
    | some delivery =>
      match state.completions.get? delivery.requestId with
      | none => state
      | some record =>
        { state with waiting := state.waiting.eraseIdx index }.send delivery record
  | .socket isOpen => { state with connected := isOpen }
  | .elapse milliseconds => { state with clock := state.clock + milliseconds }
  | .storeCall action written =>
    match action with
    | .setLocalActionReceipt _ _ => state
    | action =>
      { state with store := (state.store.perform runtime ⟨state.clock, written⟩ action).state }

/-- A process that has just opened its store, with the receipts of earlier ones. -/
def LocalActionState.start (store : RunnerStore) (clock : Int) : LocalActionState :=
  { store, records := Dict.empty, mismatchRecords := Dict.empty, completions := Dict.empty
    running := [], waiting := [], connected := false, clock, replies := [], executed := []
    results := [], missed := [] }

end HarnessControl.Connection
