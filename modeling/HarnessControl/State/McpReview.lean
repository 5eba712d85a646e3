import HarnessControl.State.Records

/-!
# Persisted MCP reviews

One operation of an MCP tool that waits for a human: its binding, which never changes, and its
outcome, which `validateMcpTransition` lets move between ten phases, most of them together with
the event that announces the move.
-/

namespace HarnessControl.State

open HarnessControl.Library HarnessControl.Protocol

/-! ## Records -/

structure NativeRequestIdentity where
  nativeReference : String
  requestReference : Option String
  messageReference : Option String
  callReference : Option String
  itemReference : Option String
  executionReference : Option String
deriving DecidableEq

def NativeRequestIdentity.valid (request : NativeRequestIdentity) : Bool :=
  identity request.nativeReference && optionally identity request.requestReference &&
  optionally identity request.messageReference && optionally identity request.callReference &&
  optionally identity request.itemReference && optionally identity request.executionReference &&
  (request.requestReference.isSome || request.callReference.isSome || request.itemReference.isSome)

def textField (key : String) : Option String → List (String × Json)
  | none => []
  | some value => [(key, .str value)]

def NativeRequestIdentity.toJson (request : NativeRequestIdentity) : Json :=
  .obj (JsonFields.ofList ([("source", .str "native"),
    ("native_reference", .str request.nativeReference)] ++
    textField "request_reference" request.requestReference ++
    textField "message_reference" request.messageReference ++
    textField "call_reference" request.callReference ++
    textField "item_reference" request.itemReference ++
    textField "execution_reference" request.executionReference))

/-- The exact text that a reviewer is shown, and its hash. -/
structure ReviewAction where
  actionJson : String
  actionHash : String
deriving DecidableEq

structure InputRound where
  inputRequestId : String
  protocolRound : Nat
  reviewActorId : Option String
deriving DecidableEq

/-- What a tool still needs from a human before it can complete. -/
structure PendingInput where
  inputRequests : Dict String Json
  requestState : Option String
  metadata : Option (Dict String Json)
deriving DecidableEq

structure InputReply where
  pending : PendingInput
  responses : Dict String Json
deriving DecidableEq

inductive ReviewDecision where
  | accept
  | decline
deriving DecidableEq

inductive McpOutcome where
  | waiting
  | dispatching (actorId : String)
  | declined (actorId : String)
  | inputWaiting (round : InputRound) (pending : PendingInput)
  | inputResuming (round : InputRound) (reply : InputReply) (actorId : String)
  | reviewWaiting (round : InputRound) (action : ReviewAction) (pending : PendingInput)
  | reviewResuming (round : InputRound) (action : ReviewAction) (reply : InputReply)
    (actorId : String) (decision : ReviewDecision)
  | expiryResuming (round : InputRound) (reply : InputReply)
  | expiryCompleted (resultJson : String)
  | completed (actorId : String) (resultJson : String)
deriving DecidableEq

/-- Everything of a review but its outcome. -/
structure McpOperation where
  start : SessionStartPayload
  turn : TurnSendPayload
  nativeThreadId : String
  nativeTurnId : String
  nativeCallId : String
  nativeWorkId : Option String
  nativeRequest : Option NativeRequestIdentity
  requestId : String
  action : ReviewAction
  expiresAt : Int
deriving DecidableEq

structure McpReview extends McpOperation where
  outcome : McpOutcome
deriving DecidableEq

/-! ## Review actions -/

def mcpReviewMaxActionBytes : Nat := 64 * 1024

def mcpReviewMaxRequestIdLength : Nat := 256

def mcpReviewMetaKey : String := "io.harness-control/review-v1"

structure DelegatedSubject where
  operationId : String
  toolName : String
  arguments : Json
  binding : String

structure McpReviewAction where
  attachmentName : String
  toolName : String
  arguments : Json
  delegatedSubject : Option DelegatedSubject

structure DelegatedReviewRequest where
  inputRequestId : String
  subject : DelegatedSubject

def strictFields (keys : List String) : Json → Option JsonFields
  | .obj fields => if fields.keys.all keys.contains then some fields else none
  | _ => none

def textOf (valid : String → Bool) : Json → Option String
  | .str text => if valid text then some text else none
  | _ => none

def recordOf : Json → Option Json
  | .obj fields => some (.obj fields.kept)
  | _ => none

def delegatedSubject? (value : Json) : Option DelegatedSubject := do
  let fields ← strictFields ["operation_id", "tool_name", "arguments", "binding"] value
  return {
    operationId := ← (← fields.get? "operation_id") |> textOf (boundedText 256)
    toolName := ← (← fields.get? "tool_name") |> textOf (· != "")
    arguments := ← (← fields.get? "arguments") |> recordOf
    binding := ← (← fields.get? "binding") |> textOf (boundedText mcpReviewMaxActionBytes) }

/-- `mcpReviewActionSchema`. -/
def mcpReviewAction? (value : Json) : Option McpReviewAction := do
  let fields ← strictFields
    ["kind", "attachment_name", "tool_name", "arguments", "delegated_subject"] value
  let _ ← (← fields.get? "kind") |> textOf (· == "mcp_tool")
  return {
    attachmentName := ← (← fields.get? "attachment_name") |> textOf (· != "")
    toolName := ← (← fields.get? "tool_name") |> textOf (· != "")
    arguments := ← (← fields.get? "arguments") |> recordOf
    delegatedSubject := ← match fields.get? "delegated_subject" with
      | none => some none
      | some subject => (delegatedSubject? subject).map some }

/-- `mcpDelegatedReviewRequestSchema`. -/
def delegatedReviewRequest? (value : Json) : Option DelegatedReviewRequest := do
  let fields ← strictFields ["kind", "input_request_id", "subject"] value
  let _ ← (← fields.get? "kind") |> textOf (· == "delegated")
  return {
    inputRequestId := ← (← fields.get? "input_request_id")
      |> textOf (boundedText mcpReviewMaxRequestIdLength)
    subject := ← (← fields.get? "subject") |> delegatedSubject? }

def Host.mcpReviewAction? (host : Host) (actionJson : String) : Option McpReviewAction :=
  (host.parseJson actionJson).bind State.mcpReviewAction?

/-- `mcpReviewActionBytes` does not throw. -/
def Host.reviewableAction (host : Host) (actionJson : String) : Bool :=
  decide (0 < actionJson.utf8ByteSize) &&
  decide (actionJson.utf8ByteSize ≤ mcpReviewMaxActionBytes) &&
  (host.mcpReviewAction? actionJson).isSome

def DelegatedSubject.deepEqual (a b : DelegatedSubject) : Bool :=
  a.operationId == b.operationId && a.toolName == b.toolName &&
  a.arguments.deepEqual b.arguments && a.binding == b.binding

/-- `isDeepStrictEqual(action, {...root, delegated_subject: subject})`. -/
def McpReviewAction.delegates (action root : McpReviewAction) (subject : DelegatedSubject) :
    Bool :=
  action.attachmentName == root.attachmentName && action.toolName == root.toolName &&
  action.arguments.deepEqual root.arguments && action.delegatedSubject.any subject.deepEqual

/-! ## Pending input and replies -/

def dictFields (d : Dict String Json) : Json := .obj (JsonFields.ofList d.entries)

def PendingInput.toJson (pending : PendingInput) : Json :=
  .obj (JsonFields.ofList ([("resultType", .str "input_required"),
    ("inputRequests", dictFields pending.inputRequests)] ++
    (match pending.metadata with
      | none => []
      | some values => [("_meta", dictFields values)]) ++
    textField "requestState" pending.requestState))

def jsonRecordKept (d : Dict String Json) : Dict String Json := (recordKept d).map Json.kept

theorem jsonRecordKept_jsonRecordKept (d : Dict String Json) :
    jsonRecordKept (jsonRecordKept d) = jsonRecordKept d := by
  apply Dict.ext
  simp only [jsonRecordKept, recordKept, Dict.map, Dict.filter, List.filter_map, List.map_map,
    List.filter_filter]
  congr 1
  · funext e
    exact congrArg (Prod.mk e.1) e.2.kept_kept
  · congr 1
    funext e
    exact Bool.and_self _

/-- The requests and the metadata are records, the metadata of JSON values. -/
def PendingInput.kept (pending : PendingInput) : PendingInput :=
  { pending with
    inputRequests := recordKept pending.inputRequests
    metadata := pending.metadata.map jsonRecordKept }

theorem PendingInput.kept_kept (pending : PendingInput) : pending.kept.kept = pending.kept := by
  rcases pending with ⟨requests, state, metadata⟩
  cases metadata with
  | none => simp only [PendingInput.kept, recordKept_recordKept, Option.map_none]
  | some values =>
    simp only [PendingInput.kept, recordKept_recordKept, jsonRecordKept_jsonRecordKept,
      Option.map_some]

/-- `parseMcpPendingInput` does not throw. -/
def PendingInput.valid (schemas : PayloadSchemas) (pending : PendingInput) : Bool :=
  (pending.inputRequests.values.all schemas.inputRequest) &&
  !(pending.inputRequests.size == 0 && pending.requestState.isNone) &&
  decide (schemas.jsonBytes pending.toJson ≤ 1024 * 1024)

def InputReply.kept (reply : InputReply) : InputReply :=
  { pending := reply.pending.kept, responses := jsonRecordKept reply.responses }

theorem InputReply.kept_kept (reply : InputReply) : reply.kept.kept = reply.kept := by
  simp only [InputReply.kept, PendingInput.kept_kept, jsonRecordKept_jsonRecordKept]

/-- `mcpInputReplySchema`: the responses answer exactly the pending requests. -/
def InputReply.valid (schemas : PayloadSchemas) (reply : InputReply) : Bool :=
  reply.pending.valid schemas && decide (schemas.jsonBytes (dictFields reply.responses) ≤ 1024 * 1024) &&
  decide (reply.pending.inputRequests.size = reply.responses.size) &&
  reply.pending.inputRequests.entries.all fun entry =>
    (reply.responses.get? entry.1).any (schemas.inputResponse entry.2)

/-! ## The schema of a review -/

def ReviewAction.valid (host : Host) (action : ReviewAction) : Bool :=
  boundedText mcpReviewMaxActionBytes action.actionJson &&
  host.reviewableAction action.actionJson && sha256Hex action.actionHash

def InputRound.valid (round : InputRound) : Bool :=
  boundedText mcpReviewMaxRequestIdLength round.inputRequestId &&
  decide (1 ≤ round.protocolRound) && decide (round.protocolRound ≤ 9) &&
  round.reviewActorId != some ""

def resultText (resultJson : String) : Bool := decide (resultJson.utf8ByteSize ≤ 1024 * 1024)

def McpOutcome.kept : McpOutcome → McpOutcome
  | .inputWaiting round pending => .inputWaiting round pending.kept
  | .inputResuming round reply actorId => .inputResuming round reply.kept actorId
  | .reviewWaiting round action pending => .reviewWaiting round action pending.kept
  | .reviewResuming round action reply actorId decision =>
    .reviewResuming round action reply.kept actorId decision
  | .expiryResuming round reply => .expiryResuming round reply.kept
  | outcome => outcome

theorem McpOutcome.kept_kept (outcome : McpOutcome) : outcome.kept.kept = outcome.kept := by
  cases outcome <;> simp only [McpOutcome.kept, PendingInput.kept_kept, InputReply.kept_kept]

def McpOutcome.valid (host : Host) (schemas : PayloadSchemas) : McpOutcome → Bool
  | .waiting => true
  | .dispatching actorId | .declined actorId => actorId != ""
  | .inputWaiting round pending => round.valid && pending.valid schemas
  | .inputResuming round reply actorId => round.valid && reply.valid schemas && actorId != ""
  | .reviewWaiting round action pending =>
    round.valid && action.valid host && pending.valid schemas
  | .reviewResuming round action reply actorId _ =>
    round.valid && action.valid host && reply.valid schemas && actorId != ""
  | .expiryResuming round reply => round.valid && reply.valid schemas
  | .expiryCompleted resultJson => resultText resultJson
  | .completed actorId resultJson => actorId != "" && resultText resultJson

/-- A native observation describes the call that the review is about. -/
def McpOperation.observes (operation : McpOperation) (request : NativeRequestIdentity) : Bool :=
  request.nativeReference == operation.nativeThreadId &&
  (request.callReference.all (· == operation.nativeCallId)) &&
  (request.executionReference.all (· == operation.nativeTurnId))

def McpOperation.valid (host : Host) (schemas : PayloadSchemas) (operation : McpOperation) :
    Bool :=
  operation.start.valid schemas && operation.turn.valid schemas &&
  operation.nativeThreadId != "" && operation.nativeTurnId != "" &&
  operation.nativeCallId != "" && optionally identity operation.nativeWorkId &&
  optionally NativeRequestIdentity.valid operation.nativeRequest &&
  boundedText mcpReviewMaxRequestIdLength operation.requestId && operation.action.valid host &&
  operation.start.sessionId == operation.turn.sessionId &&
  (operation.nativeRequest.all operation.observes)

def McpReview.kept (review : McpReview) : McpReview := { review with outcome := review.outcome.kept }

def McpReview.valid (host : Host) (schemas : PayloadSchemas) (review : McpReview) : Bool :=
  review.toMcpOperation.valid host schemas && review.outcome.valid host schemas

/-- `persistedMcpReviewSchema`. -/
def mcpReviewSchema (host : Host) (schemas : PayloadSchemas) : Schema McpReview :=
  Schema.normalized McpReview.kept
    (fun review => congrArg (fun outcome => { review with outcome }) review.outcome.kept_kept)
    (McpReview.valid host schemas)

/-! ## Transitions -/

def eventField (event : HarnessEvent) (key : String) : Option Json := event.data.field? key

def eventText (event : HarnessEvent) (key value : String) : Bool :=
  eventField event key == some (.str value)

/-- The event carries the native attribution of the operation. -/
def attributed (operation : McpOperation) (event : HarnessEvent) : Bool :=
  event.data.isObject && eventField event "native_work_id" == operation.nativeWorkId.map .str

def observed (operation : McpOperation) (event : HarnessEvent) : Bool :=
  match eventField event "native_request", operation.nativeRequest with
  | none, none => true
  | some found, some request => found.deepEqual request.toJson
  | _, _ => false

def InputRound.reviewed (round : InputRound) (subjectId : String) (action : ReviewAction)
    (decision : ReviewDecision) : Json :=
  match decision with
  | .decline => .obj (.cons subjectId (.obj (.cons "action" (.str "decline") .nil)) .nil)
  | .accept => .obj (.cons subjectId (.obj (.cons "action" (.str "accept")
    (.cons "content" (.obj (.cons "request_id" (.str round.inputRequestId)
      (.cons "action_json" (.str action.actionJson) .nil))) .nil))) .nil)

/-- The delegated action is the parent operation's, for the one pending request. -/
def delegatedMatches (host : Host) (operation : McpOperation) (action : ReviewAction)
    (pending : PendingInput) : Option DelegatedReviewRequest := do
  let delegated ← (pending.metadata.bind fun values => values.get? mcpReviewMetaKey).bind
    delegatedReviewRequest?
  let root ← host.mcpReviewAction? operation.action.actionJson
  let shown ← host.mcpReviewAction? action.actionJson
  if root.delegatedSubject.isNone && shown.delegates root delegated.subject &&
      host.reviewableAction action.actionJson &&
      host.sha256 action.actionJson == action.actionHash &&
      pending.inputRequests.keys == [delegated.inputRequestId] then
    some delegated
  else none

def delegation (host : Host) (operation : McpOperation) : McpOutcome → Bool
  | .reviewWaiting _ action pending => (delegatedMatches host operation action pending).isSome
  | .reviewResuming round action reply _ decision =>
    (delegatedMatches host operation action reply.pending).any fun delegated =>
      (dictFields reply.responses).deepEqual
        (round.reviewed delegated.inputRequestId action decision)
  | _ => true

/-- The phases a new review may be created in. -/
def McpOutcome.initial : McpOutcome → Bool
  | .waiting => true
  | .inputWaiting round _ | .reviewWaiting round _ _ =>
    round.protocolRound == 1 && round.reviewActorId.isNone
  | _ => false

def InputRound.next (old new : InputRound) : Bool :=
  new.protocolRound == old.protocolRound + 1 && new.inputRequestId != old.inputRequestId &&
  new.reviewActorId == old.reviewActorId

def McpOutcome.opens : McpOutcome → Option InputRound
  | .inputWaiting round _ | .reviewWaiting round _ _ => some round
  | _ => none

def inputOnExpiryKey : String := "com.prompt2agent/input-on-expiry"

def inputDeadlineKey : String := "com.prompt2agent/input-deadline"

/-- `mcpInputExpiresAt`; `none` where the deadline of the server is no timestamp. -/
def mcpInputExpiresAt (host : Host) (pending : PendingInput) (callerExpiry : Int) : Option Int :=
  match pending.metadata.bind fun values => values.get? inputDeadlineKey with
  | none => some callerExpiry
  | some hint => (host.parseTime hint).map (min callerExpiry)

def cancelled (requests : Dict String Json) : Json :=
  dictFields (requests.map fun _ => .obj (.cons "action" (.str "cancel") .nil))

/-- The server asked for cancellation, its deadline has passed and the caller's has not. -/
def expires (host : Host) (now expiresAt : Int) (pending : PendingInput) (reply : InputReply) :
    Bool :=
  (pending.metadata.bind fun values => values.get? inputOnExpiryKey) == some (.str "cancel") &&
  ((mcpInputExpiresAt host pending expiresAt).any fun deadline => decide (deadline ≤ now)) &&
  decide (now < expiresAt) && reply.pending.toJson.deepEqual pending.toJson &&
  (dictFields reply.responses).deepEqual (cancelled pending.inputRequests)

/-- The edges between the ten phases; `announced` says that an event goes with the transition. -/
def advances (host : Host) (now expiresAt : Int) (announced : Bool) (old new : McpOutcome) :
    Bool :=
  match old, new with
  | .waiting, .dispatching _ | .waiting, .declined _ => announced
  | .dispatching actorId, .completed completedBy _ => completedBy == actorId && !announced
  | .dispatching actorId, .inputWaiting round _
  | .dispatching actorId, .reviewWaiting round _ _ =>
    round.protocolRound == 1 && round.reviewActorId == some actorId && announced
  | .inputWaiting round pending, .inputResuming next reply _ =>
    next == round && reply.pending == pending && announced
  | .reviewWaiting round action pending, .reviewResuming next nextAction reply _ _ =>
    next == round && reply.pending == pending && nextAction == action && announced
  | .inputWaiting round pending, .expiryResuming next reply
  | .reviewWaiting round _ pending, .expiryResuming next reply =>
    !announced && next == round && expires host now expiresAt pending reply
  | .expiryResuming _ _, .expiryCompleted _ => !announced
  | .inputResuming _ _ actorId, .completed completedBy _
  | .reviewResuming _ _ _ actorId _, .completed completedBy _ =>
    completedBy == actorId && !announced
  | .inputResuming round _ _, .inputWaiting next _
  | .inputResuming round _ _, .reviewWaiting next _ _
  | .reviewResuming round _ _ _ _, .inputWaiting next _
  | .reviewResuming round _ _ _ _, .reviewWaiting next _ _ => round.next next && announced
  | _, _ => false

def McpOutcome.requestId (operation : McpOperation) : McpOutcome → String
  | .inputWaiting round _ | .inputResuming round _ _ | .reviewWaiting round _ _
  | .reviewResuming round _ _ _ _ | .expiryResuming round _ => round.inputRequestId
  | _ => operation.requestId

def McpOutcome.eventType : McpOutcome → String
  | .waiting | .reviewWaiting _ _ _ => "approval.requested"
  | .inputWaiting _ _ => "input.requested"
  | .inputResuming _ _ _ => "input.resolved"
  | _ => "approval.resolved"

/-- The event names the session, the turn and the request of the outcome. -/
def announces (operation : McpOperation) (outcome : McpOutcome) (event : HarnessEvent) : Bool :=
  event.sessionId == operation.start.sessionId && event.turnId == some operation.turn.turnId &&
  event.eventType == outcome.eventType &&
  eventText event "request_id" (outcome.requestId operation) &&
  eventText event "session_id" operation.start.sessionId &&
  eventText event "turn_id" operation.turn.turnId

def ReviewDecision.text : ReviewDecision → String
  | .accept => "accept"
  | .decline => "decline"

def shows (event : HarnessEvent) (action : ReviewAction) : Bool :=
  eventText event "action_hash" action.actionHash && eventText event "action" action.actionJson

def decides (event : HarnessEvent) (action : ReviewAction) (actorId : String)
    (decision : ReviewDecision) : Bool :=
  eventText event "action_hash" action.actionHash && eventText event "actor_id" actorId &&
  eventText event "decision" decision.text

/-- What the event of an outcome has to carry besides the names. -/
def carries (operation : McpOperation) (event : HarnessEvent) : McpOutcome → Bool
  | .waiting => shows event operation.action
  | .dispatching actorId => decides event operation.action actorId .accept
  | .declined actorId => decides event operation.action actorId .decline
  | .inputWaiting _ _ => true
  | .inputResuming _ _ actorId => eventText event "actor_id" actorId
  | .reviewWaiting _ action _ => shows event action
  | .reviewResuming _ action _ actorId decision => decides event action actorId decision
  | .completed actorId _ => decides event operation.action actorId .accept
  | .expiryResuming _ _ | .expiryCompleted _ => false

def eventMessage (next : McpReview) (event : HarnessEvent) : String :=
  let operation := next.toMcpOperation
  let announced := announces operation next.outcome event
  match next.outcome with
  | .expiryResuming _ _ | .expiryCompleted _ =>
    "Automatic expiry cannot record a human decision event."
  | .reviewWaiting _ _ _ | .reviewResuming _ _ _ _ _ =>
    "Delegated MCP review event differs from its private continuation."
  | .inputWaiting _ _ | .inputResuming _ _ _ =>
    if !announced then "MCP event differs from its private continuation."
    else "MCP input decision differs from its private continuation."
  | .waiting | .dispatching _ | .declined _ | .completed _ _ =>
    if !announced then "MCP event differs from its private continuation."
    else if next.outcome = .waiting ∨
        !(eventText event "action_hash" operation.action.actionHash) then
      "MCP review event differs from its private continuation."
    else "MCP review decision differs from its private continuation."

/-- The event announces the outcome and carries its data, which no event does for an expiry. -/
def announcesOutcome (next : McpReview) (event : HarnessEvent) : Bool :=
  announces next.toMcpOperation next.outcome event && carries next.toMcpOperation event next.outcome

/-- Why a transition is refused, in the order of the checks. -/
def validateMcpTransition (host : Host) (now : Int) (previous : Option McpReview)
    (next : McpReview) (event : Option HarnessEvent) : Option String :=
  firstProblem [
    refuseIf (!(event.all (attributed next.toMcpOperation)))
      "MCP review event changed its native work attribution.",
    refuseIf (!(event.all (observed next.toMcpOperation)))
      "MCP review event changed its verified native observation.",
    refuseIf (!(delegation host next.toMcpOperation next.outcome))
      "Delegated MCP review differs from its parent operation or pending subject.",
    refuseIf (previous.isNone && !(next.outcome.initial && event.isSome))
      "A new MCP continuation requires its waiting event.",
    refuseIf (previous.any fun old => old.toMcpOperation != next.toMcpOperation)
      "MCP continuation transition changed its binding.",
    -- an identical save without an event changes nothing
    refuseIf (previous.any fun old => !(old.outcome == next.outcome && event.isNone) &&
        !(advances host now old.expiresAt event.isSome old.outcome next.outcome))
      "MCP continuation transition would change or replay its operation.",
    event.bind fun event => refuseIf (!(announcesOutcome next event)) (eventMessage next event)]

/-! ## Accepted transitions -/

/-- What `validateMcpTransition` lets through. -/
inductive Accepted (host : Host) (now : Int) (next : McpReview) :
    Option McpReview → Option HarnessEvent → Prop
  | created {event : HarnessEvent} (initial : next.outcome.initial = true)
    (announced : announcesOutcome next event = true) : Accepted host now next none (some event)
  | repeated : Accepted host now next (some next) none
  | advanced {old : McpReview} {event : Option HarnessEvent}
    (binding : old.toMcpOperation = next.toMcpOperation)
    (edge : advances host now old.expiresAt event.isSome old.outcome next.outcome = true)
    (announced : ∀ e ∈ event, announcesOutcome next e = true) :
    Accepted host now next (some old) event

theorem accepted_of_validate {host : Host} {now : Int} {previous : Option McpReview}
    {next : McpReview} {event : Option HarnessEvent}
    (h : validateMcpTransition host now previous next event = none) :
    Accepted host now next previous event := by
  unfold validateMcpTransition at h
  simp only [firstProblem_eq_none, List.forall_mem_cons, refuseIf_eq_none] at h
  rcases h with ⟨-, -, -, hcreated, hbinding, hedge, hevent, -⟩
  have hannounced : ∀ e ∈ event, announcesOutcome next e = true := by
    intro e he
    rw [Option.mem_def] at he
    rw [he] at hevent
    simpa using hevent
  cases previous with
  | none =>
    simp only [Option.isNone_none, Bool.true_and, Bool.not_eq_false', Bool.and_eq_true] at hcreated
    rcases Option.isSome_iff_exists.mp hcreated.2 with ⟨e, rfl⟩
    exact Accepted.created hcreated.1 (hannounced e rfl)
  | some old =>
    have hsame : old.toMcpOperation = next.toMcpOperation := by simpa using hbinding
    by_cases hrepeat : old.outcome = next.outcome ∧ event = none
    · have hold : old = next := by
        cases old
        cases next
        simp_all
      rw [hold, hrepeat.2]
      exact Accepted.repeated
    · refine Accepted.advanced hsame ?_ hannounced
      simp only [Option.any_some, Bool.and_eq_false_iff, Bool.not_eq_false', beq_iff_eq,
        Bool.and_eq_true, Option.isNone_iff_eq_none] at hedge
      rcases hedge with hrep | hadv
      · exact absurd hrep hrepeat
      · exact hadv

theorem Accepted.session {host : Host} {now : Int} {next : McpReview} {previous : Option McpReview}
    {event : Option HarnessEvent} (h : Accepted host now next previous event) :
    ∀ e ∈ event, e.sessionId = next.start.sessionId := by
  have of_announced : ∀ e, announcesOutcome next e = true → e.sessionId = next.start.sessionId := by
    intro e he
    unfold announcesOutcome announces at he
    simp only [Bool.and_eq_true, beq_iff_eq] at he
    exact he.1.1.1.1.1.1
  intro e he
  cases h with
  | created initial announced =>
    cases he
    exact of_announced _ announced
  | repeated => cases he
  | advanced binding edge announced => exact of_announced e (announced e he)

end HarnessControl.State
