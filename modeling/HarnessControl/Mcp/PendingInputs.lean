import HarnessControl.Library.JsonText
import HarnessControl.Mcp.Redaction

/-!
# Input that a tool waits for

A tool of a server may ask for input before it completes.  What it asks for is checked when it comes
and again with the responses to it.
-/

namespace HarnessControl.Mcp

open HarnessControl.Library HarnessControl.Library.JsonText

abbrev JsonValue (ν : Type) := JsonText.Value ν

variable {ν : Type}

/-- `McpPendingInput` -/
structure McpPendingInput (ν : Type) where
  inputRequests : List (Text × JsonValue ν)
  requestState : Option Text
  _meta : Option (List (Text × JsonValue ν))

structure McpInputReply (ν : Type) where
  pending : McpPendingInput ν
  responses : List (Text × JsonValue ν)

inductive InputError where
  | thrown (message : String)
  /-- A schema refuses. -/
  | schema

/-- How numbers are printed, and the schemas of the protocol's own package. -/
structure InputSchemas (ν : Type) where
  numerals : Numerals ν
  /-- A request for a URL, or one of the other three kinds of request. -/
  inputRequest : JsonValue ν → Except InputError (JsonValue ν)
  /-- A response is of the type of its request and meets the form of it. -/
  inputResponse : JsonValue ν → JsonValue ν → Except InputError Unit
  /-- `Date.parse(z.iso.datetime({offset: true}).parse(value))` -/
  datetime : JsonValue ν → Option Int

section Parsing

variable (schemas : InputSchemas ν)

/-- The bytes of `JSON.stringify(value)`. -/
def byteLength (value : JsonValue ν) : Nat :=
  (Utf8.encode (stringify schemas.numerals value)).length

def McpPendingInput.json (pending : McpPendingInput ν) : JsonValue ν :=
  .object
    ([(Utf16.text "resultType", .string (Utf16.text "input_required")),
      (Utf16.text "inputRequests", .object pending.inputRequests)] ++
      (pending._meta.map fun entries => (Utf16.text "_meta", JsonText.Value.object entries)).toList ++
      (pending.requestState.map fun state =>
        (Utf16.text "requestState", JsonText.Value.string state)).toList)

def parsedRequests : List (Text × JsonValue ν) → Except InputError (List (Text × JsonValue ν))
  | [] => .ok []
  | (key, request) :: rest =>
    match schemas.inputRequest request with
    | .error failure => .error failure
    | .ok request => (parsedRequests rest).map fun requests => (key, request) :: requests

def parseMcpPendingInput (value : McpPendingInput ν) : Except InputError (McpPendingInput ν) :=
  match parsedRequests schemas value.inputRequests with
  | .error failure => .error failure
  | .ok requests =>
    if requests.isEmpty && value.requestState.isNone then
      .error (.thrown "MCP input requirement has no requests or continuation state.")
    else
      let pending := { value with inputRequests := requests }
      if 1024 * 1024 < byteLength schemas pending.json then
        .error (.thrown "MCP pending input exceeds the persistence limit.")
      else .ok pending

def sameKeys (requests responses : List (Text × JsonValue ν)) : Bool :=
  decide ((requests.map Prod.fst).Perm (responses.map Prod.fst))

def mcpInputResponseParams (reply : McpInputReply ν) : Except InputError Unit :=
  if 1024 * 1024 < byteLength schemas (.object reply.responses) then
    .error (.thrown "MCP input responses exceed the persistence limit.")
  else
    match parseMcpPendingInput schemas reply.pending with
    | .error failure => .error failure
    | .ok pending =>
      if !sameKeys pending.inputRequests reply.responses then
        .error (.thrown "MCP responses must match the pending input request IDs.")
      else
        pending.inputRequests.forM fun entry =>
          match Dict.find entry.1 reply.responses with
          | some response => schemas.inputResponse entry.2 response
          | none => .error (.thrown "MCP response does not match its input request type.")

/-- `mcpInputReplySchema.parse` -/
def mcpInputReplySchema (pending : McpPendingInput ν) (responses : List (Text × JsonValue ν)) :
    Except InputError (McpInputReply ν) :=
  match parseMcpPendingInput schemas pending with
  | .error failure => .error failure
  | .ok pending =>
    (mcpInputResponseParams schemas { pending, responses }).map fun _ => { pending, responses }

/-- The times that an ISO text of four-digit years can tell. -/
def isoInstant (time : Int) : Option Int :=
  if -62167219200000 ≤ time ∧ time ≤ 253402300799999 then some time else none

/-- An optional deadline of the server can shorten that of the caller. -/
def mcpInputExpiresAt (pending : McpPendingInput ν) (callerExpiry : Int) : Option Int :=
  match isoInstant callerExpiry with
  | none => none
  | some expiry =>
    match (pending._meta.getD []).find? fun entry =>
        entry.1 == Utf16.text "com.prompt2agent/input-deadline" with
    | none => some expiry
    | some (_, hint) => (schemas.datetime hint).map (min expiry)

end Parsing

end HarnessControl.Mcp
