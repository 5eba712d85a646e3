import HarnessControl.Library.Fallible
import HarnessControl.Mcp.ProxyInputs

/-!
# Clients of attached servers

A server is called by a client of its own, or by a client behind a proxy.  Each client has lists of
tools that may be called; a review grant and a reply to an input request are passed beside the
arguments.
-/

namespace HarnessControl.Mcp

open HarnessControl.Library HarnessControl.Library.JsonText

variable {ν : Type}

/-! ## Calls -/

structure McpReviewGrant where
  request_id : Text
  action_json : Text

/-- A call as it enters a client. -/
structure ToolRequest (ν : Type) where
  name : Text
  arguments : JsonValue ν
  grant : Option McpReviewGrant
  continuation : Option (McpInputReply ν)

structure SdkCall (ν : Type) where
  name : Text
  arguments : JsonValue ν
  inputResponses : Option (List (Text × JsonValue ν))
  requestState : Option Text
  grant : Option McpReviewGrant

inductive CallError where
  | expired
  | notConnected
  | notAllowed
  | notAdvertised
  | input (failure : InputError)
  /-- `mcpReviewGrantSchema` refuses. -/
  | grant

/-- What a call meets: each check of the expiry, and each list of the tools of the server. -/
structure CallWorld (ν : Type) where
  env : ProxyEnvironment ν
  grantSchema : McpReviewGrant → Bool
  connected : Bool
  expired : Nat → Bool
  catalog : Nat → List Text

/-! ## Clients -/

structure ToolLists where
  allowedTools : Option (List Text)
  deniedTools : List Text

def isToolAllowed (lists : ToolLists) (name : Text) : Bool :=
  if lists.deniedTools.contains name then false
  else
    match lists.allowedTools with
    | some allowed => allowed.contains name
    | none => true

inductive McpClient where
  | attachmentClient (lists : ToolLists)
  | stdioProfileClient (lists : ToolLists)
  | proxyServer (upstream : McpClient)

section

variable (world : CallWorld ν)

/-- The names of `listTools()`. -/
def McpClient.listTools : McpClient → Except CallError (List Text)
  | .attachmentClient lists =>
    if world.expired 0 then .error .expired
    else if world.connected = false then .error .notConnected
    else .ok ((world.catalog 0).filter (isToolAllowed lists))
  | .stdioProfileClient lists =>
    if world.connected = false then .error .notConnected
    else .ok ((world.catalog 0).filter (isToolAllowed lists))
  | .proxyServer upstream => upstream.listTools

/-- `continuation === undefined ? {} : mcpInputResponseParams(continuation)`. -/
def responseParams (continuation : Option (McpInputReply ν)) :
    Except CallError (Option (List (Text × JsonValue ν)) × Option Text) :=
  match continuation with
  | none => .ok (none, none)
  | some reply =>
    match mcpInputResponseParams world.env.schemas reply with
    | .error failure => .error (.input failure)
    | .ok () => .ok (some reply.responses, reply.pending.requestState)

/-- `McpAttachmentClient.callTool`, up to the call of the server. -/
def attachmentCallTool (lists : ToolLists) (request : ToolRequest ν) :
    Except CallError (SdkCall ν) :=
  if world.expired 1 then .error .expired
  else if isToolAllowed lists request.name = false then .error .notAllowed
  else
    (responseParams world request.continuation).bind fun params =>
      if world.connected = false then .error .notConnected
      else if (world.catalog 1).contains request.name = false then .error .notAdvertised
      else if world.expired 2 then .error .expired
      else if request.grant.any fun grant => !world.grantSchema grant then .error .grant
      else .ok ⟨request.name, request.arguments, params.1, params.2, request.grant⟩

/-- `McpStdioProfileClient.callTool`, which has two parameters only. -/
def stdioCallTool (lists : ToolLists) (request : ToolRequest ν) : Except CallError (SdkCall ν) :=
  if isToolAllowed lists request.name = false then .error .notAllowed
  else if world.connected = false then .error .notConnected
  else .ok ⟨request.name, request.arguments, none, none, none⟩

def McpClient.callTool : McpClient → ToolRequest ν → Except CallError (SdkCall ν)
  | .attachmentClient lists, request => attachmentCallTool world lists request
  | .stdioProfileClient lists, request => stdioCallTool world lists request
  -- `callTool(name, arguments_)` of the proxy takes no more than these
  | .proxyServer upstream, request =>
    upstream.callTool { request with grant := none, continuation := none }

/-- `tools/call` of a native caller: the reply is the one to an input request of this proxy. -/
def nativeToolsCall (upstream : McpClient) (inputs : ProxyInputs ν) (scope name : Text)
    (args : McpToolArguments world.env.schemas.numerals) (state : ProxyInputs.StateArgument)
    (responses : ProxyInputs.ResponsesArgument ν) : Except CallError (SdkCall ν) :=
  (upstream.listTools world).bind fun tools =>
    if tools.contains name = false then .error .notAdvertised
    else
      match (inputs.consume world.env scope name args state responses).2 with
      | .error failure => .error (.input failure)
      | .ok continuation => upstream.callTool world ⟨name, args.value, none, continuation⟩

end

/-! ## Attachments -/

structure StdioProfile where
  allowed_tools : Option (List Text)
  denied_tools : List Text

/-- An attachment, with the profile that the local configuration has for it. -/
inductive McpServerAttachment where
  | streamableHttp (allowed_tools denied_tools : Option (List Text))
  | runnerStdioProfile (profile : StdioProfile) (allowed_tools denied_tools : Option (List Text))

def intersectAllowedTools (profileTools requestedTools : Option (List Text)) :
    Option (List Text) :=
  match profileTools, requestedTools with
  | none, requested => requested
  | some profile, none => some profile
  | some profile, some requested => some (profile.filter fun tool => requested.contains tool)

def createStdioProfileProxy (profile : StdioProfile) (allowed denied : Option (List Text)) :
    McpClient :=
  .proxyServer <| .stdioProfileClient
    { allowedTools := intersectAllowedTools profile.allowed_tools allowed
      deniedTools := (profile.denied_tools ++ denied.getD []).eraseDups }

def defaultMcpClientFactory (driverKind : String) (allowed denied : Option (List Text)) :
    McpClient :=
  let upstream := McpClient.attachmentClient ⟨allowed, denied.getD []⟩
  if driverKind = "claude" ∨ driverKind = "opencode" then .proxyServer upstream else upstream

def attachMcpServer (driverKind : String) : McpServerAttachment → McpClient
  | .streamableHttp allowed denied => defaultMcpClientFactory driverKind allowed denied
  | .runnerStdioProfile profile allowed denied => createStdioProfileProxy profile allowed denied

def McpServerAttachment.deniedLists : McpServerAttachment → List (List Text)
  | .streamableHttp _ denied => denied.toList
  | .runnerStdioProfile profile _ denied => profile.denied_tools :: denied.toList

def McpServerAttachment.allowedLists : McpServerAttachment → List (List Text)
  | .streamableHttp allowed _ => allowed.toList
  | .runnerStdioProfile profile allowed _ => profile.allowed_tools.toList ++ allowed.toList

/-! ## Ways in -/

inductive EntryPath where
  | toolset
  | native

/-- A call that reaches the server.  A native caller's request is its tool, its arguments and the reply
that its responses make. -/
inductive Dispatches (world : CallWorld ν) :
    McpClient → EntryPath → ToolRequest ν → SdkCall ν → Prop where
  | toolset {client : McpClient} {request : ToolRequest ν} {sent : SdkCall ν} :
    client.callTool world request = .ok sent → Dispatches world client .toolset request sent
  | native {upstream : McpClient} {inputs : ProxyInputs ν} {scope name : Text}
    {args : McpToolArguments world.env.schemas.numerals} {state : ProxyInputs.StateArgument}
    {responses : ProxyInputs.ResponsesArgument ν} {continuation : Option (McpInputReply ν)}
    {sent : SdkCall ν} :
    (inputs.consume world.env scope name args state responses).2 = .ok continuation →
    nativeToolsCall world upstream inputs scope name args state responses = .ok sent →
    Dispatches world (.proxyServer upstream) .native ⟨name, args.value, none, continuation⟩ sent

/-- The server gets the tool and the arguments that were allowed, the grant and the reply. -/
structure AsReviewed (attachment : McpServerAttachment) (request : ToolRequest ν)
    (sent : SdkCall ν) : Prop where
  denied : ∀ list ∈ attachment.deniedLists, sent.name ∉ list
  allowed : ∀ list ∈ attachment.allowedLists, sent.name ∈ list
  name : sent.name = request.name
  arguments : sent.arguments = request.arguments
  grant : sent.grant = request.grant
  responses : sent.inputResponses = request.continuation.map McpInputReply.responses
  state : sent.requestState =
    request.continuation.bind fun reply => reply.pending.requestState

/-- Nothing stands between the caller and the client of a server that takes grants and replies. -/
def passesOn (driverKind : String) : McpServerAttachment → EntryPath → Bool
  | .streamableHttp _ _, .toolset => driverKind != "claude" && driverKind != "opencode"
  | .streamableHttp _ _, .native => true
  | .runnerStdioProfile _ _ _, _ => false

end HarnessControl.Mcp
