import HarnessControl.Mcp.AttachmentClients
import HarnessControl.Mcp.ProxyInputRuns

/-!
# What the server gets of a call

The lists of an attachment bind every way into its client.  A grant and a reply reach the server
where no proxy and no client of a local profile stands between.
-/

namespace HarnessControl.Mcp

open HarnessControl.Library HarnessControl.Library.JsonText

variable {ν : Type} {world : CallWorld ν}

/-! ## Lists -/

theorem isToolAllowed_iff {lists : ToolLists} {name : Text} :
    isToolAllowed lists name = true ↔
      name ∉ lists.deniedTools ∧ ∀ list ∈ lists.allowedTools.toList, name ∈ list := by
  unfold isToolAllowed
  by_cases hdenied : name ∈ lists.deniedTools
  · rw [if_pos (List.contains_iff_mem.mpr hdenied)]
    exact ⟨nofun, fun h => absurd hdenied h.1⟩
  · rw [if_neg (fun h => hdenied (List.contains_iff_mem.mp h))]
    cases lists.allowedTools with
    | none => exact ⟨fun _ => ⟨hdenied, nofun⟩, fun _ => rfl⟩
    | some allowed =>
      dsimp only
      rw [List.contains_iff_mem, Option.toList_some, List.forall_mem_singleton]
      exact ⟨fun h => ⟨hdenied, h⟩, fun h => h.2⟩

def McpServerAttachment.toolLists : McpServerAttachment → ToolLists
  | .streamableHttp allowed denied => ⟨allowed, denied.getD []⟩
  | .runnerStdioProfile profile allowed denied =>
    { allowedTools := intersectAllowedTools profile.allowed_tools allowed
      deniedTools := (profile.denied_tools ++ denied.getD []).eraseDups }

theorem mem_getD {denied : Option (List Text)} {name : Text} :
    name ∉ denied.getD [] ↔ ∀ list ∈ denied.toList, name ∉ list := by
  cases denied <;> simp

theorem intersectAllowedTools_iff {profile requested : Option (List Text)} {name : Text} :
    (∀ list ∈ (intersectAllowedTools profile requested).toList, name ∈ list) ↔
      ∀ list ∈ profile.toList ++ requested.toList, name ∈ list := by
  unfold intersectAllowedTools
  cases profile with
  | none => rfl
  | some profile =>
    cases requested with
    | none => rfl
    | some requested => simp [List.mem_filter]

theorem toolLists_iff {attachment : McpServerAttachment} {name : Text} :
    isToolAllowed attachment.toolLists name = true ↔
      (∀ list ∈ attachment.deniedLists, name ∉ list) ∧
        ∀ list ∈ attachment.allowedLists, name ∈ list := by
  rw [isToolAllowed_iff]
  cases attachment with
  | streamableHttp allowed denied =>
    apply and_congr _ Iff.rfl
    exact mem_getD
  | runnerStdioProfile profile allowed denied =>
    apply and_congr _ intersectAllowedTools_iff
    show name ∉ (profile.denied_tools ++ denied.getD []).eraseDups ↔
      ∀ list ∈ profile.denied_tools :: denied.toList, name ∉ list
    rw [List.mem_eraseDups, List.mem_append, not_or, mem_getD, List.forall_mem_cons]

/-! ## Clients -/

/-- What a server is sent where all of a call is passed on. -/
def ToolRequest.sent (request : ToolRequest ν) : SdkCall ν where
  name := request.name
  arguments := request.arguments
  inputResponses := request.continuation.map McpInputReply.responses
  requestState := request.continuation.bind fun reply => reply.pending.requestState
  grant := request.grant

/-- A call without its grant and its reply. -/
def ToolRequest.bare (request : ToolRequest ν) : ToolRequest ν :=
  { request with grant := none, continuation := none }

theorem responseParams_ok {continuation : Option (McpInputReply ν)}
    {params : Option (List (Text × JsonValue ν)) × Option Text}
    (h : responseParams world continuation = .ok params) :
    params = (continuation.map McpInputReply.responses,
      continuation.bind fun reply => reply.pending.requestState) := by
  unfold responseParams at h
  cases continuation with
  | none => exact (Except.ok.inj h).symm
  | some reply =>
    dsimp only at h
    split at h
    · nomatch h
    · exact (Except.ok.inj h).symm

theorem attachmentCallTool_ok {lists : ToolLists} {request : ToolRequest ν} {sent : SdkCall ν}
    (h : attachmentCallTool world lists request = .ok sent) :
    isToolAllowed lists request.name = true ∧ sent = request.sent := by
  unfold attachmentCallTool at h
  rw [ite_error_ok, ite_error_ok, Bool.not_eq_false, bind_ok] at h
  obtain ⟨_, hallowed, params, hparams, h⟩ := h
  rw [ite_error_ok, ite_error_ok, ite_error_ok, ite_error_ok, responseParams_ok hparams] at h
  obtain ⟨_, _, _, _, h⟩ := h
  exact ⟨hallowed, (Except.ok.inj h).symm⟩

theorem stdioCallTool_ok {lists : ToolLists} {request : ToolRequest ν} {sent : SdkCall ν}
    (h : stdioCallTool world lists request = .ok sent) :
    isToolAllowed lists request.name = true ∧ sent = request.bare.sent := by
  unfold stdioCallTool at h
  rw [ite_error_ok, ite_error_ok, Bool.not_eq_false] at h
  obtain ⟨hallowed, _, h⟩ := h
  exact ⟨hallowed, (Except.ok.inj h).symm⟩

theorem nativeToolsCall_ok {upstream : McpClient} {inputs : ProxyInputs ν} {scope name : Text}
    {args : McpToolArguments world.env.schemas.numerals} {state : ProxyInputs.StateArgument}
    {responses : ProxyInputs.ResponsesArgument ν} {continuation : Option (McpInputReply ν)}
    {sent : SdkCall ν}
    (hreply : (inputs.consume world.env scope name args state responses).2 = .ok continuation)
    (h : nativeToolsCall world upstream inputs scope name args state responses = .ok sent) :
    upstream.callTool world ⟨name, args.value, none, continuation⟩ = .ok sent := by
  unfold nativeToolsCall at h
  obtain ⟨tools, _, h⟩ := bind_ok.mp h
  rw [ite_error_ok, hreply] at h
  exact h.2

theorem dispatches_sent {driverKind : String} {attachment : McpServerAttachment}
    {entry : EntryPath} {request : ToolRequest ν} {sent : SdkCall ν}
    (h : Dispatches world (attachMcpServer driverKind attachment) entry request sent) :
    isToolAllowed attachment.toolLists request.name = true ∧
      sent = if passesOn driverKind attachment entry then request.sent else request.bare.sent := by
  generalize hclient : attachMcpServer driverKind attachment = client at h
  cases attachment with
  | streamableHttp allowed denied =>
    have hfactory : defaultMcpClientFactory driverKind allowed denied = client := hclient
    unfold defaultMcpClientFactory at hfactory
    dsimp only at hfactory
    split at hfactory
    · rename_i hproxied
      subst hfactory
      cases h with
      | toolset hsent =>
        have hbare : passesOn driverKind (.streamableHttp allowed denied) .toolset = false := by
          obtain rfl | rfl := hproxied <;> rfl
        rw [hbare]
        exact attachmentCallTool_ok hsent
      | native hreply hsent =>
        exact attachmentCallTool_ok (nativeToolsCall_ok hreply hsent)
    · rename_i hdirect
      subst hfactory
      cases h with
      | toolset hsent =>
        have hpasses :
            passesOn driverKind (.streamableHttp allowed denied) .toolset = true := by
          rw [not_or] at hdirect
          unfold passesOn
          rw [Bool.and_eq_true, bne_iff_ne, bne_iff_ne]
          exact hdirect
        rw [hpasses]
        exact attachmentCallTool_ok hsent
  | runnerStdioProfile profile allowed denied =>
    subst hclient
    cases h with
    | toolset hsent => exact stdioCallTool_ok hsent
    | native hreply hsent => exact stdioCallTool_ok (nativeToolsCall_ok hreply hsent)

/-- The server gets what was reviewed exactly where the way in passes grants and replies on, or
where the call has neither. -/
theorem reviewed_is_called {driverKind : String} {attachment : McpServerAttachment}
    {entry : EntryPath} {request : ToolRequest ν} {sent : SdkCall ν}
    (h : Dispatches world (attachMcpServer driverKind attachment) entry request sent) :
    AsReviewed attachment request sent ↔
      passesOn driverKind attachment entry = true ∨
        request.grant = none ∧ request.continuation = none := by
  obtain ⟨hallowed, hsent⟩ := dispatches_sent h
  obtain ⟨hdenied, hallowed⟩ := toolLists_iff.mp hallowed
  cases hpasses : passesOn driverKind attachment entry with
  | true =>
    rw [hpasses, if_pos rfl] at hsent
    subst hsent
    exact ⟨fun _ => Or.inl rfl, fun _ => ⟨hdenied, hallowed, rfl, rfl, rfl, rfl, rfl⟩⟩
  | false =>
    rw [hpasses, if_neg (by decide)] at hsent
    subst hsent
    constructor
    · intro hreviewed
      right
      constructor
      · exact hreviewed.grant.symm
      · exact Option.map_eq_none_iff.mp hreviewed.responses.symm
    · rintro (hfalse | ⟨hgrant, hcontinuation⟩)
      · nomatch hfalse
      · refine ⟨hdenied, hallowed, rfl, rfl, hgrant.symm, ?_, ?_⟩
        · rw [hcontinuation]
          rfl
        · rw [hcontinuation]
          rfl

/-! ## A grant behind a proxy -/

def openWorld : CallWorld Bool where
  env := plainEnvironment
  grantSchema _ := true
  connected := true
  expired _ := false
  catalog _ := [Utf16.text "write"]

def openAttachment : McpServerAttachment := .streamableHttp none none

def grantedRequest : ToolRequest Bool where
  name := Utf16.text "write"
  arguments := .object []
  grant := some ⟨Utf16.text "review", Utf16.text "\x7b\x7d"⟩
  continuation := none

/-- A direct client passes the grant on. -/
theorem granted_directly :
    AsReviewed openAttachment grantedRequest (grantedRequest.sent) :=
  (@reviewed_is_called _ openWorld "codex" _ .toolset _ _ (.toolset rfl)).mpr (Or.inl (by decide))

/-- The proxy in front of the client of another driver does not. -/
theorem grant_dropped_by_proxy :
    Dispatches openWorld (attachMcpServer "opencode" openAttachment) .toolset grantedRequest
        grantedRequest.bare.sent ∧
      ¬ AsReviewed openAttachment grantedRequest grantedRequest.bare.sent :=
  ⟨.toolset rfl, fun h => nomatch h.grant⟩

end HarnessControl.Mcp
