import HarnessControl.State.Stored

/-!
# The session manager

What an operation on a retained conversation reads besides the store: the configuration, what the
adapters declare, and the sessions that are live.  An operation is refused, answered from a stored
receipt, or admitted to the adapter.
-/

namespace HarnessControl.Harnesses

open HarnessControl.Library HarnessControl.Protocol HarnessControl.State

/-! ## Errors -/

/-- `HarnessAdapterError` and `HarnessSessionError`. -/
structure HarnessError where
  code : String
  message : String
deriving DecidableEq

def errorIf (failed : Bool) (code message : String) : Option HarnessError :=
  if failed then some ⟨code, message⟩ else none

@[simp] theorem errorIf_eq_none {failed : Bool} {code message : String} :
    errorIf failed code message = none ↔ failed = false := by
  cases failed <;> simp [errorIf]

def firstError (errors : List (Option HarnessError)) : Option HarnessError := errors.findSome? id

theorem firstError_eq_none {errors : List (Option HarnessError)} :
    firstError errors = none ↔ ∀ error ∈ errors, error = none := by
  unfold firstError
  rw [List.findSome?_eq_none_iff]
  rfl

/-- Why an operation failed: by its own checks, or in a call of the store. -/
inductive OperationFailure where
  | thrown (error : HarnessError)
  | store (failure : StoreFailure)
deriving DecidableEq

/-- What the checks before the adapter's call decide. -/
inductive Admission (π : Type) where
  | refused (error : HarnessError)
  | answered (result : ConversationResult)
  | admitted (plan : π)
deriving DecidableEq

/-! ## Configuration and adapters -/

structure WorkspaceConfig where
  id : String
  path : String

structure ProviderInstance where
  id : String
  driverKind : String
  enabled : Bool
  /-- `nativeProviderHash`. -/
  hash : String

structure FeedbackCapability where
  classifications : List String
  diagnostics : Bool

structure ExecutionProfile where
  id : String
  nativeWorkFork : Bool
  nativeGoals : Bool
  nativeFeedback : Option FeedbackCapability
  /-- `native_policy_control` is `"idle_native_owner"`. -/
  nativePolicyControl : Bool
  nativeWorkTerminalReconciliation : Bool := false
  nativeWork : Bool := false
  emptyConversation : Bool := false
  idleConfigurationTransition : Bool := false
  idleMcpCatalogTransition : Bool := false
  nativeExecutionOutcomes : Bool := false

/-- Which operations the adapter of a driver has, and what it declares about them. -/
structure Adapter where
  /-- The declared operations; none without `conversationOperation`. -/
  conversationOperations : List ConversationOperationKind
  liveHistoryRead : Bool
  executionProfiles : List ExecutionProfile
  forkNativeWork : Bool
  cancelNativeWork : Bool
  controlNativeGoal : Bool
  submitNativeFeedback : Bool
  updateNativePolicy : Bool
  nativeWork : Bool := false
  sessionEvents : Bool := false
  reconcileNativeWork : Bool := false
  emptyConversation : Bool := false
  portableHistory : Bool := false
  /-- `publicNativeReference?.(threadId) ?? threadId`. -/
  publicNativeReference : String → String := id

def Adapter.profile? (adapter : Adapter) (id : Option String) : Option ExecutionProfile :=
  adapter.executionProfiles.find? fun profile => some profile.id == id

structure LiveSession where
  startPayload : SessionStartPayload
  adapter : Adapter
  driverKind : String
  /-- `adapterSession.native_thread_id`. -/
  nativeThreadId : Option String
  /-- `adapterSession.native_work_root_reference`. -/
  nativeWorkRootReference : Option String
  nativeBindingHash : Option String
  /-- `nativeBindingHash` of its payload, its provider and its tool sets. -/
  currentBindingHash : String
  cancelRequested : Bool
  nativeWorkOwnerAvailable : Option Bool
  nativeWorkClosureUnconfirmed : Bool
  nativeWorkStopping : Bool
  mcpDetaching : Bool
  policyControlling : Bool
  /-- A turn of the session is in `#runningTurns`. -/
  running : Bool
  /-- `#liveNativeWork` of the session. -/
  liveWork : List String
  /-- `#turnIdsBySession` of the session. -/
  turnIds : List String

def LiveSession.profile? (session : LiveSession) : Option ExecutionProfile :=
  session.adapter.profile? session.startPayload.executionProfile

structure Manager where
  runtime : Runtime
  workspaces : List WorkspaceConfig
  /-- The resolved directory lies in the resolved workspace, or why a path does not resolve. -/
  inside : String → String → Except String Bool
  providers : List ProviderInstance
  /-- `HarnessAdapterRegistry.get`. -/
  adapter? : String → Option Adapter
  sessions : Dict String LiveSession

namespace Manager

variable (manager : Manager)

def assertWorkspaceAllowed (workspaceId cwd : String) : Option HarnessError :=
  if manager.workspaces.isEmpty then
    some ⟨"workspace_not_configured",
      "Runner config has no workspaces configured; refusing to start a local harness session."⟩
  else
    match manager.workspaces.find? fun candidate => candidate.id == workspaceId with
    | none => some ⟨"workspace_not_allowed",
      "Workspace '" ++ workspaceId ++ "' is not configured by runner config."⟩
    | some workspace =>
      match manager.inside workspace.path cwd with
      | .error message => some ⟨"workspace_not_allowed", message⟩
      | .ok false => some ⟨"workspace_not_allowed",
        "Workspace '" ++ cwd ++ "' is not allowed by runner config."⟩
      | .ok true => none

def requireProvider (providerInstanceId : String) : Except HarnessError ProviderInstance :=
  match manager.providers.find? fun candidate => candidate.id == providerInstanceId with
  | none => .error ⟨"provider_not_found",
    "Provider '" ++ providerInstanceId ++ "' is not configured."⟩
  | some provider =>
    if provider.enabled then .ok provider
    else .error ⟨"provider_disabled", "Provider '" ++ providerInstanceId ++ "' is disabled."⟩

def requireAdapter (driverKind : String) : Except HarnessError Adapter :=
  match manager.adapter? driverKind with
  | none => .error ⟨"provider_driver_unavailable",
    "Provider driver '" ++ driverKind ++ "' is not available in this runner."⟩
  | some adapter => .ok adapter

/-- The provider of a retained record, whose configuration has not changed since. -/
def ownedProvider (workspaceId cwd providerInstanceId bindingHash : String) (changed : HarnessError) :
    Except HarnessError ProviderInstance :=
  match manager.assertWorkspaceAllowed workspaceId cwd with
  | some error => .error error
  | none =>
    match manager.requireProvider providerInstanceId with
    | .error error => .error error
    | .ok provider => if provider.hash = bindingHash then .ok provider else .error changed

/-- `createHash("sha256").update(JSON.stringify(value)).digest("hex")`. -/
def hash (value : Json) : String := manager.runtime.host.sha256 (manager.runtime.host.stringify value)

/-- The live session that continues the conversation at the key. -/
def liveOwner (key : String) : Option LiveSession :=
  manager.sessions.values.find? fun session => session.startPayload.continuationGroupKey == some key

end Manager

/-- `unresolvedNativeAdmissions`. -/
def unresolvedNativeAdmissions (state : Option NativeWorkState) : Bool :=
  state.any fun state =>
    state.rootExecutions.any RootExecution.unresolved || state.goals.any GoalAdmission.unresolved

/-- Native work that may still run, or whose end is not confirmed. -/
def workUnconfirmed (state : Option NativeWorkState) : Bool :=
  (state.any fun state => state.closureUnconfirmed) || unresolvedNativeAdmissions state ||
  state.any fun state => state.items.values.any fun work => !isNativeWorkTerminal work.status

end HarnessControl.Harnesses
