import HarnessControl.Library.Dict

/-!
# Capability leases

A session may bring a lease that grants capabilities of the runner.  The manager checks a lease
when its session starts and again with every action, counts the calls under composed text keys, and
forgets neither a revocation nor a count.
-/

namespace HarnessControl.LocalActions

open HarnessControl.Library

/-! ## Leases -/

/-- `localCapabilityIdSchema`. -/
inductive LocalCapabilityId where
  | filesystem
  | git
  | shell
  | devServer
  | browser
deriving DecidableEq

def LocalCapabilityId.text : LocalCapabilityId → String
  | .filesystem => "filesystem"
  | .git => "git"
  | .shell => "shell"
  | .devServer => "dev_server"
  | .browser => "browser"

inductive LocalCapabilityStatus where
  | available
  | unavailable
  | disabled
  | unknown
deriving DecidableEq

def LocalCapabilityStatus.text : LocalCapabilityStatus → String
  | .available => "available"
  | .unavailable => "unavailable"
  | .disabled => "disabled"
  | .unknown => "unknown"

structure LocalCapabilityConfig where
  id : LocalCapabilityId
  status : LocalCapabilityStatus
  scopes : List String

inductive EnvPolicy where
  | minimal
  | allowlisted
deriving DecidableEq

inductive NetworkPolicy where
  | inherit
  | disabled
  | allowlisted
deriving DecidableEq

def NetworkPolicy.text : NetworkPolicy → String
  | .inherit => "inherit"
  | .disabled => "disabled"
  | .allowlisted => "allowlisted"

/-- The `cwd_policy` is always `selected_workspace_only`. -/
structure CommandPolicy where
  allowedExecutables : Option (List String)
  deniedExecutables : Option (List String)
  argvPatterns : Option (List String)
  envPolicy : EnvPolicy
  allowShell : Bool
  timeoutSeconds : Nat
  networkPolicy : NetworkPolicy
deriving DecidableEq

inductive GrantApprovalPolicy where
  | ask
  | autoEdits
  | fullAccess
deriving DecidableEq

structure LocalCapabilityGrant where
  id : String
  scopes : List String
  approvalPolicy : Option GrantApprovalPolicy
  commandPolicy : Option CommandPolicy
  maxCalls : Option Nat
deriving DecidableEq

structure LocalCapabilityLease where
  leaseId : String
  hcpSessionId : String
  executionHostId : String
  providerInstanceId : String
  workspaceId : String
  /-- `Date.parse(expires_at)`. -/
  expiresAt : Option Int
  capabilities : List LocalCapabilityGrant
deriving DecidableEq

structure LeasedSessionStart where
  sessionId : String
  providerInstanceId : String
  workspaceId : String
  localCapabilityLease : Option LocalCapabilityLease

structure LeasedProvider where
  id : String
  localCapabilities : List LocalCapabilityId

structure LocalCapabilityActionRequest where
  sessionId : String
  workspaceId : String
  providerInstanceId : String
  capabilityId : String
  scope : String

structure LocalCapabilityPolicyError where
  code : String
  message : String

/-! ## The manager -/

structure LeaseManagerConfig where
  localCapabilities : List LocalCapabilityConfig
  hostId : String

structure LeaseManager where
  now : Int
  revokedLeaseIds : List String
  callCounts : Dict String Nat

def LeaseManager.initial (now : Int) : LeaseManager := ⟨now, [], Dict.empty⟩

abbrev PolicyCheck (α : Type) := Except LocalCapabilityPolicyError α

def denied {α : Type} (code message : String) : PolicyCheck α := .error ⟨code, message⟩

/-- A check that denies where its condition holds. -/
def forbid (condition : Prop) [Decidable condition] (code message : String) : PolicyCheck Unit :=
  if condition then denied code message else .ok ()

/-- `#assertLeaseBinding`. -/
def LeaseManagerConfig.assertLeaseBinding (config : LeaseManagerConfig)
    (lease : LocalCapabilityLease) (payload : LeasedSessionStart) : PolicyCheck Unit := do
  forbid (lease.hcpSessionId ≠ payload.sessionId) "local_capability_session_mismatch"
    "Local capability lease session does not match the HCP session."
  forbid (lease.executionHostId ≠ config.hostId) "local_capability_host_mismatch"
    "Local capability lease host does not match this runner."
  forbid (lease.providerInstanceId ≠ payload.providerInstanceId)
    "local_capability_provider_mismatch"
    "Local capability lease provider does not match the selected provider."
  forbid (lease.workspaceId ≠ payload.workspaceId) "local_capability_workspace_mismatch"
    "Local capability lease workspace does not match the selected workspace."

/-- `#assertLeaseUsable`. -/
def LeaseManager.assertLeaseUsable (lease : LocalCapabilityLease) (manager : LeaseManager) :
    PolicyCheck Unit := do
  forbid (lease.leaseId ∈ manager.revokedLeaseIds) "local_capability_lease_revoked"
    ("Local capability lease '" ++ lease.leaseId ++ "' has been revoked.")
  forbid (lease.expiresAt.all fun expiresAt => decide (expiresAt ≤ manager.now))
    "local_capability_lease_expired"
    ("Local capability lease '" ++ lease.leaseId ++ "' has expired.")

/-- `#requireConfiguredCapability`. -/
def LeaseManagerConfig.requireConfiguredCapability (config : LeaseManagerConfig)
    (capabilityId : String) : PolicyCheck LocalCapabilityConfig :=
  match config.localCapabilities.find? fun candidate => candidate.id.text == capabilityId with
  | none =>
    denied "local_capability_unavailable"
      ("Capability '" ++ capabilityId ++ "' is not configured by this runner.")
  | some capability => do
    forbid (capability.status ≠ .available) "local_capability_unavailable"
      ("Capability '" ++ capabilityId ++ "' is " ++ capability.status.text ++ ".")
    return capability

/-- `#assertGrantScopesAllowed`. -/
def assertGrantScopesAllowed (capability : LocalCapabilityConfig) (grant : LocalCapabilityGrant) :
    PolicyCheck Unit :=
  let unavailableScopes := grant.scopes.filter fun scope => !capability.scopes.contains scope
  forbid (unavailableScopes ≠ []) "local_capability_scope_unavailable"
    ("Capability '" ++ grant.id ++ "' requested unavailable scopes: " ++
      String.intercalate ", " unavailableScopes ++ ".")

/-- `#assertProviderSupportsCapability`. -/
def LeasedProvider.assertSupports (provider : LeasedProvider) (capabilityId : String) :
    PolicyCheck Unit :=
  if provider.localCapabilities.any fun id => id.text == capabilityId then .ok ()
  else
    denied "local_capability_provider_unsupported"
      ("Provider '" ++ provider.id ++ "' does not support capability '" ++ capabilityId ++ "'.")

def LeaseManagerConfig.assertGrant (config : LeaseManagerConfig) (provider : LeasedProvider)
    (grant : LocalCapabilityGrant) : PolicyCheck Unit := do
  let capability ← config.requireConfiguredCapability grant.id
  assertGrantScopesAllowed capability grant
  provider.assertSupports grant.id

def LeaseManager.validateSessionLease (config : LeaseManagerConfig) (payload : LeasedSessionStart)
    (provider : LeasedProvider) (manager : LeaseManager) :
    PolicyCheck (Option LocalCapabilityLease) :=
  match payload.localCapabilityLease with
  | none => .ok none
  | some lease => do
    config.assertLeaseBinding lease payload
    manager.assertLeaseUsable lease
    lease.capabilities.forM (config.assertGrant provider)
    return some lease

def LeaseManager.revokeLease (leaseId : String) (manager : LeaseManager) : LeaseManager :=
  { manager with revokedLeaseIds := manager.revokedLeaseIds ++ [leaseId] }

/-- The key under which the calls of a capability of a lease are counted. -/
def countKey (leaseId capabilityId : String) : String := leaseId ++ ":" ++ capabilityId

/-- The checks of an action, without the count. -/
def LeaseManager.grantFor (config : LeaseManagerConfig) (lease : LocalCapabilityLease)
    (request : LocalCapabilityActionRequest) (manager : LeaseManager) :
    PolicyCheck LocalCapabilityGrant := do
  manager.assertLeaseUsable lease
  forbid (request.sessionId ≠ lease.hcpSessionId) "local_capability_session_mismatch"
      "Local capability action session does not match the lease."
  forbid (request.workspaceId ≠ lease.workspaceId) "local_capability_workspace_mismatch"
      "Local capability action workspace does not match the lease."
  forbid (request.providerInstanceId ≠ lease.providerInstanceId)
    "local_capability_provider_mismatch"
      "Local capability action provider does not match the lease."
  match lease.capabilities.find? fun candidate => candidate.id == request.capabilityId with
  | none =>
    denied "local_capability_not_granted"
      ("Capability '" ++ request.capabilityId ++ "' is not granted by lease '" ++
        lease.leaseId ++ "'.")
  | some grant =>
    forbid (request.scope ∉ grant.scopes) "local_capability_scope_not_granted"
        ("Scope '" ++ request.scope ++ "' is not granted for capability '" ++
          request.capabilityId ++ "'.")
    let capability ← config.requireConfiguredCapability request.capabilityId
    forbid (request.scope ∉ capability.scopes) "local_capability_scope_unavailable"
        ("Scope '" ++ request.scope ++ "' is not available for capability '" ++
          request.capabilityId ++ "' on this runner.")
    return grant

/-- The calls that have been counted for a capability of a lease. -/
def LeaseManager.callCount (leaseId capabilityId : String) (manager : LeaseManager) : Nat :=
  (manager.callCounts.get? (countKey leaseId capabilityId)).getD 0

def LeaseManager.assertActionAllowed (config : LeaseManagerConfig) (lease : LocalCapabilityLease)
    (request : LocalCapabilityActionRequest) (manager : LeaseManager) :
    LeaseManager × PolicyCheck LocalCapabilityGrant :=
  match manager.grantFor config lease request with
  | .error error => (manager, .error error)
  | .ok grant =>
    let existingCallCount := manager.callCount lease.leaseId grant.id
    if grant.maxCalls.any fun maxCalls => decide (maxCalls ≤ existingCallCount) then
      (manager, denied "local_capability_max_calls_exceeded"
        ("Capability '" ++ request.capabilityId ++ "' exceeded its max call count."))
    else
      ({ manager with
        callCounts :=
          manager.callCounts.set (countKey lease.leaseId grant.id) (existingCallCount + 1) },
        .ok grant)

/-! ## The engine -/

inductive LocalFilesystemAction where
  | read
  | list
  | write
  | create
  | delete
  | patch

inductive LocalGitAction where
  | status
  | diff
  | branch
  | commitMetadata
  | commit
  | checkout
  | push

inductive LocalDevServerAction where
  | start
  | stop
  | inspect

def filesystemScopeForAction : LocalFilesystemAction → String
  | .read | .list => "workspace_read"
  | .write | .create | .delete | .patch => "workspace_write"

def gitScopeForAction : LocalGitAction → String
  | .status | .diff | .branch | .commitMetadata => "workspace_read"
  | .commit | .checkout | .push => "workspace_write"

/-- What `assertPathInsideWorkspace` finds once it has resolved both paths. -/
inductive CwdCheck where
  | inside
  | outside
  | unresolved (path message : String)

structure LocalCommand where
  executable : String
  argv : List String
  cwd : String
  useShell : Bool
  timeoutSeconds : Nat
  env : List (String × String)
  cwdCheck : CwdCheck

/-- A call of the engine; a `start` whose fields are not all there has no command. -/
inductive EngineAction where
  | filesystem (action : LocalFilesystemAction)
  | git (action : LocalGitAction)
  | shell (command : LocalCommand)
  | devServer (action : LocalDevServerAction) (command : Option LocalCommand)

def EngineAction.capability : EngineAction → LocalCapabilityId
  | .filesystem _ => .filesystem
  | .git _ => .git
  | .shell _ => .shell
  | .devServer _ _ => .devServer

def EngineAction.scope : EngineAction → String
  | .filesystem action => filesystemScopeForAction action
  | .git action => gitScopeForAction action
  | .shell _ | .devServer _ _ => "workspace"

structure EngineRequest where
  sessionId : String
  workspaceId : String
  providerInstanceId : String
  action : EngineAction

def EngineRequest.toActionRequest (request : EngineRequest) : LocalCapabilityActionRequest :=
  ⟨request.sessionId, request.workspaceId, request.providerInstanceId,
    request.action.capability.text, request.action.scope⟩

/-- `assertExecutableGrantAllowed`. -/
def assertExecutableGrantAllowed (grant : LocalCapabilityGrant) (actionLabel : String) :
    PolicyCheck Unit := do
  forbid (grant.approvalPolicy ≠ some .fullAccess) "local_capability_approval_required"
    (actionLabel ++ " require a local capability lease grant with approval_policy " ++
      "'full_access'.")
  forbid (grant.commandPolicy = none) "local_capability_command_policy_required"
    (actionLabel ++ " require a structured command policy.")

/-- `argvMatchesPolicy`; `test` is the regular expression of a pattern, or its syntax error. -/
def argvMatchesPolicy (test : String → String → Except String Bool) (commandLine : String) :
    List String → PolicyCheck Bool
  | [] => .ok false
  | pattern :: patterns =>
    match test pattern commandLine with
    | .error message =>
      denied "local_capability_command_policy_invalid"
        ("Command policy argv pattern '" ++ pattern ++ "' is invalid: " ++ message)
    | .ok true => .ok true
    | .ok false => argvMatchesPolicy test commandLine patterns

/-- `assertPathInsideWorkspace`. -/
def LocalCommand.assertPathInsideWorkspace (command : LocalCommand) : PolicyCheck Unit :=
  match command.cwdCheck with
  | .inside => .ok ()
  | .outside =>
    denied "local_capability_cwd_denied"
      ("Path '" ++ command.cwd ++ "' is outside the selected workspace.")
  | .unresolved path message =>
    denied "local_capability_path_unresolved"
      ("Path '" ++ path ++ "' could not be resolved: " ++ message)

/-- `assertCommandPolicyAllows`. -/
def assertCommandPolicyAllows (test : String → String → Except String Bool)
    (policy : Option CommandPolicy) (command : LocalCommand) : PolicyCheck Unit :=
  match policy with
  | none =>
    denied "local_capability_command_policy_required"
      "Executable local capability actions require a structured command policy."
  | some policy => do
    forbid (policy.allowShell = false ∧ command.useShell = true)
      "local_capability_shell_denied" "Shell wrappers are not allowed by policy."
    forbid (policy.timeoutSeconds < command.timeoutSeconds) "local_capability_timeout_exceeded"
        ("Requested timeout " ++ toString command.timeoutSeconds ++ "s exceeds policy timeout " ++
          toString policy.timeoutSeconds ++ "s.")
    forbid (policy.networkPolicy ≠ .inherit) "local_capability_network_policy_unsupported"
        ("Network policy '" ++ policy.networkPolicy.text ++
          "' cannot be enforced by this runner.")
    forbid (policy.envPolicy = .minimal ∧ command.env ≠ []) "local_capability_env_denied"
        "Custom environment variables are not allowed by minimal environment policy."
    forbid (policy.deniedExecutables.any (·.contains command.executable))
      "local_capability_executable_denied"
        ("Executable '" ++ command.executable ++ "' is denied by policy.")
    forbid (policy.allowedExecutables.any (!·.contains command.executable))
      "local_capability_executable_not_allowed"
        ("Executable '" ++ command.executable ++ "' is not allowed by policy.")
    if let some patterns := policy.argvPatterns then
      let matched ← argvMatchesPolicy test (String.intercalate " " command.argv) patterns
      forbid (matched = false) "local_capability_argv_denied"
        "Command arguments do not match policy."
    command.assertPathInsideWorkspace

def EngineAction.commandCheck (test : String → String → Except String Bool)
    (grant : LocalCapabilityGrant) : EngineAction → PolicyCheck Unit
  | .filesystem _ | .git _ => .ok ()
  | .shell command => do
    assertExecutableGrantAllowed grant "Shell actions"
    assertCommandPolicyAllows test grant.commandPolicy command
  | .devServer .start command => do
    assertExecutableGrantAllowed grant "Dev server start actions"
    match command with
    | none =>
      denied "local_capability_command_policy_required"
        ("Dev server start actions require executable, argv, cwd, workspace root, shell " ++
          "mode, and timeout.")
    | some command => assertCommandPolicyAllows test grant.commandPolicy command
  | .devServer .stop _ | .devServer .inspect _ => .ok ()

/-- A call of `LocalCapabilityEngine`; the checks after the count leave the manager alone. -/
def LeaseManager.authorize (config : LeaseManagerConfig)
    (test : String → String → Except String Bool) (lease : LocalCapabilityLease)
    (request : EngineRequest) (manager : LeaseManager) :
    LeaseManager × PolicyCheck LocalCapabilityGrant :=
  let allowed := manager.assertActionAllowed config lease request.toActionRequest
  (allowed.1, do
    let grant ← allowed.2
    request.action.commandCheck test grant
    return grant)

end HarnessControl.LocalActions
