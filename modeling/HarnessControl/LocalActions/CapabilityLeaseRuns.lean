import HarnessControl.LocalActions.CapabilityLeases
import HarnessControl.Library.Transition

/-!
# Runs of the lease manager

Sessions start with leases and stop, anyone may ask the engine with any lease, leases are revoked
and time passes.  The runner itself only asks with the lease of a session.
-/

namespace HarnessControl.LocalActions

open HarnessControl.Library

/-! ## Call keys -/

theorem append_separator_inj {α : Type} {separator : α} {first second rest other : List α}
    (hrest : separator ∉ rest) (hother : separator ∉ other)
    (h : first ++ separator :: rest = second ++ separator :: other) :
    first = second ∧ rest = other := by
  rw [List.append_eq_append_iff] at h
  rcases h with ⟨middle, rfl, heq⟩ | ⟨middle, rfl, heq⟩
  · cases middle with
    | nil =>
      rw [List.nil_append] at heq
      cases heq
      exact ⟨(List.append_nil first).symm, rfl⟩
    | cons head middle =>
      rw [List.cons_append] at heq
      cases heq
      exact absurd (List.mem_append_right middle List.mem_cons_self) hrest
  · cases middle with
    | nil =>
      rw [List.nil_append] at heq
      cases heq
      exact ⟨List.append_nil second, rfl⟩
    | cons head middle =>
      rw [List.cons_append] at heq
      cases heq
      exact absurd (List.mem_append_right middle List.mem_cons_self) hother

theorem LocalCapabilityId.text_plain (id : LocalCapabilityId) : ':' ∉ id.text.toList := by
  cases id <;> decide

variable {id other : LocalCapabilityId}

theorem LocalCapabilityId.text_inj (h : id.text = other.text) :
    id = other := by
  cases id <;> cases other <;> first | rfl | (exact absurd h (by decide))

theorem countKey_inj {leaseId otherId : String}
    (h : countKey leaseId id.text = countKey otherId other.text) : leaseId = otherId ∧ id = other := by
  have hlists := congrArg String.toList h
  unfold countKey at hlists
  rw [String.toList_append, String.toList_append, String.toList_append, String.toList_append,
    List.append_assoc, List.append_assoc] at hlists
  have hsplit := append_separator_inj id.text_plain other.text_plain hlists
  exact ⟨String.toList_inj.mp hsplit.1, LocalCapabilityId.text_inj (String.toList_inj.mp hsplit.2)⟩

/-! ## Runs -/

structure LeasedSession where
  sessionId : String
  workspaceId : String
  providerInstanceId : String
  localCapabilityLease : Option LocalCapabilityLease

/-- The manager and the sessions, with the leases that were validated and the calls that were
authorised so far. -/
structure LeaseRun where
  manager : LeaseManager
  sessions : Dict String LeasedSession
  validated : List LocalCapabilityLease
  authorised : List (LocalCapabilityLease × LocalCapabilityId)

inductive LeaseAction where
  | start (payload : LeasedSessionStart) (provider : LeasedProvider)
  | authorize (lease : LocalCapabilityLease) (request : EngineRequest)
  /-- A local action of a session, which uses the session's own lease. -/
  | dispatch (sessionId : String) (action : EngineAction)
  | revoke (leaseId : String)
  /-- The session ends, which revokes its lease. -/
  | stop (sessionId : String)
  | tick (now : Int)

def LeaseRun.initial (now : Int) : LeaseRun := ⟨LeaseManager.initial now, Dict.empty, [], []⟩

def LeasedSession.request (session : LeasedSession) (action : EngineAction) : EngineRequest :=
  ⟨session.sessionId, session.workspaceId, session.providerInstanceId, action⟩

def LeaseRun.authorize (config : LeaseManagerConfig)
    (test : String → String → Except String Bool) (lease : LocalCapabilityLease)
    (request : EngineRequest) (run : LeaseRun) : LeaseRun :=
  let call := run.manager.authorize config test lease request
  match call.2 with
  | .error _ => { run with manager := call.1 }
  | .ok _ =>
    { run with
      manager := call.1
      authorised := run.authorised ++ [(lease, request.action.capability)] }

def LeaseRun.leaseOf (run : LeaseRun) (sessionId : String) :
    Option (LeasedSession × LocalCapabilityLease) := do
  let session ← run.sessions.get? sessionId
  let lease ← session.localCapabilityLease
  return (session, lease)

def LeaseRun.step (config : LeaseManagerConfig) (test : String → String → Except String Bool)
    (run : LeaseRun) : LeaseAction → LeaseRun
  | .start payload provider =>
    match run.manager.validateSessionLease config payload provider with
    | .error _ => run
    | .ok lease =>
      { run with
        sessions := run.sessions.set payload.sessionId
          ⟨payload.sessionId, payload.workspaceId, payload.providerInstanceId, lease⟩
        validated := run.validated ++ lease.toList }
  | .authorize lease request => run.authorize config test lease request
  | .dispatch sessionId action =>
    match run.leaseOf sessionId with
    | none => run
    | some (session, lease) => run.authorize config test lease (session.request action)
  | .revoke leaseId => { run with manager := run.manager.revokeLease leaseId }
  | .stop sessionId =>
    let sessions := run.sessions.erase sessionId
    match run.leaseOf sessionId with
    | none => { run with sessions }
    | some (_, lease) => { run with sessions, manager := run.manager.revokeLease lease.leaseId }
  | .tick now => { run with manager := { run.manager with now } }

/-- The action may bear on the decisions for a lease: it names the lease or moves the clock. -/
def LeaseAction.concerns (run : LeaseRun) (leaseId : String) : LeaseAction → Prop
  | .start _ _ => False
  | .authorize lease _ => lease.leaseId = leaseId
  | .dispatch sessionId _ | .stop sessionId =>
    ∃ session lease, run.leaseOf sessionId = some (session, lease) ∧ lease.leaseId = leaseId
  | .revoke revoked => revoked = leaseId
  | .tick _ => True

/-! ## What an authorised call meets -/

variable {config : LeaseManagerConfig} {test : String → String → Except String Bool}
  {manager : LeaseManager} {lease : LocalCapabilityLease} {request : EngineRequest}
  {grant : LocalCapabilityGrant}

/-- What the lease, the runner and the clock say for a call that is authorised. -/
structure Authorises (config : LeaseManagerConfig) (manager : LeaseManager)
    (lease : LocalCapabilityLease) (request : EngineRequest) (grant : LocalCapabilityGrant) :
    Prop where
  unrevoked : lease.leaseId ∉ manager.revokedLeaseIds
  unexpired : ∃ expiresAt, lease.expiresAt = some expiresAt ∧ manager.now < expiresAt
  session : request.sessionId = lease.hcpSessionId
  workspace : request.workspaceId = lease.workspaceId
  provider : request.providerInstanceId = lease.providerInstanceId
  granted : lease.capabilities.find? (fun candidate =>
    candidate.id == request.action.capability.text) = some grant
  scope : request.action.scope ∈ grant.scopes
  configured : ∃ capability ∈ config.localCapabilities,
    capability.id = request.action.capability ∧ capability.status = .available ∧
      request.action.scope ∈ capability.scopes
  calls : ∀ maxCalls, grant.maxCalls = some maxCalls →
    manager.callCount lease.leaseId request.action.capability.text < maxCalls

theorem check_bind {α β : Type} {check : PolicyCheck α} {rest : α → PolicyCheck β} {result : β}
    (h : (check >>= rest) = .ok result) : ∃ value, check = .ok value ∧ rest value = .ok result := by
  cases check with
  | error error => cases h
  | ok value => exact ⟨value, rfl, h⟩

theorem forbid_ok {condition : Prop} [Decidable condition] {code message : String}
    {value : Unit} (h : forbid condition code message = .ok value) : ¬condition := by
  unfold forbid at h
  split at h
  · cases h
  · assumption

theorem LeaseManager.usable {value : Unit} (h : manager.assertLeaseUsable lease = .ok value) :
    lease.leaseId ∉ manager.revokedLeaseIds ∧
      ∃ expiresAt, lease.expiresAt = some expiresAt ∧ manager.now < expiresAt := by
  unfold LeaseManager.assertLeaseUsable at h
  rcases check_bind h with ⟨_, hrevoked, hexpired⟩
  refine ⟨forbid_ok hrevoked, ?_⟩
  have hunexpired := forbid_ok hexpired
  cases hexpires : lease.expiresAt with
  | none =>
    rw [hexpires] at hunexpired
    exact absurd rfl hunexpired
  | some expiresAt =>
    rw [hexpires, Option.all_some, decide_eq_true_eq, not_le] at hunexpired
    exact ⟨expiresAt, rfl, hunexpired⟩

theorem LeaseManagerConfig.configured {capabilityId : String} {capability : LocalCapabilityConfig}
    (h : config.requireConfiguredCapability capabilityId = .ok capability) :
    capability ∈ config.localCapabilities ∧ capability.id.text = capabilityId ∧
      capability.status = .available := by
  unfold LeaseManagerConfig.requireConfiguredCapability at h
  split at h
  · cases h
  · rename_i found hfound
    rcases check_bind h with ⟨_, havailable, hsame⟩
    cases hsame
    have hid := List.find?_some hfound
    exact ⟨List.mem_of_find?_eq_some hfound, beq_iff_eq.mp hid, not_not.mp (forbid_ok havailable)⟩

theorem LeaseManager.grantFor_ok
    (h : manager.grantFor config lease request.toActionRequest = .ok grant) :
    lease.leaseId ∉ manager.revokedLeaseIds ∧
    (∃ expiresAt, lease.expiresAt = some expiresAt ∧ manager.now < expiresAt) ∧
    request.sessionId = lease.hcpSessionId ∧ request.workspaceId = lease.workspaceId ∧
    request.providerInstanceId = lease.providerInstanceId ∧
    lease.capabilities.find? (fun candidate =>
      candidate.id == request.action.capability.text) = some grant ∧
    request.action.scope ∈ grant.scopes ∧
    ∃ capability ∈ config.localCapabilities, capability.id = request.action.capability ∧
      capability.status = .available ∧ request.action.scope ∈ capability.scopes := by
  unfold LeaseManager.grantFor at h
  rcases check_bind h with ⟨_, husable, h⟩
  rcases check_bind h with ⟨_, hsession, h⟩
  rcases check_bind h with ⟨_, hworkspace, h⟩
  rcases check_bind h with ⟨_, hprovider, h⟩
  split at h
  · cases h
  · rename_i found hfound
    rcases check_bind h with ⟨_, hscope, h⟩
    rcases check_bind h with ⟨capability, hconfigured, h⟩
    rcases check_bind h with ⟨_, havailable, h⟩
    cases h
    have hunit := LeaseManager.usable husable
    rcases LeaseManagerConfig.configured hconfigured with ⟨hmember, hid, hstatus⟩
    exact ⟨hunit.1, hunit.2, not_not.mp (forbid_ok hsession), not_not.mp (forbid_ok hworkspace),
      not_not.mp (forbid_ok hprovider), hfound, not_not.mp (forbid_ok hscope), capability, hmember,
      LocalCapabilityId.text_inj hid, hstatus, not_not.mp (forbid_ok havailable)⟩

theorem LeaseManager.assertActionAllowed_cases (config : LeaseManagerConfig)
    (lease : LocalCapabilityLease) (request : LocalCapabilityActionRequest)
    (manager : LeaseManager) :
    (∃ error, manager.assertActionAllowed config lease request = (manager, .error error)) ∨
    ∃ grant, manager.grantFor config lease request = .ok grant ∧
      (∀ maxCalls, grant.maxCalls = some maxCalls →
        manager.callCount lease.leaseId grant.id < maxCalls) ∧
      manager.assertActionAllowed config lease request =
        ({ manager with
          callCounts := manager.callCounts.set (countKey lease.leaseId grant.id)
            (manager.callCount lease.leaseId grant.id + 1) }, .ok grant) := by
  unfold LeaseManager.assertActionAllowed
  cases hgrant : manager.grantFor config lease request with
  | error error => exact Or.inl ⟨error, rfl⟩
  | ok grant =>
    dsimp only
    split
    · exact Or.inl ⟨_, rfl⟩
    · rename_i hcalls
      refine Or.inr ⟨grant, rfl, fun maxCalls hmax => ?_, rfl⟩
      rw [hmax, Option.any_some, decide_eq_true_eq, not_le] at hcalls
      exact hcalls

theorem find_grant_id {capabilityId : String}
    (h : lease.capabilities.find? (fun candidate => candidate.id == capabilityId) = some grant) :
    grant.id = capabilityId := by
  have hid := List.find?_some h
  exact beq_iff_eq.mp hid

theorem LeaseManager.authorize_ok (h : (manager.authorize config test lease request).2 = .ok grant) :
    Authorises config manager lease request grant ∧
      (manager.authorize config test lease request).1 = { manager with
        callCounts := manager.callCounts.set
          (countKey lease.leaseId request.action.capability.text)
          (manager.callCount lease.leaseId request.action.capability.text + 1) } := by
  unfold LeaseManager.authorize at h ⊢
  dsimp only at h ⊢
  rcases LeaseManager.assertActionAllowed_cases config lease request.toActionRequest manager with
    ⟨error, heq⟩ | ⟨granted, hgrant, hcalls, heq⟩
  · rw [heq] at h
    cases h
  · rw [heq] at h ⊢
    rcases check_bind h with ⟨_, hfirst, h⟩
    cases hfirst
    rcases check_bind h with ⟨_, -, h⟩
    cases h
    rcases LeaseManager.grantFor_ok hgrant with
      ⟨hunrevoked, hunexpired, hsession, hworkspace, hprovider, hgranted, hscope, hconfigured⟩
    have hid := find_grant_id hgranted
    rw [hid] at hcalls
    dsimp only
    rw [hid]
    exact ⟨⟨hunrevoked, hunexpired, hsession, hworkspace, hprovider, hgranted, hscope, hconfigured,
      hcalls⟩, rfl⟩

theorem LeaseManager.authorize_manager (config : LeaseManagerConfig)
    (test : String → String → Except String Bool) (lease : LocalCapabilityLease)
    (request : EngineRequest) (manager : LeaseManager) :
    (manager.authorize config test lease request).1 = manager ∨
    (manager.authorize config test lease request).1 = { manager with
      callCounts := manager.callCounts.set
        (countKey lease.leaseId request.action.capability.text)
        (manager.callCount lease.leaseId request.action.capability.text + 1) } := by
  unfold LeaseManager.authorize
  dsimp only
  rcases LeaseManager.assertActionAllowed_cases config lease request.toActionRequest manager with
    ⟨error, heq⟩ | ⟨granted, hgrant, -, heq⟩
  · rw [heq]
    exact Or.inl rfl
  · rw [heq]
    rw [find_grant_id (LeaseManager.grantFor_ok hgrant).2.2.2.2.2.1]
    exact Or.inr rfl

/-! ## Decisions -/

structure SameDecisions (leaseId : String) (before after : LeaseManager) : Prop where
  now : after.now = before.now
  revoked : leaseId ∈ after.revokedLeaseIds ↔ leaseId ∈ before.revokedLeaseIds
  calls : ∀ capability : LocalCapabilityId,
    after.callCount leaseId capability.text = before.callCount leaseId capability.text

theorem SameDecisions.refl (leaseId : String) (manager : LeaseManager) :
    SameDecisions leaseId manager manager :=
  ⟨rfl, Iff.rfl, fun _ => rfl⟩

theorem SameDecisions.authorize {after : LeaseManager}
    (h : SameDecisions lease.leaseId manager after) (request : EngineRequest) :
    (after.authorize config test lease request).2 =
      (manager.authorize config test lease request).2 := by
  have husable : after.assertLeaseUsable lease = manager.assertLeaseUsable lease := by
    unfold LeaseManager.assertLeaseUsable
    simp only [h.now, h.revoked]
  have hgrant : after.grantFor config lease request.toActionRequest =
      manager.grantFor config lease request.toActionRequest := by
    unfold LeaseManager.grantFor
    rw [husable]
  have hallowed : (after.assertActionAllowed config lease request.toActionRequest).2 =
      (manager.assertActionAllowed config lease request.toActionRequest).2 := by
    unfold LeaseManager.assertActionAllowed
    rw [hgrant]
    cases hfound : manager.grantFor config lease request.toActionRequest with
    | error error => rfl
    | ok grant =>
      have hid := find_grant_id (LeaseManager.grantFor_ok hfound).2.2.2.2.2.1
      dsimp only
      rw [hid, h.calls]
      split
      · rfl
      · rfl
  unfold LeaseManager.authorize
  dsimp only
  rw [hallowed]

theorem LeaseManager.callCount_set {leaseId otherId : String}
    (manager : LeaseManager) (count : Nat) :
    LeaseManager.callCount otherId other.text { manager with
        callCounts := manager.callCounts.set (countKey leaseId id.text) count } =
      if otherId = leaseId ∧ other = id then count else manager.callCount otherId other.text := by
  unfold LeaseManager.callCount
  dsimp only
  rw [Dict.get?_set]
  by_cases hsame : otherId = leaseId ∧ other = id
  · rw [if_pos hsame, if_pos (by rw [hsame.1, hsame.2]), Option.getD_some]
  · rw [if_neg hsame, if_neg fun hkey => hsame (countKey_inj hkey)]

theorem LeaseManager.authorize_apart {leaseId : String} (h : lease.leaseId ≠ leaseId) :
    SameDecisions leaseId manager (manager.authorize config test lease request).1 := by
  rcases manager.authorize_manager config test lease request with heq | heq
  · rw [heq]
    exact SameDecisions.refl leaseId manager
  · rw [heq]
    refine ⟨rfl, Iff.rfl, fun capability => ?_⟩
    rw [LeaseManager.callCount_set, if_neg fun hsame => h hsame.1.symm]

theorem LeaseManager.revokeLease_apart {leaseId revoked : String} (h : revoked ≠ leaseId) :
    SameDecisions leaseId manager (manager.revokeLease revoked) := by
  refine ⟨rfl, ?_, fun _ => rfl⟩
  change leaseId ∈ manager.revokedLeaseIds ++ [revoked] ↔ _
  rw [List.mem_append, List.mem_singleton]
  constructor
  · rintro (hbefore | rfl)
    · exact hbefore
    · exact absurd rfl h
  · exact Or.inl

theorem LeaseRun.step_apart (run : LeaseRun) {action : LeaseAction} {leaseId : String}
    (h : ¬action.concerns run leaseId) :
    SameDecisions leaseId run.manager (run.step config test action).manager := by
  have hauthorize : ∀ (lease : LocalCapabilityLease) (request : EngineRequest),
      lease.leaseId ≠ leaseId →
      SameDecisions leaseId run.manager (run.authorize config test lease request).manager := by
    intro lease request hother
    have hapart : SameDecisions leaseId run.manager
        (run.manager.authorize config test lease request).1 :=
      LeaseManager.authorize_apart hother
    unfold LeaseRun.authorize
    dsimp only
    split
    · exact hapart
    · exact hapart
  cases action with
  | start payload provider =>
    unfold LeaseRun.step
    dsimp only
    split
    · exact SameDecisions.refl leaseId run.manager
    · exact SameDecisions.refl leaseId run.manager
  | authorize lease request => exact hauthorize lease request h
  | dispatch sessionId action =>
    unfold LeaseRun.step
    dsimp only
    split
    · exact SameDecisions.refl leaseId run.manager
    · rename_i session lease hlease
      exact hauthorize lease _ fun hsame => h ⟨session, lease, hlease, hsame⟩
  | revoke revoked => exact LeaseManager.revokeLease_apart h
  | stop sessionId =>
    unfold LeaseRun.step
    dsimp only
    split
    · exact SameDecisions.refl leaseId run.manager
    · rename_i session lease hlease
      exact LeaseManager.revokeLease_apart fun hsame => h ⟨session, lease, hlease, hsame⟩
  | tick now => exact absurd trivial h

/-! ## Validation -/

/-- What holds of a lease that a session start validated. -/
structure Validated (config : LeaseManagerConfig) (payload : LeasedSessionStart)
    (provider : LeasedProvider) (lease : LocalCapabilityLease) : Prop where
  brought : payload.localCapabilityLease = some lease
  session : lease.hcpSessionId = payload.sessionId
  host : lease.executionHostId = config.hostId
  selected : lease.providerInstanceId = payload.providerInstanceId
  workspace : lease.workspaceId = payload.workspaceId
  grants : ∀ grant ∈ lease.capabilities, ∃ capability ∈ config.localCapabilities,
    capability.id.text = grant.id ∧ capability.status = .available ∧
      (∀ scope ∈ grant.scopes, scope ∈ capability.scopes) ∧
      capability.id ∈ provider.localCapabilities

theorem forM_ok {α : Type} {check : α → PolicyCheck Unit} {items : List α} {value : PUnit}
    (h : items.forM check = .ok value) : ∀ item ∈ items, check item = .ok () := by
  induction items with
  | nil => exact fun item hitem => nomatch hitem
  | cons first rest ih =>
    rw [List.forM_eq_forM, List.forM_cons] at h
    rcases check_bind h with ⟨_, hfirst, hrest⟩
    intro item hitem
    rcases List.mem_cons.mp hitem with rfl | hlater
    · exact hfirst
    · exact ih hrest item hlater

theorem LeaseManagerConfig.assertGrant_ok {provider : LeasedProvider}
    (h : config.assertGrant provider grant = .ok ()) :
    ∃ capability ∈ config.localCapabilities,
      capability.id.text = grant.id ∧ capability.status = .available ∧
        (∀ scope ∈ grant.scopes, scope ∈ capability.scopes) ∧
        capability.id ∈ provider.localCapabilities := by
  unfold LeaseManagerConfig.assertGrant at h
  rcases check_bind h with ⟨capability, hconfigured, h⟩
  rcases check_bind h with ⟨_, hscopes, hsupports⟩
  rcases LeaseManagerConfig.configured hconfigured with ⟨hmember, hid, hstatus⟩
  refine ⟨capability, hmember, hid, hstatus, fun scope hscope => ?_, ?_⟩
  · have hnone := not_not.mp (forbid_ok hscopes)
    rw [List.filter_eq_nil_iff] at hnone
    have havailable := hnone scope hscope
    rw [Bool.not_eq_true', Bool.not_eq_false, List.contains_iff_mem] at havailable
    exact havailable
  · unfold LeasedProvider.assertSupports at hsupports
    split at hsupports
    · rename_i hany
      rcases List.any_eq_true.mp hany with ⟨id, hmember, hsame⟩
      have hsame' : id.text = capability.id.text := (beq_iff_eq.mp hsame).trans hid.symm
      rw [← LocalCapabilityId.text_inj hsame']
      exact hmember
    · cases hsupports

theorem LeaseManager.validated {payload : LeasedSessionStart} {provider : LeasedProvider}
    (h : manager.validateSessionLease config payload provider = .ok (some lease)) :
    Validated config payload provider lease := by
  unfold LeaseManager.validateSessionLease at h
  split at h
  · cases h
  · rename_i brought hbrought
    rcases check_bind h with ⟨_, hbinding, h⟩
    rcases check_bind h with ⟨_, -, h⟩
    rcases check_bind h with ⟨_, hgrants, h⟩
    cases h
    unfold LeaseManagerConfig.assertLeaseBinding at hbinding
    rcases check_bind hbinding with ⟨_, hsession, hbinding⟩
    rcases check_bind hbinding with ⟨_, hhost, hbinding⟩
    rcases check_bind hbinding with ⟨_, hprovider, hworkspace⟩
    exact ⟨hbrought, not_not.mp (forbid_ok hsession), not_not.mp (forbid_ok hhost),
      not_not.mp (forbid_ok hprovider), not_not.mp (forbid_ok hworkspace),
      fun grant hgrant => LeaseManagerConfig.assertGrant_ok (forM_ok hgrants grant hgrant)⟩

/-! ## What every run keeps -/

/-- The session was started with its lease, and the lease was validated then. -/
def LeasedSession.StartedWith (config : LeaseManagerConfig) (session : LeasedSession)
    (lease : LocalCapabilityLease) : Prop :=
  ∃ payload provider, payload.sessionId = session.sessionId ∧
    payload.workspaceId = session.workspaceId ∧
    payload.providerInstanceId = session.providerInstanceId ∧
    Validated config payload provider lease

structure LeaseRun.Kept (config : LeaseManagerConfig)
    (test : String → String → Except String Bool) (run : LeaseRun) : Prop where
  authorises : ∀ lease request grant,
    (run.manager.authorize config test lease request).2 = .ok grant →
    Authorises config run.manager lease request grant
  /-- The calls that a lease was authorised for stay within the limit of its grant. -/
  limited : ∀ lease (capability : LocalCapabilityId) grant,
    lease.capabilities.find? (fun candidate => candidate.id == capability.text) = some grant →
    ∀ maxCalls, grant.maxCalls = some maxCalls →
    run.authorised.count (lease, capability) ≤ maxCalls
  /-- The lease that the runner uses for a session is validated and bound to it. -/
  sessions : ∀ sessionId session lease, run.leaseOf sessionId = some (session, lease) →
    session.sessionId = sessionId ∧ lease ∈ run.validated ∧ session.StartedWith config lease
  apart : ∀ action lease request, ¬LeaseAction.concerns run lease.leaseId action →
    ((run.step config test action).manager.authorize config test lease request).2 =
      (run.manager.authorize config test lease request).2

structure LeaseRun.Tracks (config : LeaseManagerConfig) (run : LeaseRun) : Prop where
  counted : ∀ leaseId (capability : LocalCapabilityId),
    (run.authorised.countP fun call => call.1.leaseId == leaseId && call.2 == capability) ≤
      run.manager.callCount leaseId capability.text
  limited : ∀ lease (capability : LocalCapabilityId) grant,
    lease.capabilities.find? (fun candidate => candidate.id == capability.text) = some grant →
    ∀ maxCalls, grant.maxCalls = some maxCalls →
    run.authorised.count (lease, capability) ≤ maxCalls
  sessions : ∀ sessionId session lease, run.leaseOf sessionId = some (session, lease) →
    session.sessionId = sessionId ∧ lease ∈ run.validated ∧ session.StartedWith config lease

variable {run : LeaseRun}

theorem LeaseRun.Tracks.initial (now : Int) : (LeaseRun.initial now).Tracks config where
  counted := fun _ _ => Nat.zero_le _
  limited := fun _ _ _ _ _ _ => Nat.zero_le _
  sessions := fun _ _ _ h => nomatch h

theorem count_le_countP (calls : List (LocalCapabilityLease × LocalCapabilityId))
    (lease : LocalCapabilityLease) (capability : LocalCapabilityId) :
    calls.count (lease, capability) ≤
      calls.countP fun call => call.1.leaseId == lease.leaseId && call.2 == capability := by
  unfold List.count
  apply List.countP_mono_left
  intro call _ hsame
  rw [beq_iff_eq.mp hsame, beq_self_eq_true, beq_self_eq_true]
  rfl

theorem LeaseRun.Tracks.authorize (h : run.Tracks config) (lease : LocalCapabilityLease)
    (request : EngineRequest) : (run.authorize config test lease request).Tracks config := by
  unfold LeaseRun.authorize
  dsimp only
  split
  · -- a denied call may have been counted
    refine ⟨fun leaseId capability => ?_, h.limited, h.sessions⟩
    apply Nat.le_trans (h.counted leaseId capability)
    rcases run.manager.authorize_manager config test lease request with heq | heq
    · rw [heq]
    · rw [heq, LeaseManager.callCount_set]
      split
      · rename_i hsame
        rw [hsame.1, hsame.2]
        omega
      · exact Nat.le_refl _
  · rename_i grant hgrant
    rcases LeaseManager.authorize_ok hgrant with ⟨hauthorises, heq⟩
    refine ⟨fun leaseId capability => ?_, fun other capability found hfound maxCalls hmax => ?_,
      h.sessions⟩
    · have hcounted := h.counted leaseId capability
      dsimp only
      rw [heq, LeaseManager.callCount_set, List.countP_append, List.countP_singleton]
      by_cases hsame : leaseId = lease.leaseId ∧ capability = request.action.capability
      · rw [if_pos hsame]
        rw [hsame.1, hsame.2] at hcounted ⊢
        rw [beq_self_eq_true, beq_self_eq_true]
        simp only [Bool.and_self, if_true]
        omega
      · rw [if_neg hsame, if_neg]
        · omega
        · rw [Bool.and_eq_true, beq_iff_eq, beq_iff_eq]
          exact fun hboth => hsame ⟨hboth.1.symm, hboth.2.symm⟩
    · have hlimited := h.limited other capability found hfound maxCalls hmax
      dsimp only
      rw [List.count_append, List.count_singleton]
      by_cases hsame : (lease, request.action.capability) = (other, capability)
      · cases hsame
        -- the call was below the limit before it was authorised
        rw [hauthorises.granted] at hfound
        cases hfound
        have hbelow := hauthorises.calls maxCalls hmax
        have hcounted := h.counted lease.leaseId request.action.capability
        have hcount := count_le_countP run.authorised lease request.action.capability
        rw [beq_self_eq_true, if_pos rfl]
        omega
      · rw [if_neg]
        · omega
        · rw [beq_iff_eq]
          exact hsame

theorem LeaseRun.leaseOf_eq_some {sessionId : String} {session : LeasedSession}
    (h : run.leaseOf sessionId = some (session, lease)) :
    run.sessions.get? sessionId = some session ∧ session.localCapabilityLease = some lease := by
  unfold LeaseRun.leaseOf at h
  simp only [Option.bind_eq_bind, Option.bind_eq_some_iff, Option.pure_def, Option.some.injEq,
    Prod.mk.injEq] at h
  rcases h with ⟨found, hfound, brought, hbrought, rfl, rfl⟩
  exact ⟨hfound, hbrought⟩

theorem LeaseRun.leaseOf_of {sessionId : String} {session : LeasedSession}
    (hsession : run.sessions.get? sessionId = some session)
    (hlease : session.localCapabilityLease = some lease) :
    run.leaseOf sessionId = some (session, lease) := by
  unfold LeaseRun.leaseOf
  rw [hsession, Option.bind_eq_bind, Option.bind_some, hlease]
  rfl

theorem LeaseRun.Tracks.start (h : run.Tracks config) (payload : LeasedSessionStart)
    (provider : LeasedProvider) : (run.step config test (.start payload provider)).Tracks config := by
  unfold LeaseRun.step
  dsimp only
  split
  · exact h
  · rename_i brought hbrought
    refine ⟨h.counted, h.limited, fun sessionId session lease hlease => ?_⟩
    rcases LeaseRun.leaseOf_eq_some hlease with ⟨hsession, hbrings⟩
    change (run.sessions.set payload.sessionId _).get? sessionId = some session at hsession
    rw [Dict.get?_set] at hsession
    split at hsession
    · rename_i hid
      cases hsession
      change brought = some lease at hbrings
      subst hbrings
      have hvalidated := LeaseManager.validated hbrought
      exact ⟨hid.symm, List.mem_append_right _ (List.mem_singleton_self lease), payload, provider,
        rfl, rfl, rfl, hvalidated⟩
    · have hbefore := h.sessions sessionId session lease (LeaseRun.leaseOf_of hsession hbrings)
      exact ⟨hbefore.1, List.mem_append_left _ hbefore.2.1, hbefore.2.2⟩

theorem LeaseRun.Tracks.stop (h : run.Tracks config) (sessionId : String) :
    (run.step config test (.stop sessionId)).Tracks config := by
  have hsessions : ∀ other session lease,
      LeaseRun.leaseOf { run with sessions := run.sessions.erase sessionId } other =
        some (session, lease) →
      session.sessionId = other ∧ lease ∈ run.validated ∧ session.StartedWith config lease := by
    intro other session lease hlease
    rcases LeaseRun.leaseOf_eq_some hlease with ⟨hsession, hbrings⟩
    change (run.sessions.erase sessionId).get? other = some session at hsession
    by_cases hother : other = sessionId
    · rw [hother, Dict.get?_erase_self] at hsession
      cases hsession
    · rw [Dict.get?_erase_of_ne _ hother] at hsession
      exact h.sessions other session lease (LeaseRun.leaseOf_of hsession hbrings)
  unfold LeaseRun.step
  dsimp only
  split
  · exact ⟨h.counted, h.limited, hsessions⟩
  · exact ⟨h.counted, h.limited, hsessions⟩

theorem LeaseRun.Tracks.step (h : run.Tracks config) (action : LeaseAction) :
    (run.step config test action).Tracks config := by
  cases action with
  | start payload provider => exact h.start payload provider
  | authorize lease request => exact h.authorize lease request
  | dispatch sessionId action =>
    unfold LeaseRun.step
    dsimp only
    split
    · exact h
    · exact h.authorize _ _
  | revoke leaseId => exact ⟨h.counted, h.limited, h.sessions⟩
  | stop sessionId => exact h.stop sessionId
  | tick now => exact ⟨h.counted, h.limited, h.sessions⟩

theorem LeaseRun.Tracks.kept (h : run.Tracks config) : run.Kept config test where
  authorises := fun _ _ _ hauthorised => (LeaseManager.authorize_ok hauthorised).1
  limited := h.limited
  sessions := h.sessions
  apart := fun _ _ request hconcerns => (run.step_apart hconcerns).authorize request

/-- Whatever sessions start and stop, whoever asks with whatever lease, and however leases are
revoked and time passes: a call is authorised only by a lease that is usable, fits the request and
grants it, within the limit of the grant; the runner uses leases that it has validated; and what
happens to one lease decides nothing about another. -/
theorem leases_kept (config : LeaseManagerConfig) (test : String → String → Except String Bool)
    (now : Int) (actions : List LeaseAction) :
    Always (LeaseRun.step config test) (LeaseRun.Kept config test) (LeaseRun.initial now)
      actions := by
  have htracks : Always (LeaseRun.step config test) (LeaseRun.Tracks config)
      (LeaseRun.initial now) actions :=
    always_of_inv (fun _ action h => h.step action) (LeaseRun.Tracks.initial now) actions
  exact htracks.mono fun _ h => h.kept

/-! ## A lease that nobody validated -/

def readerConfig : LeaseManagerConfig :=
  ⟨[⟨.filesystem, .available, ["workspace_read"]⟩], "host"⟩

def strayLease : LocalCapabilityLease :=
  ⟨"lease", "session", "elsewhere", "provider", "workspace", some 10,
    [⟨"filesystem", ["workspace_read"], none, none, none⟩]⟩

def readRequest : EngineRequest := ⟨"session", "workspace", "provider", .filesystem .read⟩

/-- The engine takes the lease that it is given. -/
theorem stray_lease_authorised :
    ¬∀ (config : LeaseManagerConfig) (test : String → String → Except String Bool) (now : Int)
      (actions : List LeaseAction),
      ∀ call ∈ (Library.run (LeaseRun.step config test) (LeaseRun.initial now) actions).authorised,
        call.1 ∈ (Library.run (LeaseRun.step config test) (LeaseRun.initial now)
          actions).validated := by
  intro hall
  have hvalidated := hall readerConfig (fun _ _ => .ok true) 0 [.authorize strayLease readRequest]
    (strayLease, .filesystem) (by decide)
  exact absurd hvalidated (by decide)

end HarnessControl.LocalActions
