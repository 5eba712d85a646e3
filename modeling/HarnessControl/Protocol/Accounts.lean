import HarnessControl.Library.Dict
import HarnessControl.Library.Newest
import HarnessControl.Protocol.Json

/-!
# Account usage

Hosts report what their providers know about the usage of an account.  `HcpAccountUsageReducer`
keeps, for each provider of each host, the latest observation and the last successful one.
-/

namespace HarnessControl.Protocol

open HarnessControl.Library

/-! ## Observations -/

/-- A date-time with its offset, and the time in milliseconds that it is parsed to. -/
structure AccountTimestamp where
  text : String
  time : Int
deriving DecidableEq

inductive AccountScopeSource where
  | provider
  | operator
  | «local»
deriving DecidableEq

structure AccountIdentity where
  key : String
  provider : String
  scopeSource : AccountScopeSource
  label : String
deriving DecidableEq

inductive AccountLimitKind where
  | quota
  | spend
deriving DecidableEq

structure AccountLimit where
  id : String
  label : String
  kind : AccountLimitKind
  usedPercent : Option Rat
  resetsAt : Option AccountTimestamp
  windowMinutes : Option Int
deriving DecidableEq

inductive AccountUsageSource where
  | codexAppServer
  | claudeSdkExperimental
deriving DecidableEq

structure AccountUsageAvailable where
  observedAt : AccountTimestamp
  account : AccountIdentity
  source : AccountUsageSource
  plan : Option String
  limits : List AccountLimit
deriving DecidableEq

inductive AccountUnavailableReason where
  | disabled
  | unsupported
  | unauthenticated
  | notApplicable
  | timeout
  | providerError
  | invalidResponse
deriving DecidableEq

structure AccountUsageUnavailable where
  observedAt : AccountTimestamp
  reason : AccountUnavailableReason
  message : String
deriving DecidableEq

inductive AccountUsageObservation where
  | available (usage : AccountUsageAvailable)
  | unavailable (usage : AccountUsageUnavailable)
deriving DecidableEq

/-- `Date.parse(observation.observed_at)`. -/
def AccountUsageObservation.observedAt : AccountUsageObservation → Int
  | .available usage => usage.observedAt.time
  | .unavailable usage => usage.observedAt.time

def AccountUsageObservation.success : AccountUsageObservation → Option AccountUsageAvailable
  | .available usage => some usage
  | .unavailable _ => none

structure AccountProviderReading where
  providerInstanceId : String
  observation : AccountUsageObservation

structure AccountsSnapshotPayload where
  requestId : String
  hostId : String
  providers : List AccountProviderReading

structure AccountSourceState where
  hostId : String
  providerInstanceId : String
  latest : AccountUsageObservation
  lastSuccess : Option AccountUsageAvailable
deriving DecidableEq

/-! ## Schemas -/

/-- `z.string().min(1).max(256)`. -/
def accountId (s : String) : Bool := boundedText 256 s

def AccountIdentity.valid (account : AccountIdentity) : Bool :=
  accountId account.key && accountId account.provider && accountId account.label

def AccountLimit.valid (limit : AccountLimit) : Bool :=
  accountId limit.id && accountId limit.label && limit.usedPercent.all (fun used => decide (0 ≤ used)) &&
    limit.windowMinutes.all fun minutes => decide (0 < minutes)

def AccountUsageAvailable.valid (usage : AccountUsageAvailable) : Bool :=
  usage.account.valid && usage.plan.all accountId && decide (usage.limits.length ≤ 64) &&
    usage.limits.all AccountLimit.valid && decide ((usage.limits.map AccountLimit.id).Nodup)

def AccountUsageObservation.valid : AccountUsageObservation → Bool
  | .available usage => usage.valid
  | .unavailable usage => boundedText 512 usage.message

def AccountProviderReading.valid (reading : AccountProviderReading) : Bool :=
  accountId reading.providerInstanceId && reading.observation.valid

/-- `hcpAccountsSnapshotPayloadSchema`. -/
def AccountsSnapshotPayload.valid (snapshot : AccountsSnapshotPayload) : Bool :=
  accountId snapshot.requestId && accountId snapshot.hostId &&
    decide (snapshot.providers.length ≤ 32) && snapshot.providers.all AccountProviderReading.valid &&
    decide ((snapshot.providers.map AccountProviderReading.providerInstanceId).Nodup)

/-- `accountSourceStateSchema`. -/
def AccountSourceState.valid (state : AccountSourceState) : Bool :=
  accountId state.hostId && accountId state.providerInstanceId && state.latest.valid &&
    state.lastSuccess.all AccountUsageAvailable.valid &&
    state.latest.success.all (fun usage => state.lastSuccess == some usage) &&
    state.lastSuccess.all fun usage => decide (usage.observedAt.time ≤ state.latest.observedAt)

/-! ## The reducer -/

structure AccountUsageReducer where
  sources : Dict (String × String) AccountSourceState
deriving DecidableEq

namespace AccountUsageReducer

def empty : AccountUsageReducer := ⟨Dict.empty⟩

/-- The constructor, which throws where a state is invalid or stands twice. -/
def restore : List AccountSourceState → AccountUsageReducer → Option AccountUsageReducer
  | [], reducer => some reducer
  | source :: rest, reducer =>
    if source.valid = false then none
    else if (reducer.sources.get? (source.hostId, source.providerInstanceId)).isSome then none
    else
      restore rest
        ⟨reducer.sources.set (source.hostId, source.providerInstanceId) source⟩

/-- One reading of a snapshot. -/
def take (hostId : String) (reducer : AccountUsageReducer) (reading : AccountProviderReading) :
    AccountUsageReducer :=
  let key := (hostId, reading.providerInstanceId)
  let existing := reducer.sources.get? key
  if existing.any fun source => decide (reading.observation.observedAt ≤ source.latest.observedAt)
  then reducer
  else
    let success :=
      match reading.observation with
      | .available usage => some usage
      | .unavailable _ => existing.bind AccountSourceState.lastSuccess
    ⟨reducer.sources.set key ⟨hostId, reading.providerInstanceId, reading.observation, success⟩⟩

/-- `apply`; an invalid snapshot throws and changes nothing. -/
def apply (reducer : AccountUsageReducer) (input : AccountsSnapshotPayload) : AccountUsageReducer :=
  if input.valid then input.providers.foldl (take input.hostId) reducer else reducer

def removeSource (hostId providerInstanceId : String) (reducer : AccountUsageReducer) :
    AccountUsageReducer :=
  ⟨reducer.sources.erase (hostId, providerInstanceId)⟩

def snapshot (reducer : AccountUsageReducer) : List AccountSourceState := reducer.sources.values

/-! ## Stored projections -/

/-- Every source stands under its own key and passes the check of the constructor. -/
def Sound (reducer : AccountUsageReducer) : Prop :=
  ∀ key source, reducer.sources.get? key = some source →
    key = (source.hostId, source.providerInstanceId) ∧ source.valid = true

theorem Sound.empty : AccountUsageReducer.empty.Sound := fun _ _ h => nomatch h

variable {reducer : AccountUsageReducer}

theorem Sound.set (h : reducer.Sound) {key : String × String}
    {source : AccountSourceState} (hkey : key = (source.hostId, source.providerInstanceId))
    (hvalid : source.valid = true) : Sound ⟨reducer.sources.set key source⟩ := by
  intro other found hfound
  change (reducer.sources.set _ source).get? other = some found at hfound
  rw [Dict.get?_set] at hfound
  split at hfound
  · rename_i hother
    cases hfound
    exact ⟨hother.trans hkey, hvalid⟩
  · exact h other found hfound

theorem Sound.take (h : reducer.Sound) {hostId : String}
    (hhost : accountId hostId = true) {reading : AccountProviderReading}
    (hreading : reading.valid = true) : (reducer.take hostId reading).Sound := by
  unfold AccountProviderReading.valid at hreading
  rw [Bool.and_eq_true] at hreading
  unfold AccountUsageReducer.take
  dsimp only
  split
  · exact h
  · rename_i hnewer
    refine h.set ?_ ?_
    · rfl
    unfold AccountSourceState.valid
    dsimp only
    rw [hhost, hreading.1, hreading.2]
    cases hobservation : reading.observation with
    | available usage =>
      have hvalid := hreading.2
      rw [hobservation] at hvalid
      change usage.valid = true at hvalid
      simp [AccountUsageObservation.success, AccountUsageObservation.observedAt, hvalid]
    | unavailable usage =>
      cases hexisting : reducer.sources.get? (hostId, reading.providerInstanceId) with
      | none => rfl
      | some source =>
        have hsource := (h _ source hexisting).2
        rw [hexisting, Option.any_some, decide_eq_true_eq, not_le, hobservation] at hnewer
        unfold AccountSourceState.valid at hsource
        simp only [Bool.and_eq_true, Option.all_eq_true, decide_eq_true_eq] at hsource
        have hvalid := hsource.1.1.2
        have hold := hsource.2
        simp only [Bool.true_and, Bool.and_eq_true, Option.all_eq_true, decide_eq_true_eq,
          Option.bind_some]
        refine ⟨⟨hvalid, fun _ hsuccess => by cases hsuccess⟩, fun kept hkept => ?_⟩
        exact le_trans (hold kept hkept) (le_of_lt hnewer)

theorem Sound.apply (h : reducer.Sound)
    (input : AccountsSnapshotPayload) : (reducer.apply input).Sound := by
  unfold AccountUsageReducer.apply
  split
  · rename_i hvalid
    unfold AccountsSnapshotPayload.valid at hvalid
    simp only [Bool.and_eq_true, List.all_eq_true] at hvalid
    have hreadings := hvalid.1.2
    have hhost := hvalid.1.1.1.2
    revert hreadings
    generalize input.providers = readings
    intro hreadings
    induction readings generalizing reducer with
    | nil => exact h
    | cons reading readings ih =>
      rw [List.foldl_cons]
      apply ih (h.take hhost (hreadings reading List.mem_cons_self))
      exact fun other hother => hreadings other (List.mem_cons_of_mem _ hother)
  · exact h

theorem Sound.removeSource (h : reducer.Sound)
    (hostId providerInstanceId : String) : (reducer.removeSource hostId providerInstanceId).Sound := by
  intro key source hsource
  change (reducer.sources.erase (hostId, providerInstanceId)).get? key = some source at hsource
  by_cases hkey : key = (hostId, providerInstanceId)
  · rw [hkey, Dict.get?_erase_self] at hsource
    cases hsource
  · rw [Dict.get?_erase_of_ne _ hkey] at hsource
    exact h key source hsource

theorem Sound.restore_entries (h : reducer.Sound)
    (rest : List ((String × String) × AccountSourceState)) {before : AccountUsageReducer}
    (hentries : reducer.sources.entries = before.sources.entries ++ rest) :
    restore (rest.map Prod.snd) before = some reducer := by
  induction rest generalizing before with
  | nil =>
    rw [List.append_nil] at hentries
    have hsame : before = reducer := by
      cases before
      cases reducer
      exact congrArg AccountUsageReducer.mk (Dict.ext hentries.symm)
    rw [hsame]
    rfl
  | cons entry rest ih =>
    rcases entry with ⟨key, source⟩
    have hmember : (key, source) ∈ reducer.sources.entries := by
      rw [hentries]
      exact List.mem_append_right _ List.mem_cons_self
    rcases h key source (Dict.get?_eq_some_iff.mpr hmember) with ⟨hkey, hvalid⟩
    have hnone : before.sources.get? key = none := by
      rw [Dict.get?_eq_none_iff]
      have hnodup := reducer.sources.nodup
      rw [hentries, List.map_append, List.nodup_append'] at hnodup
      exact fun hbefore => hnodup.2.2 hbefore (List.mem_map_of_mem List.mem_cons_self)
    rw [List.map_cons]
    unfold restore
    rw [hvalid, if_neg (by decide), ← hkey, hnone, if_neg (by decide)]
    apply ih
    rw [Dict.entries_set_of_none source hnone, hentries, List.append_assoc]
    rfl

theorem Sound.restore_snapshot (h : reducer.Sound) :
    restore reducer.snapshot AccountUsageReducer.empty = some reducer :=
  h.restore_entries reducer.sources.entries rfl

/-! ## One source -/

/-- The readings of a source, in the order in which they were delivered. -/
def received (hostId providerInstanceId : String) (snapshots : List AccountsSnapshotPayload) :
    List AccountUsageObservation :=
  (snapshots.filter fun snapshot => snapshot.valid && snapshot.hostId == hostId).flatMap
    fun snapshot => (snapshot.providers.filter fun reading =>
      reading.providerInstanceId == providerInstanceId).map AccountProviderReading.observation

def successful (observation : AccountUsageObservation) : Bool := observation.success.isSome

def sourceState (hostId providerInstanceId : String)
    (summary : Summary AccountUsageObservation) : AccountSourceState :=
  ⟨hostId, providerInstanceId, summary.latest,
    summary.last.bind AccountUsageObservation.success⟩

variable {hostId providerInstanceId : String} {reducer : AccountUsageReducer}
  {summary : Option (Summary AccountUsageObservation)}

variable {reading : AccountProviderReading}

theorem take_elsewhere {host : String}
    (h : (hostId, providerInstanceId) ≠ (host, reading.providerInstanceId)) :
    (reducer.take host reading).sources.get? (hostId, providerInstanceId) =
      reducer.sources.get? (hostId, providerInstanceId) := by
  unfold take
  dsimp only
  split
  · rfl
  · exact Dict.get?_set_of_ne _ _ h

theorem take_source (h : reducer.sources.get? (hostId, reading.providerInstanceId) =
      summary.map (sourceState hostId reading.providerInstanceId)) :
    (reducer.take hostId reading).sources.get? (hostId, reading.providerInstanceId) =
      (Summary.observe AccountUsageObservation.observedAt successful summary
        reading.observation).map (sourceState hostId reading.providerInstanceId) := by
  unfold take
  dsimp only
  rw [h]
  cases summary with
  | none =>
    change (reducer.sources.set _ _).get? _ = _
    rw [Dict.get?_set_self]
    cases hobservation : reading.observation with
    | available usage => rfl
    | unavailable usage => rfl
  | some kept =>
    unfold Summary.observe
    dsimp only [Option.map_some, Option.any_some]
    by_cases hold : reading.observation.observedAt ≤ kept.latest.observedAt
    · have hdrop : decide (reading.observation.observedAt ≤
          (sourceState hostId reading.providerInstanceId kept).latest.observedAt) = true :=
        decide_eq_true hold
      rw [if_pos hdrop, if_pos hold]
      exact h
    · have hnew : ¬decide (reading.observation.observedAt ≤
          (sourceState hostId reading.providerInstanceId kept).latest.observedAt) = true := by
        rw [decide_eq_true_eq]
        exact hold
      rw [if_neg hnew, if_neg hold, Dict.get?_set_self]
      cases hobservation : reading.observation with
      | available usage => rfl
      | unavailable usage => rfl

theorem foldl_take_source {host : String} (readings : List AccountProviderReading)
    {reducer : AccountUsageReducer} {summary : Option (Summary AccountUsageObservation)}
    (h : reducer.sources.get? (hostId, providerInstanceId) =
      summary.map (sourceState hostId providerInstanceId)) :
    (readings.foldl (take host) reducer).sources.get? (hostId, providerInstanceId) =
      (((readings.filter fun reading => host == hostId &&
        reading.providerInstanceId == providerInstanceId).map
          AccountProviderReading.observation).foldl
        (Summary.observe AccountUsageObservation.observedAt successful) summary).map
        (sourceState hostId providerInstanceId) := by
  induction readings generalizing reducer summary with
  | nil => exact h
  | cons reading readings ih =>
    rw [List.foldl_cons]
    by_cases hsame : (hostId, providerInstanceId) = (host, reading.providerInstanceId)
    · cases hsame
      rw [List.filter_cons_of_pos (by simp), List.map_cons, List.foldl_cons]
      exact ih (take_source h)
    · rw [List.filter_cons_of_neg]
      · exact ih ((take_elsewhere hsame).trans h)
      · rw [Bool.and_eq_true, beq_iff_eq, beq_iff_eq]
        rintro ⟨rfl, rfl⟩
        exact hsame rfl

variable {input : AccountsSnapshotPayload}

theorem received_one (hvalid : input.valid = true) :
    received hostId providerInstanceId [input] =
      (input.providers.filter fun reading => input.hostId == hostId &&
        reading.providerInstanceId == providerInstanceId).map
          AccountProviderReading.observation := by
  unfold received
  by_cases hhost : (input.hostId == hostId) = true
  · simp only [hvalid, hhost, Bool.true_and, List.filter_cons_of_pos, List.filter_nil,
      List.flatMap_singleton]
  · rw [Bool.not_eq_true] at hhost
    simp only [hvalid, hhost, Bool.true_and, Bool.false_and, Bool.false_eq_true, not_false_eq_true,
      List.filter_cons_of_neg, List.filter_nil, List.flatMap_nil, List.filter_false, List.map_nil]

theorem received_invalid (hinvalid : ¬input.valid = true) :
    received hostId providerInstanceId [input] = [] := by
  rw [Bool.not_eq_true] at hinvalid
  unfold received
  simp only [hinvalid, Bool.false_and, Bool.false_eq_true, not_false_eq_true,
    List.filter_cons_of_neg, List.filter_nil, List.flatMap_nil]

theorem apply_source (h : reducer.sources.get? (hostId, providerInstanceId) =
      summary.map (sourceState hostId providerInstanceId)) :
    (reducer.apply input).sources.get? (hostId, providerInstanceId) =
      ((received hostId providerInstanceId [input]).foldl
        (Summary.observe AccountUsageObservation.observedAt successful) summary).map
        (sourceState hostId providerInstanceId) := by
  unfold apply
  split
  · rename_i hvalid
    rw [foldl_take_source input.providers h, received_one hvalid]
  · rename_i hinvalid
    rw [received_invalid hinvalid]
    exact h

theorem received_cons (input : AccountsSnapshotPayload)
    (snapshots : List AccountsSnapshotPayload) :
    received hostId providerInstanceId (input :: snapshots) =
      received hostId providerInstanceId [input] ++
        received hostId providerInstanceId snapshots := by
  unfold received
  rw [← List.flatMap_append, ← List.filter_append]
  rfl

theorem foldl_apply_source (snapshots : List AccountsSnapshotPayload) :
    (snapshots.foldl apply empty).sources.get? (hostId, providerInstanceId) =
      (summarize AccountUsageObservation.observedAt successful
        (received hostId providerInstanceId snapshots)).map
        (sourceState hostId providerInstanceId) := by
  have hfold : ∀ {reducer : AccountUsageReducer}
      {summary : Option (Summary AccountUsageObservation)},
      reducer.sources.get? (hostId, providerInstanceId) =
        summary.map (sourceState hostId providerInstanceId) →
      (snapshots.foldl apply reducer).sources.get? (hostId, providerInstanceId) =
        ((received hostId providerInstanceId snapshots).foldl
          (Summary.observe AccountUsageObservation.observedAt successful) summary).map
          (sourceState hostId providerInstanceId) := by
    induction snapshots with
    | nil => exact fun h => h
    | cons input snapshots ih =>
      intro reducer summary h
      rw [List.foldl_cons, received_cons, List.foldl_append]
      exact ih (apply_source h)
  exact hfold rfl

/-! ## Convergence -/

/-- What a source says of the readings that were delivered. -/
def Follows (readings : List AccountUsageObservation) : Option AccountSourceState → Prop
  | none => readings = []
  | some source =>
    NewestOf AccountUsageObservation.observedAt (· ∈ readings) source.latest ∧
    (∀ usage, source.lastSuccess = some usage ↔
      NewestOf AccountUsageObservation.observedAt (fun reading => successful reading = true ∧
        Leads AccountUsageObservation.observedAt readings reading) (.available usage)) ∧
    ∀ usage, NewestOf AccountUsageObservation.observedAt
        (fun reading => successful reading = true ∧ reading ∈ readings) (.available usage) →
      (source.lastSuccess = some usage ↔
        Leads AccountUsageObservation.observedAt readings (.available usage))

theorem follows_summary {readings : List AccountUsageObservation}
    (hdiffer : TimesDiffer AccountUsageObservation.observedAt readings) :
    Follows readings ((summarize AccountUsageObservation.observedAt successful readings).map
      (sourceState hostId providerInstanceId)) := by
  rcases summarize_cases AccountUsageObservation.observedAt successful readings with
    ⟨rfl, -⟩ | ⟨summary, hsome, hsummary⟩
  · rfl
  · rw [hsome]
    have hlast : ∀ usage, summary.last.bind AccountUsageObservation.success = some usage ↔
        summary.last = some (.available usage) := by
      intro usage
      cases summary.last with
      | none =>
        constructor
        · exact fun h => nomatch h
        · exact fun h => nomatch h
      | some observation =>
        cases observation with
        | available kept =>
          change some kept = some usage ↔ some (AccountUsageObservation.available kept) = _
          rw [Option.some.injEq, Option.some.injEq, AccountUsageObservation.available.injEq]
        | unavailable kept =>
          constructor
          · exact fun h => nomatch h
          · exact fun h => nomatch Option.some.inj h
    refine ⟨hsummary.latest, fun usage => ?_, fun usage hnewest => ?_⟩
    · change summary.last.bind AccountUsageObservation.success = some usage ↔ _
      rw [hlast]
      constructor
      · exact hsummary.last (.available usage)
      · intro hleading
        cases hmissed : summary.last with
        | none =>
          have hkind := hsummary.missed hmissed _ hleading.1.2
          rw [hleading.1.1] at hkind
          cases hkind
        | some last =>
          have hsame := (hsummary.last last hmissed).unique hleading hdiffer
            fun other hother => hother.2.mem
          rw [hsame]
    · change summary.last.bind AccountUsageObservation.success = some usage ↔ _
      rw [hlast]
      exact hsummary.last_eq_some_iff hdiffer hnewest

theorem take_received {snapshots : List AccountsSnapshotPayload}
    (h : reading.observation ∈ received hostId reading.providerInstanceId snapshots) :
    (snapshots.foldl apply empty).take hostId reading = snapshots.foldl apply empty := by
  have hsource : (snapshots.foldl apply empty).sources.get? (hostId, reading.providerInstanceId) =
      _ := foldl_apply_source snapshots
  rcases summarize_cases AccountUsageObservation.observedAt successful
    (received hostId reading.providerInstanceId snapshots) with
    ⟨hnil, -⟩ | ⟨summary, hsome, hsummary⟩
  · rw [hnil] at h
    cases h
  · rw [hsome] at hsource
    have hold := hsummary.latest.2 reading.observation h
    unfold take
    dsimp only
    rw [hsource, if_pos]
    exact decide_eq_true hold

theorem apply_received {snapshots : List AccountsSnapshotPayload}
    (h : input ∈ snapshots) :
    (snapshots.foldl apply empty).apply input = snapshots.foldl apply empty := by
  by_cases hvalid : input.valid = true
  · have hreceived : ∀ reading ∈ input.providers,
        reading.observation ∈ received input.hostId reading.providerInstanceId snapshots := by
      intro reading hreading
      unfold received
      rw [List.mem_flatMap]
      refine ⟨input, List.mem_filter.mpr ⟨h, by rw [hvalid, beq_self_eq_true]; rfl⟩, ?_⟩
      apply List.mem_map_of_mem
      exact List.mem_filter.mpr ⟨hreading, beq_self_eq_true _⟩
    unfold apply
    rw [if_pos hvalid]
    revert hreceived
    generalize input.providers = readings
    intro hreceived
    induction readings with
    | nil => rfl
    | cons reading readings ih =>
      have hfirst := take_received (hreceived reading List.mem_cons_self)
      unfold apply at hfirst
      rw [List.foldl_cons, hfirst]
      exact ih fun other hother => hreceived other (List.mem_cons_of_mem _ hother)
  · unfold apply
    rw [if_neg hvalid]

/-- Whatever snapshots are delivered, in whatever order and however often: the latest observation
of a source is its newest reading, its last success the newest successful one among those that no
newer reading had preceded; snapshots with the same readings of the source lead to the same latest
observation, and a snapshot that was delivered before changes nothing. -/
theorem account_source_follows (hostId providerInstanceId : String)
    (snapshots : List AccountsSnapshotPayload)
    (hdiffer : TimesDiffer AccountUsageObservation.observedAt
      (received hostId providerInstanceId snapshots)) :
    Follows (received hostId providerInstanceId snapshots)
      ((snapshots.foldl apply empty).sources.get? (hostId, providerInstanceId)) ∧
    (∀ others, (∀ reading, reading ∈ received hostId providerInstanceId others ↔
        reading ∈ received hostId providerInstanceId snapshots) →
      ((others.foldl apply empty).sources.get? (hostId, providerInstanceId)).map
          AccountSourceState.latest =
        ((snapshots.foldl apply empty).sources.get? (hostId, providerInstanceId)).map
          AccountSourceState.latest) ∧
    ∀ snapshot ∈ snapshots,
      (snapshots.foldl apply empty).apply snapshot = snapshots.foldl apply empty := by
  refine ⟨?_, ?_, fun snapshot hsnapshot => apply_received hsnapshot⟩
  · rw [foldl_apply_source]
    exact follows_summary hdiffer
  · intro others hsame
    rw [foldl_apply_source, foldl_apply_source]
    rcases summarize_cases AccountUsageObservation.observedAt successful
      (received hostId providerInstanceId others) with ⟨hnil, hnone⟩ | ⟨summary, hsome, hsummary⟩
    · rcases summarize_cases AccountUsageObservation.observedAt successful
        (received hostId providerInstanceId snapshots) with
        ⟨-, hnone'⟩ | ⟨summary', -, hsummary'⟩
      · rw [hnone, hnone']
      · have hmember := (hsame _).mpr hsummary'.latest.1
        rw [hnil] at hmember
        cases hmember
    · rcases summarize_cases AccountUsageObservation.observedAt successful
        (received hostId providerInstanceId snapshots) with
        ⟨hnil', -⟩ | ⟨summary', hsome', hsummary'⟩
      · have hmember := (hsame _).mp hsummary.latest.1
        rw [hnil'] at hmember
        cases hmember
      · rw [hsome, hsome']
        have hnewest : NewestOf AccountUsageObservation.observedAt
            (· ∈ received hostId providerInstanceId snapshots) summary.latest :=
          ⟨(hsame _).mp hsummary.latest.1, fun other hother =>
            hsummary.latest.2 other ((hsame other).mpr hother)⟩
        have hlatest := hnewest.unique hsummary'.latest hdiffer fun _ h => h
        change some summary.latest = some summary'.latest
        rw [hlatest]

/-! ## A success that comes late -/

def lateSuccess : AccountUsageAvailable :=
  ⟨⟨"2026-09-12T10:01:00Z", 1789207260000⟩, ⟨"account", "codex", .operator, "Work"⟩, .codexAppServer, none, []⟩

def earlySnapshot (observation : AccountUsageObservation) : AccountsSnapshotPayload :=
  ⟨"read", "host", [⟨"provider", observation⟩]⟩

def availableSnapshot : AccountsSnapshotPayload := earlySnapshot (.available lateSuccess)

def unavailableSnapshot : AccountsSnapshotPayload :=
  earlySnapshot (.unavailable ⟨⟨"2026-09-12T12:02:00+02:00", 1789207320000⟩, .timeout, "Timed out"⟩)

/-- The order of delivery decides whether a success that is not the latest reading is kept. -/
theorem late_success_dropped :
    ¬∀ (hostId providerInstanceId : String) (snapshots others : List AccountsSnapshotPayload),
      TimesDiffer AccountUsageObservation.observedAt
        (received hostId providerInstanceId snapshots) →
      others.Perm snapshots →
      ((others.foldl apply empty).sources.get? (hostId, providerInstanceId)).map
          AccountSourceState.lastSuccess =
        ((snapshots.foldl apply empty).sources.get? (hostId, providerInstanceId)).map
          AccountSourceState.lastSuccess := by
  intro hall
  have hsame := hall "host" "provider" [availableSnapshot, unavailableSnapshot]
    [unavailableSnapshot, availableSnapshot] (by unfold TimesDiffer; decide) (List.Perm.swap _ _ _)
  exact absurd hsame (by decide)

theorem account_source_follows_late :
    TimesDiffer AccountUsageObservation.observedAt
      (received "host" "provider" [unavailableSnapshot, availableSnapshot]) ∧
    Follows (received "host" "provider" [unavailableSnapshot, availableSnapshot])
      (([unavailableSnapshot, availableSnapshot].foldl apply empty).sources.get?
        ("host", "provider")) :=
  have hdiffer : TimesDiffer AccountUsageObservation.observedAt
      (received "host" "provider" [unavailableSnapshot, availableSnapshot]) := by
    unfold TimesDiffer
    decide
  ⟨hdiffer, (account_source_follows "host" "provider" _ hdiffer).1⟩

end AccountUsageReducer

end HarnessControl.Protocol
