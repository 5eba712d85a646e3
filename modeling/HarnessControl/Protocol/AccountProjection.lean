import HarnessControl.Library.Transition
import HarnessControl.Protocol.Accounts

/-!
# The account projection

Applications store `snapshot()` and build the reducer from it again.  Its schema relates the two
observations of a source; the reducer keeps that relation through every reading and removal.
-/

namespace HarnessControl.Protocol

open HarnessControl.Library

/-! ## Accounts -/

inductive AccountFreshness where
  | fresh
  | stale
  | unavailable

structure AccountUsageView where
  account : AccountIdentity
  observation : AccountUsageAvailable
  freshness : AccountFreshness
  /-- Host and provider instance of each source. -/
  sources : List (String × String)

namespace AccountUsageReducer

/-- A source with its last success. -/
abbrev Member := AccountSourceState × AccountUsageAvailable

/-- One turn of the loop over the sources. -/
def group (grouped : Dict String (List Member)) (source : AccountSourceState) :
    Dict String (List Member) :=
  match source.lastSuccess with
  | none => grouped
  | some success =>
    let key := success.account.key
    grouped.set key ((grouped.get? key).getD [] ++ [(source, success)])

/-- Of two successes the later, the first where they are of one time. -/
def later (a b : Member) : Member :=
  if b.2.observedAt.time ≤ a.2.observedAt.time then a else b

def freshness (now : Int) (maxAgeMs : Rat) (selected : Member) : AccountFreshness :=
  match selected.1.latest with
  | .unavailable _ => .unavailable
  | .available _ =>
    let age := now - selected.2.observedAt.time
    if age < 0 ∨ maxAgeMs < age then .stale else .fresh

def view (now : Int) (maxAgeMs : Rat) : List Member → Option AccountUsageView
  | [] => none
  | first :: rest =>
    let selected := rest.foldl later first
    some ⟨selected.2.account, selected.2, freshness now maxAgeMs selected,
      (first :: rest).map fun member => (member.1.hostId, member.1.providerInstanceId)⟩

/-- `none` where it throws: `now` may be no date and `maxAgeMs` no finite number. -/
def accounts (now : Option Int) (maxAgeMs : Option Rat) (reducer : AccountUsageReducer) :
    Option (List AccountUsageView) :=
  match now, maxAgeMs with
  | some now, some maxAgeMs =>
    if maxAgeMs ≤ 0 then none
    else some ((reducer.sources.values.foldl group .empty).values.filterMap (view now maxAgeMs))
  | _, _ => none

/-! ## Runs -/

inductive AccountAction where
  | apply (input : AccountsSnapshotPayload)
  | removeSource (hostId providerInstanceId : String)

def step (reducer : AccountUsageReducer) : AccountAction → AccountUsageReducer
  | .apply input => reducer.apply input
  | .removeSource hostId providerInstanceId => reducer.removeSource hostId providerInstanceId

variable {reducer : AccountUsageReducer}

theorem Sound.step (h : reducer.Sound) (action : AccountAction) : (reducer.step action).Sound := by
  cases action with
  | apply input => exact h.apply input
  | removeSource hostId providerInstanceId => exact h.removeSource hostId providerInstanceId

theorem Sound.restore {states : List AccountSourceState} {before : AccountUsageReducer}
    (h : before.Sound) (hrestore : restore states before = some reducer) : reducer.Sound := by
  induction states generalizing before with
  | nil =>
    obtain rfl := Option.some.inj hrestore
    exact h
  | cons source rest ih =>
    unfold AccountUsageReducer.restore at hrestore
    split at hrestore
    · cases hrestore
    · rename_i hvalid
      rw [Bool.not_eq_false] at hvalid
      split at hrestore
      · cases hrestore
      · exact ih (h.set rfl hvalid) hrestore

/-- The two observations of a source are related as its schema says. -/
def Consistent (source : AccountSourceState) : Prop :=
  (∀ success, source.lastSuccess = some success →
    success.observedAt.time ≤ source.latest.observedAt) ∧
  ∀ usage, source.latest = .available usage → source.lastSuccess = some usage

theorem Sound.consistent (h : reducer.Sound) {source : AccountSourceState}
    (hsource : source ∈ reducer.snapshot) : Consistent source := by
  obtain ⟨⟨key, other⟩, hentry, rfl⟩ := List.mem_map.mp hsource
  have hvalid := (h key other (Dict.get?_eq_some_iff.mpr hentry)).2
  unfold AccountSourceState.valid at hvalid
  rw [Bool.and_eq_true, Bool.and_eq_true, Option.all_eq_true, Option.all_eq_true] at hvalid
  obtain ⟨⟨-, hlatest⟩, htimes⟩ := hvalid
  constructor
  · intro success hsuccess
    exact of_decide_eq_true (htimes success hsuccess)
  · intro usage husage
    have hsame := hlatest usage (by
      dsimp only at husage
      rw [husage]
      rfl)
    exact eq_of_beq hsame

/-- After any run the stored projection is accepted, and tells the same accounts. -/
theorem projection_restored {states : List AccountSourceState} {initial : AccountUsageReducer}
    (hinitial : restore states empty = some initial) (actions : List AccountAction) :
    ∃ rebuilt, restore (run step initial actions).snapshot empty = some rebuilt ∧
      rebuilt.snapshot = (run step initial actions).snapshot ∧
      (∀ now maxAgeMs, rebuilt.accounts now maxAgeMs =
        (run step initial actions).accounts now maxAgeMs) ∧
      ∀ source ∈ (run step initial actions).snapshot, Consistent source := by
  have hstep : ∀ reducer action, Sound reducer → Sound (step reducer action) :=
    fun _ action h => h.step action
  have hruns : Always step Sound initial actions :=
    always_of_inv hstep (Sound.empty.restore hinitial) actions
  have hsound : (run step initial actions).Sound := hruns.last
  exact ⟨_, hsound.restore_snapshot, rfl, fun _ _ => rfl, fun _ => hsound.consistent⟩

/-- A source that was stored after its account could not be read. -/
def storedSource : AccountSourceState :=
  ⟨"host", "provider", .unavailable ⟨⟨"2026-09-12T12:02:00+02:00", 1789207320000⟩, .timeout,
    "Timed out"⟩, some lateSuccess⟩

/-- The reading of the other offset is the older one, and changes nothing. -/
theorem projection_restored_offset :
    ∃ rebuilt, restore (run step ⟨Dict.empty.set ("host", "provider") storedSource⟩
        [.apply availableSnapshot, .removeSource "host" "other"]).snapshot empty = some rebuilt ∧
      rebuilt.snapshot = [storedSource] ∧ Consistent storedSource := by
  have hinitial : restore [storedSource] empty =
      some ⟨Dict.empty.set ("host", "provider") storedSource⟩ := by decide
  obtain ⟨rebuilt, hrebuilt, hsnapshot, -, hconsistent⟩ :=
    projection_restored hinitial [.apply availableSnapshot, .removeSource "host" "other"]
  have hkept : (run step ⟨Dict.empty.set ("host", "provider") storedSource⟩
      [.apply availableSnapshot, .removeSource "host" "other"]).snapshot = [storedSource] := by decide
  rw [hkept] at hsnapshot hconsistent
  exact ⟨rebuilt, hrebuilt, hsnapshot, hconsistent storedSource List.mem_cons_self⟩

end AccountUsageReducer

end HarnessControl.Protocol
