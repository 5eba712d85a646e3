import HarnessControl.Codex.RpcTransport

/-!
# The usage of a root

The app server reports totals that only grow.  The owner of a root charges to a phase what the totals
grew by since the phase began.  Its one flag certifies the sum: it is lost for good where a report is
malformed, belongs to another phase or falls below the one before.
-/

namespace HarnessControl.Codex

open HarnessControl.Library HarnessControl.Protocol

/-! ## Counts -/

inductive CountKey where
  | inputTokens
  | outputTokens
  | totalTokens
  | cachedInputTokens
  | reasoningOutputTokens
deriving DecidableEq

namespace CountKey

def required : List CountKey :=
  [inputTokens, outputTokens, totalTokens, cachedInputTokens, reasoningOutputTokens]

theorem mem_required (key : CountKey) : key ∈ required := by cases key <;> decide

end CountKey

structure Counts where
  inputTokens : Nat
  outputTokens : Nat
  totalTokens : Nat
  cachedInputTokens : Nat
  reasoningOutputTokens : Nat
  cacheWriteInputTokens : Option Nat

namespace Counts

def get (value : Counts) : CountKey → Nat
  | .inputTokens => value.inputTokens
  | .outputTokens => value.outputTokens
  | .totalTokens => value.totalTokens
  | .cachedInputTokens => value.cachedInputTokens
  | .reasoningOutputTokens => value.reasoningOutputTokens

def build (count : CountKey → Nat) (cacheWriteInputTokens : Option Nat) : Counts where
  inputTokens := count .inputTokens
  outputTokens := count .outputTokens
  totalTokens := count .totalTokens
  cachedInputTokens := count .cachedInputTokens
  reasoningOutputTokens := count .reasoningOutputTokens
  cacheWriteInputTokens := cacheWriteInputTokens

@[simp] theorem get_build (count : CountKey → Nat) (cacheWrite : Option Nat) (key : CountKey) :
    (build count cacheWrite).get key = count key := by cases key <;> rfl

@[simp] theorem cacheWrite_build (count : CountKey → Nat) (cacheWrite : Option Nat) :
    (build count cacheWrite).cacheWriteInputTokens = cacheWrite := rfl

def zero : Counts := build (fun _ => 0) (some 0)

def consistent (value : Counts) : Bool :=
  decide (value.cachedInputTokens ≤ value.inputTokens) &&
    decide (value.cacheWriteInputTokens.getD 0 ≤ value.inputTokens) &&
    decide (value.cachedInputTokens + value.cacheWriteInputTokens.getD 0 ≤ value.inputTokens) &&
    decide (value.reasoningOutputTokens ≤ value.outputTokens) &&
    decide (value.totalTokens = value.inputTokens + value.outputTokens)

/-- `required.every(key => total[key] >= previous[key])`. -/
def covers (total previous : Counts) : Bool :=
  CountKey.required.all fun key => decide (previous.get key ≤ total.get key)

/-- `required.every(key => Number.isSafeInteger(value[key]))`. -/
def safe (value : Counts) : Bool :=
  CountKey.required.all fun key => decide ((value.get key : Int) ≤ maxSafeInteger)

/-- `required.some(key => value[key] > 0)`. -/
def positive (value : Counts) : Bool :=
  CountKey.required.any fun key => decide (0 < value.get key)

/-- The cache writes between two totals, where both tell them and they did not fall. -/
def writesBetween : (previous total : Option Nat) → Option Nat
  | some previous, some total => if previous ≤ total then some (total - previous) else none
  | _, _ => none

def delta (total previous : Counts) : Counts :=
  build (fun key => total.get key - previous.get key)
    (writesBetween previous.cacheWriteInputTokens total.cacheWriteInputTokens)

def add (value delta : Counts) : Counts :=
  build (fun key => value.get key + delta.get key) <|
    match value.cacheWriteInputTokens, delta.cacheWriteInputTokens with
    | some written, some more => some (written + more)
    | _, _ => none

theorem covers_iff {total previous : Counts} :
    total.covers previous = true ↔ ∀ key, previous.get key ≤ total.get key := by
  unfold covers
  rw [List.all_eq_true]
  constructor
  · intro h key
    exact of_decide_eq_true (h key key.mem_required)
  · intro h key _
    exact decide_eq_true (h key)

theorem safe_iff {value : Counts} :
    value.safe = true ↔ ∀ key, (value.get key : Int) ≤ maxSafeInteger := by
  unfold safe
  rw [List.all_eq_true]
  constructor
  · intro h key
    exact of_decide_eq_true (h key key.mem_required)
  · intro h key _
    exact decide_eq_true (h key)

theorem not_positive_iff {value : Counts} :
    value.positive = false ↔ ∀ key, value.get key = 0 := by
  unfold positive
  rw [List.any_eq_false]
  constructor
  · intro h key
    have hkey := h key key.mem_required
    rw [decide_eq_true_iff] at hkey
    omega
  · intro h key _
    rw [decide_eq_true_iff, h key]
    omega

theorem consistent_iff {value : Counts} :
    value.consistent = true ↔
      value.cachedInputTokens + value.cacheWriteInputTokens.getD 0 ≤ value.inputTokens ∧
        value.reasoningOutputTokens ≤ value.outputTokens ∧
        value.totalTokens = value.inputTokens + value.outputTokens := by
  unfold consistent
  simp only [Bool.and_eq_true, decide_eq_true_iff]
  constructor
  · rintro ⟨⟨⟨⟨-, -⟩, hinput⟩, houtput⟩, htotal⟩
    exact ⟨hinput, houtput, htotal⟩
  · rintro ⟨hinput, houtput, htotal⟩
    exact ⟨⟨⟨⟨by omega, by omega⟩, hinput⟩, houtput⟩, htotal⟩

end Counts

/-- `count.safeParse`. -/
def readCount : Json → Option Nat
  | .num value => if counter value then some value.toNat else none
  | _ => none

/-- `codexUsageBreakdownSchema.safeParse`. -/
def usageBreakdown : Json → Option Counts
  | .obj fields => do
    let inputTokens ← (fields.get? "inputTokens").bind readCount
    let outputTokens ← (fields.get? "outputTokens").bind readCount
    let totalTokens ← (fields.get? "totalTokens").bind readCount
    let cachedInputTokens ← (fields.get? "cachedInputTokens").bind readCount
    let reasoningOutputTokens ← (fields.get? "reasoningOutputTokens").bind readCount
    let cacheWriteInputTokens ← readOptional readCount fields "cacheWriteInputTokens"
    some ⟨inputTokens, outputTokens, totalTokens, cachedInputTokens, reasoningOutputTokens,
      cacheWriteInputTokens⟩
  | _ => none

/-- A value that is read and is consistent. -/
def wellFormed (value : Json) : Option Counts := (usageBreakdown value).filter Counts.consistent

/-! ## The owner -/

structure CodexRootUsage where
  nativeReference : String
  baseline : Option Counts
  phase : Option String
  counts : Counts
  observed : Bool
  complete : Bool

inductive UsageStatus where
  | unavailable
  | partly
  | complete
deriving DecidableEq

structure RootUsageSnapshot where
  nativeReference : String
  nativeExecutionReference : Option String
  status : UsageStatus
  counts : Option Counts

namespace CodexRootUsage

def opened (nativeReference : String) (fresh : Bool) : CodexRootUsage where
  nativeReference := nativeReference
  baseline := if fresh then some Counts.zero else none
  phase := none
  counts := Counts.zero
  observed := false
  complete := fresh

def begin (phase : String) (usage : CodexRootUsage) : CodexRootUsage :=
  if usage.phase = some phase then usage
  else { usage with phase := some phase, counts := Counts.zero, observed := false }

/-- What is left of `observe` once the delta is known. -/
def charge (delta : Counts) (usage : CodexRootUsage) : CodexRootUsage :=
  if delta.positive then
    let next := usage.counts.add delta
    if next.safe && next.consistent then { usage with counts := next, observed := true }
    else { usage with complete := false }
  else usage

def observe (phase : String) (lastValue totalValue : Json) (usage : CodexRootUsage) :
    CodexRootUsage :=
  match wellFormed lastValue, wellFormed totalValue with
  | some last, some total =>
    let next := { usage with baseline := some total }
    if usage.phase ≠ some phase then { next with complete := false }
    else
      match usage.baseline with
      | some previous =>
        if total.covers previous then
          let delta := total.delta previous
          if delta.consistent then next.charge delta else { next with complete := false }
        else { next with complete := false }.charge last
      -- after a missing baseline only the newest response is known
      | none => { next with complete := false }.charge last
  | _, _ => { usage with complete := false, baseline := none }

def snapshot (completed : Bool) (usage : CodexRootUsage) : RootUsageSnapshot where
  nativeReference := usage.nativeReference
  nativeExecutionReference := usage.phase.filter (· ≠ "")
  status :=
    if !usage.observed then .unavailable
    else if completed && usage.complete then .complete else .partly
  counts := if usage.observed then some usage.counts else none

end CodexRootUsage

inductive UsageAction where
  | begin (phase : String)
  | observe (phase : String) (lastValue totalValue : Json)

def CodexRootUsage.step (usage : CodexRootUsage) : UsageAction → CodexRootUsage
  | .begin phase => usage.begin phase
  | .observe phase lastValue totalValue => usage.observe phase lastValue totalValue

end HarnessControl.Codex
