import HarnessControl.Codex.RootUsage

/-!
# What a certified usage says

A snapshot that is complete tells the difference of two totals: the last one, and the last one before
the phase changed.  The differences of single reports telescope.  Only the cache writes may get out of
step: a report that repeats all other totals is skipped, whatever it says of them.
-/

namespace HarnessControl.Codex

open HarnessControl.Library HarnessControl.Protocol

/-! ## The history of a root -/

structure UsageObservation where
  /-- The phase of the owner. -/
  current : Option String
  phase : String
  last : Json
  total : Json

/-- The observations before the phase changed last, and those since. -/
structure UsageHistory where
  phase : Option String
  earlier : List UsageObservation
  since : List UsageObservation

namespace UsageHistory

def opened : UsageHistory := ⟨none, [], []⟩

def step (history : UsageHistory) : UsageAction → UsageHistory
  | .begin phase =>
    if history.phase = some phase then history
    else ⟨some phase, history.earlier ++ history.since, []⟩
  | .observe phase last total =>
    { history with since := history.since ++ [⟨history.phase, phase, last, total⟩] }

def all (history : UsageHistory) : List UsageObservation := history.earlier ++ history.since

end UsageHistory

def totals (observations : List UsageObservation) : List Counts :=
  observations.filterMap fun observation => wellFormed observation.total

def lastTotal (observations : List UsageObservation) : Counts :=
  (totals observations).getLast?.getD Counts.zero

theorem totals_append (first second : List UsageObservation) :
    totals (first ++ second) = totals first ++ totals second :=
  List.filterMap_append

theorem totals_concat (observations : List UsageObservation) {observation : UsageObservation}
    {total : Counts} (h : wellFormed observation.total = some total) :
    totals (observations ++ [observation]) = totals observations ++ [total] := by
  rw [totals_append]
  simp [totals, h]

theorem lastTotal_concat (observations : List UsageObservation) {observation : UsageObservation}
    {total : Counts} (h : wellFormed observation.total = some total) :
    lastTotal (observations ++ [observation]) = total := by
  unfold lastTotal
  rw [totals_concat observations h, List.getLast?_concat]
  rfl

/-! ## What always holds of the counts -/

structure Counts.Reportable (counts : Counts) : Prop where
  input : counts.cachedInputTokens + counts.cacheWriteInputTokens.getD 0 ≤ counts.inputTokens
  output : counts.reasoningOutputTokens ≤ counts.outputTokens
  total : counts.totalTokens = counts.inputTokens + counts.outputTokens
  safe : ∀ key, (counts.get key : Int) ≤ maxSafeInteger
  safeWrites : (counts.cacheWriteInputTokens.getD 0 : Int) ≤ maxSafeInteger

theorem Counts.reportable {counts : Counts} (hsafe : counts.safe = true)
    (hconsistent : counts.consistent = true) : counts.Reportable := by
  obtain ⟨hinput, houtput, htotal⟩ := Counts.consistent_iff.mp hconsistent
  have hkeys := Counts.safe_iff.mp hsafe
  have hinputSafe : (counts.inputTokens : Int) ≤ maxSafeInteger := hkeys .inputTokens
  exact ⟨hinput, houtput, htotal, hkeys, by omega⟩

theorem Counts.reportable_zero : Counts.zero.Reportable :=
  Counts.reportable (by decide) (by decide)

namespace CodexRootUsage

variable {usage : CodexRootUsage} {history : UsageHistory} {fresh : Bool}

theorem charge_reportable (h : usage.counts.Reportable) (delta : Counts) :
    (usage.charge delta).counts.Reportable := by
  unfold charge
  split
  · dsimp only
    split
    · rename_i hnext
      rw [Bool.and_eq_true] at hnext
      exact Counts.reportable hnext.1 hnext.2
    · exact h
  · exact h

theorem step_reportable (h : usage.counts.Reportable) (action : UsageAction) :
    (usage.step action).counts.Reportable := by
  cases action with
  | begin phase =>
    show (usage.begin phase).counts.Reportable
    unfold begin
    split
    · exact h
    · exact Counts.reportable_zero
  | observe phase last total =>
    show (usage.observe phase last total).counts.Reportable
    unfold observe
    split
    · dsimp only
      split
      · exact h
      · split
        · split
          · split
            · apply charge_reportable
              exact h
            · exact h
          · apply charge_reportable
            exact h
        · apply charge_reportable
          exact h
    · exact h

/-! ## What the flag certifies -/

/-- The observation is skipped, for it repeats all other totals, though the cache writes it tells are
not those that are counted. -/
def skips (usage : CodexRootUsage) : UsageAction → Bool
  | .begin _ => false
  | .observe phase lastValue totalValue =>
    match wellFormed lastValue, wellFormed totalValue, usage.baseline with
    | some _, some total, some previous =>
      usage.complete && decide (usage.phase = some phase) &&
        (total.covers previous && previous.covers total) &&
        usage.counts.cacheWriteInputTokens.isSome &&
        (Counts.writesBetween previous.cacheWriteInputTokens
          total.cacheWriteInputTokens).isNone &&
        (usage.observed || total.cacheWriteInputTokens.isSome)
    | _, _, _ => false

/-- The cache writes of the phase are what the total grew by. -/
def WritesKept (usage : CodexRootUsage) (before total : Option Nat) : Prop :=
  ∀ written, usage.counts.cacheWriteInputTokens = some written →
    (∃ start, before = some start ∧ total = some (start + written)) ∨
      (usage.observed = false ∧ total = none)

/-- What is known of a history whose flag is still set. -/
structure Certified (fresh : Bool) (usage : CodexRootUsage) (history : UsageHistory) : Prop where
  fresh : fresh = true
  valid : ∀ observation ∈ history.all, observation.current = some observation.phase ∧
    (wellFormed observation.last).isSome ∧ (wellFormed observation.total).isSome
  baseline : usage.baseline = some (lastTotal history.all)
  monotone : (totals history.all).Pairwise fun earlier later => ∀ key, earlier.get key ≤ later.get key
  below : ∀ total ∈ totals history.all, ∀ key, total.get key ≤ (lastTotal history.all).get key
  counts : ∀ key, (lastTotal history.all).get key =
    (lastTotal history.earlier).get key + usage.counts.get key
  writes : usage.WritesKept (lastTotal history.earlier).cacheWriteInputTokens
    (lastTotal history.all).cacheWriteInputTokens

structure Follows (fresh : Bool) (usage : CodexRootUsage) (history : UsageHistory) : Prop where
  phase : usage.phase = history.phase
  certified : usage.complete = true → Certified fresh usage history

theorem Follows.opened (nativeReference : String) (fresh : Bool) :
    Follows fresh (opened nativeReference fresh) .opened where
  phase := rfl
  certified hcomplete := by
    have hfresh : fresh = true := hcomplete
    subst hfresh
    exact {
      fresh := rfl
      valid := fun _ hin => absurd hin List.not_mem_nil
      baseline := rfl
      monotone := List.Pairwise.nil
      below := fun _ hin => absurd hin List.not_mem_nil
      counts := fun key => by cases key <;> rfl
      writes := fun written hwritten => by
        obtain rfl := Option.some.inj hwritten
        exact Or.inl ⟨0, rfl, rfl⟩ }

theorem Follows.begin (h : Follows fresh usage history) (phase : String) :
    Follows fresh (usage.begin phase) (history.step (.begin phase)) := by
  show Follows fresh (usage.begin phase) (if history.phase = some phase then history else _)
  unfold CodexRootUsage.begin
  rw [h.phase]
  by_cases hsame : history.phase = some phase
  · rw [if_pos hsame, if_pos hsame]
    exact h
  · rw [if_neg hsame, if_neg hsame]
    refine ⟨rfl, fun hcomplete => ?_⟩
    have hcertified := h.certified hcomplete
    have hall : UsageHistory.all ⟨some phase, history.earlier ++ history.since, []⟩ = history.all :=
      List.append_nil _
    exact {
      fresh := hcertified.fresh
      valid := by
        rw [hall]
        exact hcertified.valid
      baseline := by
        rw [hall]
        exact hcertified.baseline
      monotone := by
        rw [hall]
        exact hcertified.monotone
      below := by
        rw [hall]
        exact hcertified.below
      counts := fun key => by
        rw [hall]
        show (lastTotal history.all).get key = (lastTotal history.all).get key + Counts.zero.get key
        cases key <;> rfl
      writes := fun written hwritten => by
        obtain rfl := Option.some.inj hwritten
        rw [hall]
        show (∃ start, (lastTotal history.all).cacheWriteInputTokens = some start ∧ _) ∨ _
        cases (lastTotal history.all).cacheWriteInputTokens with
        | none => exact Or.inr ⟨rfl, rfl⟩
        | some start => exact Or.inl ⟨start, rfl, rfl⟩ }

theorem charge_phase (delta : Counts) (usage : CodexRootUsage) :
    (usage.charge delta).phase = usage.phase := by
  unfold charge
  split
  · dsimp only
    split <;> rfl
  · rfl

theorem charge_incomplete (delta : Counts) (h : usage.complete = false) :
    (usage.charge delta).complete = false := by
  unfold charge
  split
  · dsimp only
    split
    · exact h
    · rfl
  · exact h

theorem charge_complete {delta : Counts} (h : (usage.charge delta).complete = true) :
    usage.complete = true ∧ (usage.charge delta).baseline = usage.baseline ∧
      (∀ key, (usage.charge delta).counts.get key = usage.counts.get key + delta.get key) ∧
      (delta.positive = true ∧ usage.charge delta =
          { usage with counts := usage.counts.add delta, observed := true } ∨
        delta.positive = false ∧ usage.charge delta = usage) := by
  unfold charge at h ⊢
  split at h
  · rename_i hpositive
    rw [if_pos hpositive]
    dsimp only at h ⊢
    split at h
    · rename_i hnext
      rw [if_pos hnext]
      exact ⟨h, rfl, fun key => Counts.get_build _ _ key, Or.inl ⟨hpositive, rfl⟩⟩
    · cases h
  · rename_i hpositive
    rw [Bool.not_eq_true] at hpositive
    rw [if_neg (by rw [hpositive]; decide)]
    refine ⟨h, rfl, fun key => ?_, Or.inr ⟨hpositive, rfl⟩⟩
    have hzero := Counts.not_positive_iff.mp hpositive key
    omega

theorem writes_of_zero {total previous : Counts} (hzero : (total.delta previous).positive = false)
    (hconsistent : (total.delta previous).consistent = true) {written : Nat}
    (hwrites : Counts.writesBetween previous.cacheWriteInputTokens total.cacheWriteInputTokens =
      some written) : written = 0 := by
  obtain ⟨hinput, -, -⟩ := Counts.consistent_iff.mp hconsistent
  have hkey : (total.delta previous).inputTokens = 0 :=
    Counts.not_positive_iff.mp hzero .inputTokens
  have hcache : (total.delta previous).cacheWriteInputTokens = some written := hwrites
  rw [hkey, hcache, Option.getD_some] at hinput
  omega

theorem writesBetween_some {previous total : Option Nat} {written : Nat}
    (h : Counts.writesBetween previous total = some written) :
    ∃ start, previous = some start ∧ total = some (start + written) := by
  unfold Counts.writesBetween at h
  split at h
  · rename_i start last
    split at h
    · obtain rfl := Option.some.inj h
      exact ⟨start, rfl, by rw [Nat.add_sub_cancel' ‹_›]⟩
    · cases h
  · cases h

theorem WritesKept.charge {total previous : Counts} {before : Option Nat}
    (h : usage.WritesKept before previous.cacheWriteInputTokens)
    (hconsistent : (total.delta previous).consistent = true)
    (hcomplete : (usage.charge (total.delta previous)).complete = true)
    (hskips : (total.delta previous).positive = false →
      usage.counts.cacheWriteInputTokens.isSome →
      Counts.writesBetween previous.cacheWriteInputTokens total.cacheWriteInputTokens = none →
      usage.observed = false ∧ total.cacheWriteInputTokens = none) :
    (usage.charge (total.delta previous)).WritesKept before total.cacheWriteInputTokens := by
  obtain ⟨-, -, -, ⟨-, hcharge⟩ | ⟨hzero, hcharge⟩⟩ := charge_complete hcomplete
  · rw [hcharge]
    intro written hwritten
    -- both the counts and the totals tell their cache writes
    have hadd : (usage.counts.add (total.delta previous)).cacheWriteInputTokens = some written :=
      hwritten
    unfold Counts.add at hadd
    rw [Counts.cacheWrite_build] at hadd
    split at hadd
    · rename_i counted more hcounted hmore
      obtain rfl := Option.some.inj hadd
      obtain ⟨last, hprevious, htotal⟩ := writesBetween_some hmore
      obtain ⟨start, hbefore, hlast⟩ | ⟨-, hnone⟩ := h counted hcounted
      · rw [hprevious] at hlast
        obtain rfl := Option.some.inj hlast
        exact Or.inl ⟨start, hbefore, by rw [htotal, Nat.add_assoc]⟩
      · rw [hprevious] at hnone
        cases hnone
    · cases hadd
  · rw [hcharge]
    intro written hwritten
    cases hwrites : Counts.writesBetween previous.cacheWriteInputTokens
        total.cacheWriteInputTokens with
    | none =>
      exact Or.inr (hskips hzero (by rw [hwritten]; rfl) hwrites)
    | some more =>
      obtain rfl := writes_of_zero hzero hconsistent hwrites
      obtain ⟨last, hprevious, htotal⟩ := writesBetween_some hwrites
      obtain hkept | ⟨-, hnone⟩ := h written hwritten
      · rw [htotal, Nat.add_zero, ← hprevious]
        exact Or.inl hkept
      · rw [hprevious] at hnone
        cases hnone

theorem observe_complete {phase : String} {lastValue totalValue : Json}
    (h : (usage.observe phase lastValue totalValue).complete = true) :
    ∃ last total previous, wellFormed lastValue = some last ∧ wellFormed totalValue = some total ∧
      usage.baseline = some previous ∧ usage.phase = some phase ∧
      (∀ key, previous.get key ≤ total.get key) ∧ (total.delta previous).consistent = true ∧
      usage.observe phase lastValue totalValue =
        ({ usage with baseline := some total } : CodexRootUsage).charge (total.delta previous) := by
  -- every other branch clears the flag
  unfold observe at h ⊢
  cases hlast : wellFormed lastValue with
  | none =>
    rw [hlast] at h
    cases h
  | some last =>
    cases htotal : wellFormed totalValue with
    | none =>
      rw [hlast, htotal] at h
      cases h
    | some total =>
      rw [hlast, htotal] at h
      dsimp only at h ⊢
      split at h
      · cases h
      · rename_i hphase
        rw [if_neg hphase]
        split at h
        · rename_i previous hbaseline
          split at h
          · rename_i hcovers
            rw [if_pos hcovers]
            split at h
            · rename_i hconsistent
              rw [if_pos hconsistent]
              exact ⟨last, total, previous, rfl, rfl, hbaseline, not_not.mp hphase,
                Counts.covers_iff.mp hcovers, hconsistent, rfl⟩
            · cases h
          · rw [charge_incomplete _ rfl] at h
            cases h
        · rw [charge_incomplete _ rfl] at h
          cases h

theorem observe_phase (phase : String) (lastValue totalValue : Json) (usage : CodexRootUsage) :
    (usage.observe phase lastValue totalValue).phase = usage.phase := by
  unfold observe
  split
  · dsimp only
    split
    · rfl
    · split
      · split
        · split
          · exact charge_phase _ _
          · rfl
        · exact charge_phase _ _
      · exact charge_phase _ _
  · rfl

theorem unskipped {phase : String} {lastValue totalValue : Json} {last total previous : Counts}
    (hlast : wellFormed lastValue = some last) (htotal : wellFormed totalValue = some total)
    (hbaseline : usage.baseline = some previous) (hphase : usage.phase = some phase)
    (hcomplete : usage.complete = true) (hcovers : ∀ key, previous.get key ≤ total.get key)
    (hskips : usage.skips (.observe phase lastValue totalValue) = false)
    (hzero : (total.delta previous).positive = false)
    (hcounted : usage.counts.cacheWriteInputTokens.isSome)
    (hwrites : Counts.writesBetween previous.cacheWriteInputTokens total.cacheWriteInputTokens =
      none) : usage.observed = false ∧ total.cacheWriteInputTokens = none := by
  have hback : previous.covers total = true := by
    rw [Counts.covers_iff]
    intro key
    have hkey := Counts.not_positive_iff.mp hzero key
    unfold Counts.delta at hkey
    rw [Counts.get_build] at hkey
    omega
  unfold skips at hskips
  dsimp only at hskips
  rw [hlast, htotal, hbaseline] at hskips
  dsimp only at hskips
  rw [hcomplete, hphase, Counts.covers_iff.mpr hcovers, hback, hcounted, hwrites] at hskips
  simpa using hskips

theorem Follows.observe (h : Follows fresh usage history) {phase : String}
    {lastValue totalValue : Json} (hskips : usage.skips (.observe phase lastValue totalValue) = false) :
    Follows fresh (usage.observe phase lastValue totalValue)
      (history.step (.observe phase lastValue totalValue)) := by
  refine ⟨(observe_phase phase lastValue totalValue usage).trans h.phase, fun hcomplete => ?_⟩
  obtain ⟨last, total, previous, hlast, htotal, hbaseline, hphase, hcovers, hconsistent, hcharge⟩ :=
    observe_complete hcomplete
  rw [hcharge] at hcomplete ⊢
  obtain ⟨hbefore, hkept, hcounts, -⟩ := charge_complete hcomplete
  have hcertified := h.certified hbefore
  have hprevious : previous = lastTotal history.all :=
    Option.some.inj (hbaseline.symm.trans hcertified.baseline)
  have hall : (history.step (.observe phase lastValue totalValue)).all =
      history.all ++ [⟨history.phase, phase, lastValue, totalValue⟩] :=
    (List.append_assoc _ _ _).symm
  have hnext : lastTotal (history.step (.observe phase lastValue totalValue)).all = total := by
    rw [hall]
    exact lastTotal_concat history.all htotal
  have htotals : totals (history.step (.observe phase lastValue totalValue)).all =
      totals history.all ++ [total] := by
    rw [hall]
    exact totals_concat history.all htotal
  have hbelow : ∀ earlier ∈ totals history.all, ∀ key, earlier.get key ≤ total.get key := by
    intro earlier hin key
    have hle := hcertified.below earlier hin key
    rw [← hprevious] at hle
    exact hle.trans (hcovers key)
  exact {
    fresh := hcertified.fresh
    valid := by
      rw [hall]
      intro observation hin
      obtain hin | hin := List.mem_append.mp hin
      · exact hcertified.valid observation hin
      · obtain rfl := List.mem_singleton.mp hin
        rw [hlast, htotal]
        exact ⟨h.phase.symm.trans hphase, rfl, rfl⟩
    baseline := by
      rw [hkept, hnext]
    monotone := by
      rw [htotals, List.pairwise_append]
      refine ⟨hcertified.monotone, List.pairwise_singleton _ _, ?_⟩
      intro earlier hin later hlater
      obtain rfl := List.mem_singleton.mp hlater
      exact hbelow earlier hin
    below := by
      rw [htotals, hnext]
      intro earlier hin key
      obtain hin | hin := List.mem_append.mp hin
      · exact hbelow earlier hin key
      · obtain rfl := List.mem_singleton.mp hin
        exact le_refl _
    counts := fun key => by
      rw [hnext, hcounts key]
      have hsum := hcertified.counts key
      rw [← hprevious] at hsum
      have hkey : (total.delta previous).get key = total.get key - previous.get key :=
        Counts.get_build _ _ key
      have hle := hcovers key
      show total.get key = (lastTotal history.earlier).get key + (usage.counts.get key + _)
      omega
    writes := by
      rw [hnext]
      have hunskipped := unskipped hlast htotal hbaseline hphase hbefore hcovers hskips
      have hwrites : ({ usage with baseline := some total } : CodexRootUsage).WritesKept
          (lastTotal history.earlier).cacheWriteInputTokens previous.cacheWriteInputTokens := by
        rw [hprevious]
        exact hcertified.writes
      exact hwrites.charge hconsistent hcomplete hunskipped }

theorem Follows.step (h : Follows fresh usage history) {action : UsageAction}
    (hskips : usage.skips action = false) :
    Follows fresh (usage.step action) (history.step action) := by
  cases action with
  | begin phase => exact h.begin phase
  | observe phase last total => exact h.observe hskips

theorem Follows.run {actions : List UsageAction} (h : Follows fresh usage history)
    (hskips : Meets CodexRootUsage.step (fun usage action => usage.skips action = false) usage
      actions) :
    Follows fresh (Library.run CodexRootUsage.step usage actions)
      (Library.run UsageHistory.step history actions) := by
  induction actions generalizing usage history with
  | nil => exact h
  | cons action rest ih => exact ih (h.step hskips.1) hskips.2

theorem snapshot_counts {completed : Bool} {counts : Counts}
    (h : (usage.snapshot completed).counts = some counts) :
    usage.observed = true ∧ usage.counts = counts := by
  unfold snapshot at h
  dsimp only at h
  split at h
  · exact ⟨‹_›, Option.some.inj h⟩
  · cases h

theorem snapshot_complete (h : (usage.snapshot true).status = .complete) :
    usage.observed = true ∧ usage.complete = true := by
  unfold snapshot at h
  dsimp only at h
  split at h
  · cases h
  · rename_i hobserved
    split at h
    · rename_i hcomplete
      simp at hobserved hcomplete
      exact ⟨hobserved, hcomplete⟩
    · cases h

end CodexRootUsage

/-! ## The usage -/

/-- A snapshot that is complete tells, of a fresh root whose reports were all of their phase and never
fell, the difference of two totals, as long as no report was skipped that changed the cache writes. -/
theorem usage_certified (nativeReference : String) (fresh : Bool) (actions : List UsageAction)
    (h : Meets CodexRootUsage.step (fun usage action => usage.skips action = false)
      (.opened nativeReference fresh) actions) :
    ∀ reached, reached <+: actions →
      let usage := run CodexRootUsage.step (.opened nativeReference fresh) reached
      let history := run UsageHistory.step .opened reached
      (∀ completed counts, (usage.snapshot completed).counts = some counts → counts.Reportable) ∧
        ((usage.snapshot true).status = .complete →
          fresh = true ∧
            (∀ observation ∈ history.all, observation.current = some observation.phase ∧
              (wellFormed observation.last).isSome ∧ (wellFormed observation.total).isSome) ∧
            (totals history.all).Pairwise
              (fun earlier later => ∀ key, earlier.get key ≤ later.get key) ∧
            ∃ counts, (usage.snapshot true).counts = some counts ∧
              (∀ key, (lastTotal history.all).get key =
                (lastTotal history.earlier).get key + counts.get key) ∧
              ∀ written, counts.cacheWriteInputTokens = some written → ∃ start,
                (lastTotal history.earlier).cacheWriteInputTokens = some start ∧
                  (lastTotal history.all).cacheWriteInputTokens = some (start + written)) := by
  intro reached hprefix usage history
  obtain ⟨rest, rfl⟩ := hprefix
  constructor
  · intro completed counts hcounts
    have hall : Always CodexRootUsage.step (fun usage => usage.counts.Reportable)
        (.opened nativeReference fresh) reached :=
      always_of_inv (fun _ action h => CodexRootUsage.step_reportable h action)
        Counts.reportable_zero reached
    rw [← (CodexRootUsage.snapshot_counts hcounts).2]
    exact hall.last
  · intro hstatus
    obtain ⟨hobserved, hcomplete⟩ := CodexRootUsage.snapshot_complete hstatus
    have hfollows : CodexRootUsage.Follows fresh usage history :=
      (CodexRootUsage.Follows.opened nativeReference fresh).run h.initial
    have hcertified := hfollows.certified hcomplete
    refine ⟨hcertified.fresh, hcertified.valid, hcertified.monotone, usage.counts, ?_,
      hcertified.counts, ?_⟩
    · show (if usage.observed then some usage.counts else none) = some usage.counts
      rw [hobserved]
      rfl
    · intro written hwritten
      obtain hkept | ⟨hnone, -⟩ := hcertified.writes written hwritten
      · exact hkept
      · rw [hobserved] at hnone
        cases hnone

def reportOf (cacheWriteInputTokens : List (String × Json)) : Json :=
  .obj (JsonFields.ofList ([("inputTokens", .num 10), ("outputTokens", .num 5),
    ("totalTokens", .num 15), ("cachedInputTokens", .num 2), ("reasoningOutputTokens", .num 1)] ++
    cacheWriteInputTokens))

/-- A fresh root reports 3 cache writes, then none, then 5, and nothing else changes. -/
def forgottenWrites : List UsageAction :=
  let report := reportOf [("cacheWriteInputTokens", .num 3)]
  [.begin "turn", .observe "turn" report report, .observe "turn" report (reportOf []),
    .observe "turn" report (reportOf [("cacheWriteInputTokens", .num 5)])]

/-- The owner still reports 3 of the 5, and certifies it. -/
theorem forgotten_writes_certified :
    let usage := run CodexRootUsage.step (.opened "root" true) forgottenWrites
    let history := run UsageHistory.step .opened forgottenWrites
    (usage.snapshot true).status = .complete ∧
      (usage.snapshot true).counts.bind Counts.cacheWriteInputTokens = some 3 ∧
      (lastTotal history.all).cacheWriteInputTokens = some 5 ∧ history.earlier = [] := by
  decide +kernel

/-- A root whose reports all tell their cache writes. -/
theorem usage_certified_fresh :
    let usage := run CodexRootUsage.step (.opened "root" true) (forgottenWrites.take 2)
    let history := run UsageHistory.step .opened (forgottenWrites.take 2)
    (usage.snapshot true).status = .complete ∧
      ∃ counts, (usage.snapshot true).counts = some counts ∧
        ∀ key, (lastTotal history.all).get key =
          (lastTotal history.earlier).get key + counts.get key := by
  have hstatus : ((run CodexRootUsage.step (.opened "root" true)
      (forgottenWrites.take 2)).snapshot true).status = .complete := by decide +kernel
  obtain ⟨-, -, -, counts, hcounts, hkeys, -⟩ :=
    (usage_certified "root" true (forgottenWrites.take 2) (by decide +kernel) _
      List.prefix_rfl).2 hstatus
  exact ⟨hstatus, counts, hcounts, hkeys⟩

end HarnessControl.Codex
