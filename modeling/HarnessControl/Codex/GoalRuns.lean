import HarnessControl.Codex.Goals
import HarnessControl.Library.Transition

/-!
# Runs of a native goal

As long as no snapshot arrives that is older than the one held without having an earlier time, and
the budget is always sent in one way, the owner keeps up with the server's goal: it holds a snapshot
after which the goal was not started again.
-/

namespace HarnessControl.Codex

open HarnessControl.Library

variable {run : GoalRun} {origin index place : Nat} {goal current : CodexGoal}

/-! ## Conditions -/

/-- The call compares its answer with the snapshot that the owner holds. -/
def GoalStage.compares : GoalStage → Bool
  | .resumePause _ | .activate _ | .activateStop _ | .pauseSet _ _ | .clearRead => true
  | _ => false

namespace GoalRun

/-- The snapshot at the place has the same budget on the wire as the one held, and is not older,
unless it is the same. -/
def Fresh (place : Nat) (goal : CodexGoal) (run : GoalRun) : Prop :=
  ∃ current, run.owner.goal = some current ∧ goal.tokenBudget = current.tokenBudget ∧
    (run.heldAt ≤ place ∨ run.server.history[place]? = run.server.history[run.heldAt]?)

/-- Responses that are compared are fresh; notifications are fresh or have an earlier time. -/
def Timely (run : GoalRun) : GoalAction → Prop
  | .settle index => ∀ call place goal, run.calls[index]? = some call →
    call.wait = .answered (some (place, goal)) → call.stage.compares = true →
    run.Fresh place goal
  | .notify index omitted => run.prepared = true → ∀ job snapshot, run.server.job = some job →
    run.server.history[index]? = some snapshot →
    run.Fresh index (job.wire run.threadId omitted snapshot) ∨
      ∃ current, run.owner.goal = some current ∧
        (job.wire run.threadId omitted snapshot).tokenBudget = current.tokenBudget ∧
        snapshot.updatedAt < current.updatedAt
  | _ => True

/-- No snapshot has been rejected, none has taken the place of a later one, and no pause has
resolved while the goal was active. -/
structure Kept (run : GoalRun) : Prop where
  matched : run.mismatched = false
  forward : run.regressed = false
  paused : run.leftActive = false

/-! ## Snapshots in the history -/

def Active (place : Nat) (run : GoalRun) : Prop :=
  ∃ snapshot, run.server.history[place]? = some snapshot ∧ snapshot.status = .active

def Stands (place : Nat) (goal : CodexGoal) (run : GoalRun) : Prop :=
  ∃ job snapshot omitted, run.server.job = some job ∧
    run.server.history[place]? = some snapshot ∧ goal = job.wire run.threadId omitted snapshot

theorem Stands.active (h : run.Stands place goal) : run.Active place ↔ goal.status = .active := by
  rcases h with ⟨job, snapshot, omitted, -, hsnapshot, rfl⟩
  constructor
  · rintro ⟨found, hfound, hstatus⟩
    rw [hsnapshot] at hfound
    cases hfound
    exact hstatus
  · exact fun hstatus => ⟨snapshot, hsnapshot, hstatus⟩

theorem precedes_of_le {history : List Snapshot} (hordered : history.Pairwise Snapshot.Precedes)
    {first second : Nat} {earlier later : Snapshot} (hle : first ≤ second)
    (hearlier : history[first]? = some earlier) (hlater : history[second]? = some later) :
    earlier.Precedes later := by
  rcases Nat.eq_or_lt_of_le hle with rfl | hlt
  · rw [hearlier] at hlater
    cases hlater
    exact ⟨Nat.le_refl _, Nat.le_refl _, Nat.le_refl _⟩
  · rcases List.getElem?_eq_some_iff.mp hearlier with ⟨hfirst, rfl⟩
    rcases List.getElem?_eq_some_iff.mp hlater with ⟨hsecond, rfl⟩
    exact List.pairwise_iff_getElem.mp hordered first second hfirst hsecond hlt

theorem Fresh.precedes (hfresh : run.Fresh place goal) {earlier later : Snapshot}
    (hearlier : run.server.history[run.heldAt]? = some earlier)
    (hlater : run.server.history[place]? = some later) : earlier.Precedes later := by
  rcases hfresh with ⟨current, -, -, hle | hsame⟩
  · exact precedes_of_le run.server.ordered hle hearlier hlater
  · exact precedes_of_le run.server.ordered (Nat.le_refl _) hearlier (hsame ▸ hlater)

theorem Fresh.verifies (hfresh : run.Fresh place goal)
    (hheld : ∀ current, run.owner.goal = some current → run.Stands run.heldAt current)
    (hstands : run.Stands place goal) : verifies run.threadId run.owner.goal goal = true := by
  rcases hfresh with ⟨current, hcurrent, hbudget, hplace⟩
  rcases hheld current hcurrent with ⟨job, earlier, kept, hjob, hearlier, rfl⟩
  rcases hstands with ⟨other, later, omitted, hother, hlater, rfl⟩
  rw [hjob] at hother
  cases hother
  have hprecedes := Fresh.precedes ⟨_, hcurrent, hbudget, hplace⟩ hearlier hlater
  rw [hcurrent]
  unfold Codex.verifies
  simp only [Option.any_some, hbudget, Bool.and_eq_true, beq_iff_eq, decide_eq_true_eq]
  exact ⟨⟨⟨⟨⟨⟨rfl, rfl⟩, rfl⟩, trivial⟩, hprecedes.updatedAt⟩, hprecedes.tokensUsed⟩,
    hprecedes.timeUsedSeconds⟩

theorem Fresh.accept (hfresh : run.Fresh place goal) :
    run.heldAt ≤ (run.accept place goal).heldAt ∧ place ≤ (run.accept place goal).heldAt ∧
      run.server.history[(run.accept place goal).heldAt]? = run.server.history[place]? ∧
      (run.accept place goal).regressed = run.regressed := by
  rcases hfresh with ⟨current, -, -, hplace⟩
  unfold GoalRun.accept
  dsimp only
  by_cases hearlier : place < run.heldAt
  · have hsame : run.server.history[place]? = run.server.history[run.heldAt]? := by
      rcases hplace with hle | hsame
      · omega
      · exact hsame
    have hbeq : (run.server.history[place]? == run.server.history[run.heldAt]?) = true :=
      beq_iff_eq.mpr hsame
    rw [decide_eq_true hearlier, hbeq, Bool.true_and, if_pos rfl]
    exact ⟨Nat.le_refl _, Nat.le_of_lt hearlier, hsame.symm, Bool.or_false _⟩
  · rw [decide_eq_false hearlier, Bool.false_and, if_neg Bool.false_ne_true]
    exact ⟨Nat.le_of_not_lt hearlier, Nat.le_refl _, rfl, Bool.or_false _⟩

theorem setStatus_cases {target : SetTarget} {stage : SetStage} {answer : GoalAnswer}
    (hverifies : ∀ place goal, answer = some (place, goal) →
      verifies run.threadId run.owner.goal goal = true) :
    run.setStatus target stage answer = .failed false ∨
    ∃ place goal, answer = some (place, goal) ∧
      ((stage = .reading ∧ target = .active ∧ goal.status = .active ∧
          run.setStatus target stage answer = .failed true) ∨
        (stage = .reading ∧ run.setStatus target stage answer = .write (run.accept place goal)) ∨
        ((stage = .writing ∨ target = .active) ∧
          run.setStatus target stage answer = .done (run.accept place goal))) := by
  unfold GoalRun.setStatus
  cases answer with
  | none => exact Or.inl rfl
  | some found =>
    rcases found with ⟨place, goal⟩
    dsimp only
    rw [hverifies place goal rfl, Bool.not_true, if_neg Bool.false_ne_true]
    cases stage with
    | reading =>
      refine Or.inr ⟨place, goal, rfl, ?_⟩
      dsimp only
      split
      · rename_i hstart
        split
        · rename_i hactive
          exact Or.inl ⟨rfl, hstart.1, hactive, rfl⟩
        · exact Or.inr (Or.inr ⟨Or.inr hstart.1, rfl⟩)
      · exact Or.inr (Or.inl ⟨rfl, rfl⟩)
    | writing =>
      dsimp only
      split
      · exact Or.inl rfl
      · exact Or.inr ⟨place, goal, rfl, Or.inr (Or.inr ⟨Or.inl rfl, rfl⟩)⟩

/-! ## Calls -/

/-- The owner is stopped and `activate` has not been called, or has resolved. -/
structure Over (run : GoalRun) : Prop where
  stopped : run.owner.stopped = true
  resolved : ∀ index, run.owner.activation = some index → run.stageOf index = some .resolved

/-- Every start of the goal has been taken note of. -/
def Informed (run : GoalRun) : Prop :=
  ∀ place, run.startedAt = some place → place ≤ run.heldAt

def StageFits (index : Nat) (stage : GoalStage) (wait : GoalWait) (run : GoalRun) : Prop :=
  match stage with
  | .prepareRead _ _ | .resumeRead _ | .resumePause _ => run.prepared = false
  | .prepareSet objective tokenBudget => run.prepared = false ∧
    (wait = .sent (.create objective tokenBudget) ∨ wait = .answered none ∨
      ∃ place goal, wait = .answered (some (place, goal)) ∧ goal.threadId = run.threadId ∧
        goal.objective = objective ∧ goal.status = .paused ∧
        goal.tokenBudget.value = tokenBudget)
  | .activate .reading => run.owner.activation = some index ∧ run.startedAt = none
  | .activate .writing => run.owner.activation = some index ∧
    (run.startedAt = none ∧ (wait = .sent (.set .active) ∨ wait = .answered none) ∨
      ∃ place goal, run.startedAt = some place ∧ wait = .answered (some (place, goal)))
  | .activateStop _ => run.owner.activation = some index ∧ run.Informed
  | .pauseSet _ stage => run.Over ∧
    (stage = .writing → wait = .sent (.set .paused) ∨
      (∃ answer, wait = .answered answer) ∧ run.server.active = false)
  | .clearRead => run.Over
  | .clearSend => run.Over ∧ (wait = .sent .clear ∨ run.server.cleared = true)
  | .clearReread => run.Over ∧ run.server.cleared = true
  | .resolved => run.owner.activation = some index → run.Informed
  | .pauseWait _ _ => run.prepared = true ∧ run.owner.stopped = true
  | .rejected => True

structure Fits (origin index : Nat) (call : GoalCall) (run : GoalRun) : Prop where
  stage : run.StageFits index call.stage call.wait
  /-- Only `activate` asks for a start. -/
  starts : call.wait = .sent (.set .active) → run.owner.activation = some index ∧
    run.startedAt = none ∧ (call.stage = .activate .writing ∨ call.stage = .rejected)
  answers : ∀ place goal, call.wait = .answered (some (place, goal)) →
    run.Stands place goal ∧ origin ≤ place + 1

/-- What is known of the goal in runs that began with a history of length `origin`. -/
structure Steady (origin : Nat) (run : GoalRun) : Prop where
  held : ∀ goal, run.owner.goal = some goal →
    run.Stands run.heldAt goal ∧ origin ≤ run.heldAt + 1
  /-- Before a start nothing becomes active. -/
  quiet : run.startedAt = none → ∀ earlier later, origin ≤ earlier + 1 → earlier ≤ later →
    run.Active later → run.Active earlier
  idle : run.startedAt = none → run.owner.goal.isSome = true → ¬run.Active run.heldAt
  /-- After the start the goal stays active until it stops for good. -/
  started : ∀ place, run.startedAt = some place → run.owner.activation.isSome = true ∧
    ∀ earlier later, place ≤ earlier → earlier ≤ later → run.Active later → run.Active earlier
  gone : run.prepared = true → run.owner.goal = none → run.server.cleared = true
  begun : origin ≤ run.server.history.length
  kept : run.Kept

structure Tracks (origin : Nat) (run : GoalRun) : Prop where
  calls : ∀ index call, run.calls[index]? = some call → run.Fits origin index call
  steady : run.Steady origin
  unprepared : run.prepared = false → run.owner.activation = none ∧ run.calls.length = 1
  activation : ∀ index, run.owner.activation = some index → index < run.calls.length

/-! ## Progress of a run -/

/-- Changes that no call minds. -/
structure Advances (before after : GoalRun) : Prop where
  threadId : after.threadId = before.threadId
  prepared : after.prepared = before.prepared
  job : ∀ job, before.server.job = some job → after.server.job = some job
  history : ∀ (place : Nat) snapshot, before.server.history[place]? = some snapshot →
    after.server.history[place]? = some snapshot
  cleared : before.server.cleared = true → after.server.cleared = true
  stopped : before.owner.stopped = true → after.owner.stopped = true
  activation : after.owner.activation = before.owner.activation
  startedAt : after.startedAt = before.startedAt
  heldAt : before.heldAt ≤ after.heldAt
  inactive : before.server.active = false → after.server.active = false
  ends : before.Over → after.Over

variable {before after : GoalRun} {call : GoalCall}

theorem Stands.advance (h : before.Stands place goal) (hadvances : Advances before after) :
    after.Stands place goal := by
  rcases h with ⟨job, snapshot, omitted, hjob, hsnapshot, rfl⟩
  refine ⟨job, snapshot, omitted, hadvances.job job hjob,
    hadvances.history place snapshot hsnapshot, ?_⟩
  rw [hadvances.threadId]

theorem Informed.advance (h : before.Informed) (hadvances : Advances before after) :
    after.Informed := by
  intro place hstarted
  rw [hadvances.startedAt] at hstarted
  exact Nat.le_trans (h place hstarted) hadvances.heldAt

theorem StageFits.advance {stage : GoalStage} {wait : GoalWait}
    (h : before.StageFits index stage wait) (hadvances : Advances before after) :
    after.StageFits index stage wait := by
  unfold StageFits at h ⊢
  cases stage with
  | prepareRead objective tokenBudget => exact hadvances.prepared.trans h
  | resumeRead expectedCreatedAt => exact hadvances.prepared.trans h
  | resumePause stage => exact hadvances.prepared.trans h
  | prepareSet objective tokenBudget =>
    dsimp only at h ⊢
    rw [hadvances.prepared, hadvances.threadId]
    exact h
  | activate stage =>
    cases stage with
    | reading =>
      dsimp only at h ⊢
      rw [hadvances.activation, hadvances.startedAt]
      exact h
    | writing =>
      dsimp only at h ⊢
      rw [hadvances.activation, hadvances.startedAt]
      exact h
  | activateStop stage =>
    exact ⟨hadvances.activation.trans h.1, Informed.advance h.2 hadvances⟩
  | pauseWait force clears => exact ⟨hadvances.prepared.trans h.1, hadvances.stopped h.2⟩
  | pauseSet clears stage =>
    refine ⟨hadvances.ends h.1, fun hstage => ?_⟩
    rcases h.2 hstage with hsent | ⟨hanswered, hinactive⟩
    · exact Or.inl hsent
    · exact Or.inr ⟨hanswered, hadvances.inactive hinactive⟩
  | clearRead => exact hadvances.ends h
  | clearSend => exact ⟨hadvances.ends h.1, h.2.imp_right hadvances.cleared⟩
  | clearReread => exact ⟨hadvances.ends h.1, hadvances.cleared h.2⟩
  | resolved =>
    intro hactivation
    rw [hadvances.activation] at hactivation
    exact Informed.advance (h hactivation) hadvances
  | rejected => trivial

theorem Fits.advance (h : before.Fits origin index call) (hadvances : Advances before after) :
    after.Fits origin index call where
  stage := StageFits.advance h.stage hadvances
  starts := by
    rw [hadvances.activation, hadvances.startedAt]
    exact h.starts
  answers := fun place goal hanswered =>
    ⟨(h.answers place goal hanswered).1.advance hadvances, (h.answers place goal hanswered).2⟩

theorem stageOf_setCall (run : GoalRun) (index other : Nat) (stage : GoalStage) (wait : GoalWait) :
    (run.setCall index stage wait).stageOf other =
      if index = other ∧ other < run.calls.length then some stage else run.stageOf other := by
  unfold GoalRun.stageOf GoalRun.setCall
  dsimp only
  rw [List.getElem?_set]
  by_cases heq : index = other
  · subst heq
    by_cases hlt : index < run.calls.length
    · rw [if_pos rfl, if_pos hlt, if_pos ⟨rfl, hlt⟩]
      rfl
    · rw [if_pos rfl, if_neg hlt, if_neg fun h => hlt h.2, List.getElem?_eq_none (Nat.not_lt.mp hlt)]
  · rw [if_neg heq, if_neg fun h => heq h.1]

theorem Over.setCall (h : run.Over) (hcall : run.calls[index]? = some call) {stage : GoalStage}
    (hstage : call.stage = .resolved → stage = .resolved) (wait : GoalWait) :
    (run.setCall index stage wait).Over := by
  refine ⟨h.stopped, fun other hactivation => ?_⟩
  have hother := h.resolved other hactivation
  rw [stageOf_setCall]
  split
  · rename_i hsame
    rcases hsame with ⟨rfl, -⟩
    unfold GoalRun.stageOf at hother
    rw [hcall] at hother
    rw [hstage (Option.some.inj hother)]
  · exact hother

theorem Steady.setCall (h : run.Steady origin) (index : Nat) (stage : GoalStage)
    (wait : GoalWait) : (run.setCall index stage wait).Steady origin :=
  ⟨h.held, h.quiet, h.idle, h.started, h.gone, h.begun,
    h.kept.matched, h.kept.forward, h.kept.paused⟩

theorem Tracks.setCall (h : before.Tracks origin) (after : GoalRun)
    (hcall : before.calls[index]? = some call) {stage : GoalStage} {wait : GoalWait}
    (hstage : call.stage = .resolved → stage = .resolved) (hcalls : after.calls = before.calls)
    (hadvances : Advances before after) (hsteady : after.Steady origin)
    (hfits : (after.setCall index stage wait).Fits origin index ⟨stage, wait⟩) :
    (after.setCall index stage wait).Tracks origin := by
  have hthere : after.calls[index]? = some call := by
    rw [hcalls]
    exact hcall
  have hmoved : Advances before (after.setCall index stage wait) :=
    { hadvances with ends := fun hover => (hadvances.ends hover).setCall hthere hstage wait }
  constructor
  · intro other found hfound
    change (after.calls.set index ⟨stage, wait⟩)[other]? = some found at hfound
    rw [List.getElem?_set] at hfound
    split at hfound
    · rename_i heq
      subst heq
      split at hfound
      · cases hfound
        exact hfits
      · cases hfound
    · rw [hcalls] at hfound
      exact (h.calls other found hfound).advance hmoved
  · exact hsteady.setCall index stage wait
  · intro hunprepared
    change after.prepared = false at hunprepared
    rw [hadvances.prepared] at hunprepared
    refine ⟨hadvances.activation.trans (h.unprepared hunprepared).1, ?_⟩
    change (after.calls.set index ⟨stage, wait⟩).length = 1
    rw [List.length_set, hcalls]
    exact (h.unprepared hunprepared).2
  · intro other hactivation
    change other < (after.calls.set index ⟨stage, wait⟩).length
    rw [List.length_set, hcalls]
    exact h.activation other (hadvances.activation.symm.trans hactivation)

theorem Tracks.advance (h : before.Tracks origin) (hcalls : after.calls = before.calls)
    (hadvances : Advances before after) (hsteady : after.Steady origin) : after.Tracks origin := by
  constructor
  · intro index call hcall
    rw [hcalls] at hcall
    exact (h.calls index call hcall).advance hadvances
  · exact hsteady
  · intro hunprepared
    rw [hadvances.prepared] at hunprepared
    rw [hcalls, hadvances.activation]
    exact h.unprepared hunprepared
  · intro index hactivation
    rw [hcalls]
    exact h.activation index (hadvances.activation.symm.trans hactivation)

theorem Advances.refl (run : GoalRun) : Advances run run where
  threadId := rfl
  prepared := rfl
  job := fun _ h => h
  history := fun _ _ h => h
  cleared := id
  stopped := id
  activation := rfl
  startedAt := rfl
  heldAt := Nat.le_refl _
  inactive := id
  ends := id

/-! ## Taking snapshots -/

theorem Advances.accept (hfresh : run.Fresh place goal) :
    Advances run (run.accept place goal) where
  threadId := rfl
  prepared := rfl
  job := fun _ h => h
  history := fun _ _ h => h
  cleared := id
  stopped := id
  activation := rfl
  startedAt := rfl
  heldAt := hfresh.accept.1
  inactive := id
  ends := fun hover => ⟨hover.stopped, hover.resolved⟩

theorem Stands.accept (hfresh : run.Fresh place goal) (hstands : run.Stands place goal) :
    (run.accept place goal).Stands (run.accept place goal).heldAt goal := by
  rcases hstands with ⟨job, snapshot, omitted, hjob, hsnapshot, rfl⟩
  exact ⟨job, snapshot, omitted, hjob, hfresh.accept.2.2.1.trans hsnapshot, rfl⟩

theorem Steady.fresh_inactive (h : run.Steady origin) (hfresh : run.Fresh place goal)
    (hnone : run.startedAt = none) : ¬run.Active place := by
  intro hactive
  rcases hfresh with ⟨current, hcurrent, -, hplace⟩
  have hheld : ¬run.Active run.heldAt := h.idle hnone (by rw [hcurrent]; rfl)
  apply hheld
  rcases hplace with hle | hsame
  · exact h.quiet hnone run.heldAt place (h.held current hcurrent).2 hle hactive
  · rcases hactive with ⟨snapshot, hsnapshot, hstatus⟩
    exact ⟨snapshot, hsame ▸ hsnapshot, hstatus⟩

theorem Steady.accept (h : run.Steady origin) (hfresh : run.Fresh place goal)
    (hstands : run.Stands place goal) : (run.accept place goal).Steady origin where
  held := by
    intro held hheld
    cases hheld
    refine ⟨Stands.accept hfresh hstands, ?_⟩
    rcases hfresh with ⟨current, hcurrent, hbudget, hplace⟩
    have horigin := (h.held current hcurrent).2
    have hle := (Fresh.accept ⟨current, hcurrent, hbudget, hplace⟩).1
    omega
  quiet := h.quiet
  idle := by
    rintro hnone - ⟨snapshot, hsnapshot, hstatus⟩
    exact h.fresh_inactive hfresh hnone
      ⟨snapshot, hfresh.accept.2.2.1.symm.trans hsnapshot, hstatus⟩
  started := h.started
  gone := fun _ hnone => nomatch hnone
  begun := h.begun
  kept := ⟨h.kept.matched, hfresh.accept.2.2.2.trans h.kept.forward, h.kept.paused⟩

/-! ## Pauses -/

theorem GoalServer.active_last {server : GoalServer} (h : server.active = true) :
    server.cleared = false ∧ ∃ snapshot, server.history[server.history.length - 1]? = some snapshot ∧
      snapshot.status = .active := by
  unfold GoalServer.active GoalServer.current at h
  split at h
  · cases h
  · rename_i hcleared
    rw [Bool.not_eq_true] at hcleared
    refine ⟨hcleared, ?_⟩
    split at h
    · rename_i job snapshot hjob hlast
      rw [List.getLast?_eq_getElem?] at hlast
      exact ⟨snapshot, hlast, beq_iff_eq.mp h⟩
    · cases h

theorem Tracks.knows_active (h : run.Tracks origin) (hprepared : run.prepared = true)
    (hover : run.Over) (hactive : run.server.active = true) :
    ∃ goal, run.owner.goal = some goal ∧ goal.status = .active := by
  rcases GoalServer.active_last hactive with ⟨hcleared, hlast⟩
  cases hgoal : run.owner.goal with
  | none =>
    rw [h.steady.gone hprepared hgoal] at hcleared
    cases hcleared
  | some goal =>
    rcases h.steady.held goal hgoal with ⟨hstands, horigin⟩
    refine ⟨goal, rfl, hstands.active.mp ?_⟩
    have hle : run.heldAt ≤ run.server.history.length - 1 := by
      rcases hstands with ⟨job, snapshot, omitted, -, hsnapshot, -⟩
      have hlt := (List.getElem?_eq_some_iff.mp hsnapshot).1
      omega
    cases hstarted : run.startedAt with
    | none => exact h.steady.quiet hstarted run.heldAt _ horigin hle hlast
    | some place =>
      rcases h.steady.started place hstarted with ⟨hactivation, hchain⟩
      rcases Option.isSome_iff_exists.mp hactivation with ⟨index, hindex⟩
      have hresolved := hover.resolved index hindex
      unfold GoalRun.stageOf at hresolved
      rcases Option.map_eq_some_iff.mp hresolved with ⟨call, hcall, hstage⟩
      have hfits := (h.calls index call hcall).stage
      rw [hstage] at hfits
      exact hchain run.heldAt _ (hfits hindex place hstarted) hle hlast

theorem Over.not_activation (h : run.Over) (hcall : run.calls[index]? = some call)
    (hstage : call.stage ≠ .resolved) : run.owner.activation ≠ some index := by
  intro hactivation
  have hresolved := h.resolved index hactivation
  unfold GoalRun.stageOf at hresolved
  rw [hcall] at hresolved
  exact hstage (Option.some.inj hresolved)

theorem Tracks.moves (h : before.Tracks origin) (after : GoalRun)
    (hcall : before.calls[index]? = some call) (hstage : call.stage ≠ .resolved)
    (hcalls : after.calls = before.calls) (hadvances : Advances before after)
    (hsteady : after.Steady origin) (stage : GoalStage)
    {wait : GoalWait} (hwait : wait = .idle ∨ ∃ request, wait = .sent request ∧
      request ≠ .set .active)
    (hfits : (after.setCall index stage wait).StageFits index stage wait) :
    (after.setCall index stage wait).Tracks origin := by
  apply h.setCall after hcall (fun heq => absurd heq hstage) hcalls hadvances hsteady
  constructor
  · exact hfits
  · intro hstarts
    dsimp only at hstarts
    rcases hwait with hidle | ⟨request, hsent, hother⟩
    · cases hidle.symm.trans hstarts
    · cases hsent.symm.trans hstarts
      exact absurd rfl hother
  · intro place goal hanswered
    dsimp only at hanswered
    rcases hwait with hidle | ⟨request, hsent, -⟩
    · cases hidle.symm.trans hanswered
    · cases hsent.symm.trans hanswered

theorem Tracks.throws (h : run.Tracks origin) (hcall : run.calls[index]? = some call)
    (hstage : call.stage ≠ .resolved) : (run.throws index false).Tracks origin := by
  have hmoved : (run.setCall index .rejected .idle).Tracks origin :=
    h.moves run hcall hstage rfl (Advances.refl run) h.steady .rejected (Or.inl rfl) trivial
  have hsame : run.throws index false = run.setCall index .rejected .idle := by
    unfold GoalRun.throws
    rw [Bool.or_false]
    rfl
  rw [hsame]
  exact hmoved

theorem Tracks.pauseResolved (h : run.Tracks origin) (hcall : run.calls[index]? = some call)
    (hstage : call.stage ≠ .resolved) (hover : run.Over) (hinactive : run.server.active = false)
    (clears : Bool) : (run.pauseResolved index clears).Tracks origin := by
  have hsame : { run with leftActive := run.leftActive || run.server.active } = run := by
    rw [hinactive, Bool.or_false]
  unfold GoalRun.pauseResolved
  dsimp only
  rw [hsame]
  split
  · exact h.moves run hcall hstage rfl (Advances.refl run) h.steady .clearRead
      (Or.inr ⟨.get, rfl, fun heq => nomatch heq⟩)
      (hover.setCall hcall (fun heq => absurd heq hstage) _)
  · have hfits : (run.setCall index .resolved .idle).StageFits index .resolved .idle :=
      fun hactivation => absurd hactivation (hover.not_activation hcall hstage)
    exact h.moves run hcall hstage rfl (Advances.refl run) h.steady .resolved (Or.inl rfl) hfits

theorem Tracks.pauseDecide (h : run.Tracks origin) {force clears : Bool} {wait : GoalWait}
    (hcall : run.calls[index]? = some ⟨.pauseWait force clears, wait⟩) (hover : run.Over)
    (hprepared : run.prepared = true) :
    (run.pauseDecide index force clears).Tracks origin := by
  have hstage : GoalStage.pauseWait force clears ≠ .resolved := fun heq => nomatch heq
  unfold GoalRun.pauseDecide
  split
  · have hstill : (run.setCall index (.pauseSet clears .reading) (.sent .get)).Over :=
      hover.setCall hcall (fun heq => absurd heq hstage) _
    have hfits : (run.setCall index (.pauseSet clears .reading) (.sent .get)).StageFits index
        (.pauseSet clears .reading) (.sent .get) := ⟨hstill, fun heq => nomatch heq⟩
    exact h.moves run hcall hstage rfl (Advances.refl run) h.steady _
      (Or.inr ⟨.get, rfl, fun heq => nomatch heq⟩) hfits
  · rename_i hidle
    apply h.pauseResolved hcall hstage hover
    -- a goal that is active would have been paused
    by_contra hactive
    rw [Bool.not_eq_false] at hactive
    rcases h.knows_active hprepared hover hactive with ⟨goal, hgoal, hstatus⟩
    apply hidle
    rw [hgoal, Option.any_some, hstatus]
    rfl

/-! ## Responses -/

theorem Tracks.set_cases (h : run.Tracks origin) {stage : GoalStage} {answer : GoalAnswer}
    (hcall : run.calls[index]? = some ⟨stage, .answered answer⟩)
    (htimely : run.Timely (.settle index)) (hcompares : stage.compares = true)
    (target : SetTarget) (part : SetStage) :
    run.setStatus target part answer = .failed false ∨
    ∃ place goal, answer = some (place, goal) ∧ Advances run (run.accept place goal) ∧
      (run.accept place goal).Steady origin ∧ place ≤ (run.accept place goal).heldAt ∧
      ((part = .reading ∧ target = .active ∧ run.startedAt ≠ none ∧
          run.setStatus target part answer = .failed true) ∨
        (part = .reading ∧ run.setStatus target part answer = .write (run.accept place goal)) ∨
        ((part = .writing ∨ target = .active) ∧
          run.setStatus target part answer = .done (run.accept place goal))) := by
  have hfresh : ∀ place goal, answer = some (place, goal) → run.Fresh place goal := by
    rintro place goal rfl
    exact htimely _ place goal hcall rfl hcompares
  have hstands : ∀ place goal, answer = some (place, goal) →
      run.Stands place goal ∧ origin ≤ place + 1 := by
    rintro place goal rfl
    exact (h.calls index _ hcall).answers place goal rfl
  have hverifies : ∀ place goal, answer = some (place, goal) →
      verifies run.threadId run.owner.goal goal = true :=
    fun place goal hanswer => (hfresh place goal hanswer).verifies
      (fun current hcurrent => (h.steady.held current hcurrent).1) (hstands place goal hanswer).1
  rcases setStatus_cases hverifies with hfailed | ⟨place, goal, hanswer, hcases⟩
  · exact Or.inl hfailed
  · have hplace := hfresh place goal hanswer
    rcases hstands place goal hanswer with ⟨hstand, horigin⟩
    refine Or.inr ⟨place, goal, hanswer, Advances.accept hplace,
      h.steady.accept hplace hstand, hplace.accept.2.1, ?_⟩
    rcases hcases with ⟨hpart, htarget, hactive, hfailed⟩ | hwrite | hdone
    · refine Or.inl ⟨hpart, htarget, fun hnone => ?_, hfailed⟩
      exact h.steady.fresh_inactive hplace hnone (hstand.active.mpr hactive)
    · exact Or.inr (Or.inl hwrite)
    · exact Or.inr (Or.inr hdone)

theorem Tracks.only (h : run.Tracks origin) (hunprepared : run.prepared = false)
    (hcall : run.calls[index]? = some call) : index = 0 ∧ run.calls = [call] := by
  have hlength := (h.unprepared hunprepared).2
  rcases List.length_eq_one_iff.mp hlength with ⟨only, honly⟩
  rw [honly] at hcall ⊢
  rcases Nat.eq_zero_or_pos index with rfl | hpos
  · cases hcall
    exact ⟨rfl, rfl⟩
  · have hnone : [only][index]? = none := List.getElem?_eq_none hpos
    rw [hnone] at hcall
    cases hcall

theorem Tracks.not_started (h : run.Tracks origin) (hunprepared : run.prepared = false) :
    run.startedAt = none := by
  cases hstarted : run.startedAt with
  | none => rfl
  | some place =>
    have hactivation := (h.steady.started place hstarted).1
    rw [(h.unprepared hunprepared).1] at hactivation
    cases hactivation

theorem Tracks.alone (h : run.Tracks origin) (next : GoalRun) (hunprepared : run.prepared = false)
    (hcall : run.calls[index]? = some call) (hsteady : next.Steady origin)
    (hcalls : next.calls = run.calls) (hactivation : next.owner.activation = run.owner.activation)
    {stage : GoalStage} {wait : GoalWait}
    (hfits : (next.setCall index stage wait).Fits origin index ⟨stage, wait⟩) :
    (next.setCall index stage wait).Tracks origin := by
  rcases h.only hunprepared hcall with ⟨rfl, honly⟩
  have hnone : next.owner.activation = none := hactivation.trans (h.unprepared hunprepared).1
  have hafter : (next.setCall 0 stage wait).calls = [⟨stage, wait⟩] := by
    change next.calls.set 0 ⟨stage, wait⟩ = _
    rw [hcalls, honly]
    rfl
  constructor
  · intro other found hfound
    rw [hafter] at hfound
    have hother : other = 0 := by
      have hlt := (List.getElem?_eq_some_iff.mp hfound).1
      rw [List.length_singleton] at hlt
      omega
    subst hother
    cases hfound
    exact hfits
  · exact hsteady.setCall 0 stage wait
  · intro _
    refine ⟨hnone, ?_⟩
    rw [hafter]
    rfl
  · intro other hsome
    cases hnone.symm.trans hsome

theorem Tracks.prepares (h : run.Tracks origin) (next : GoalRun)
    (hunprepared : run.prepared = false) (hcall : run.calls[index]? = some call)
    (hsteady : next.Steady origin) (hcalls : next.calls = run.calls)
    (hactivation : next.owner.activation = run.owner.activation) :
    (next.setCall index .resolved .idle).Tracks origin := by
  have hnone : next.owner.activation = none := hactivation.trans (h.unprepared hunprepared).1
  apply h.alone next hunprepared hcall hsteady hcalls hactivation
  constructor
  · intro hsome
    cases hnone.symm.trans hsome
  · intro hsent
    cases hsent
  · intro place goal hanswered
    cases hanswered

theorem Tracks.holds (h : run.Tracks origin) (next : GoalRun) (hunprepared : run.prepared = false)
    (hcall : run.calls[index]? = some call)
    (hanswered : call.wait = .answered (some (place, goal))) (hinactive : goal.status ≠ .active)
    (hserver : next.server = run.server) (hthread : next.threadId = run.threadId)
    (hgoal : next.owner.goal = some goal) (hheld : next.heldAt = place)
    (hstarted : next.startedAt = run.startedAt) (hkept : next.Kept) : next.Steady origin := by
  rcases (h.calls index call hcall).answers place goal hanswered with ⟨hstands, horigin⟩
  have hnone := hstarted.trans (h.not_started hunprepared)
  have hstand : next.Stands place goal := by
    unfold GoalRun.Stands
    rw [hserver, hthread]
    exact hstands
  constructor
  · intro other hother
    rw [hgoal] at hother
    cases hother
    rw [hheld]
    exact ⟨hstand, horigin⟩
  · intro _ earlier later hearlier hle
    unfold GoalRun.Active
    rw [hserver]
    exact h.steady.quiet (h.not_started hunprepared) earlier later hearlier hle
  · intro _ _ hactive
    rw [hheld] at hactive
    exact hinactive (hstand.active.mp hactive)
  · intro other hother
    cases hnone.symm.trans hother
  · intro _ hempty
    cases hgoal.symm.trans hempty
  · rw [hserver]
    exact h.steady.begun
  · exact hkept

theorem Steady.owner (h : run.Steady origin) {owner : GoalOwner}
    (hgoal : owner.goal = run.owner.goal)
    (hactivation : run.owner.activation.isSome = true → owner.activation.isSome = true) :
    Steady origin { run with owner } := by
  constructor
  · intro goal hheld
    exact h.held goal (hgoal.symm.trans hheld)
  · exact h.quiet
  · intro hnone hsome
    dsimp only at hsome
    rw [hgoal] at hsome
    exact h.idle hnone hsome
  · intro place hstarted
    exact ⟨hactivation (h.started place hstarted).1, (h.started place hstarted).2⟩
  · intro hprepared hnone
    exact h.gone hprepared (hgoal.symm.trans hnone)
  · exact h.begun
  · exact ⟨h.kept.matched, h.kept.forward, h.kept.paused⟩

theorem Advances.owner {owner : GoalOwner} (hactivation : owner.activation = run.owner.activation)
    (hstopped : run.owner.stopped = true → owner.stopped = true) :
    Advances run { run with owner } where
  threadId := rfl
  prepared := rfl
  job := fun _ h => h
  history := fun _ _ h => h
  cleared := id
  stopped := hstopped
  activation := hactivation
  startedAt := rfl
  heldAt := Nat.le_refl _
  inactive := id
  ends := fun hover => ⟨hstopped hover.stopped,
    fun index hsome => hover.resolved index (hactivation.symm.trans hsome)⟩

theorem Advances.trans {middle : GoalRun} (h : Advances before middle)
    (h' : Advances middle after) : Advances before after where
  threadId := h'.threadId.trans h.threadId
  prepared := h'.prepared.trans h.prepared
  job := fun job hjob => h'.job job (h.job job hjob)
  history := fun place snapshot hplace => h'.history place snapshot (h.history place snapshot hplace)
  cleared := fun hcleared => h'.cleared (h.cleared hcleared)
  stopped := fun hstopped => h'.stopped (h.stopped hstopped)
  activation := h'.activation.trans h.activation
  startedAt := h'.startedAt.trans h.startedAt
  heldAt := Nat.le_trans h.heldAt h'.heldAt
  inactive := fun hinactive => h'.inactive (h.inactive hinactive)
  ends := fun hover => h'.ends (h.ends hover)

theorem Tracks.activated (h : run.Tracks origin) {part : SetStage} {answer : GoalAnswer}
    (hcall : run.calls[index]? = some ⟨.activate part, .answered answer⟩)
    (hfits : run.StageFits index (.activate part) (.answered answer))
    (hanswer : answer = some (place, goal)) (hadvances : Advances run (run.accept place goal))
    (hsteady : (run.accept place goal).Steady origin)
    (hplace : place ≤ (run.accept place goal).heldAt) :
    Tracks origin (if (run.accept place goal).owner.stopped = true then
      (run.accept place goal).setCall index (.activateStop .reading) (.sent .get)
    else
      GoalRun.setCall index .resolved .idle { run.accept place goal with
        owner := { (run.accept place goal).owner with activated := true } }) := by
  have hactivation : run.owner.activation = some index := by
    cases part with
    | reading => exact hfits.1
    | writing => exact hfits.1
  have hinformed : (run.accept place goal).Informed := by
    intro start hstart
    have hstarted : run.startedAt = some start := hstart
    cases part with
    | reading => cases hfits.2.symm.trans hstarted
    | writing =>
      rcases hfits.2 with ⟨hnone, -⟩ | ⟨other, found, hother, hanswered⟩
      · cases hnone.symm.trans hstarted
      · cases hother.symm.trans hstarted
        subst hanswer
        cases hanswered
        exact hplace
  split
  · exact h.moves (run.accept place goal) hcall (fun heq => nomatch heq) rfl hadvances hsteady
      (.activateStop .reading) (Or.inr ⟨.get, rfl, fun heq => nomatch heq⟩)
      ⟨hactivation, hinformed⟩
  · refine h.moves _ hcall (fun heq => nomatch heq) ?_ ?_ ?_ .resolved (Or.inl rfl) ?_
    · rfl
    · exact hadvances.trans (Advances.owner rfl id)
    · exact hsteady.owner rfl id
    · exact fun _ => hinformed

theorem Tracks.resumes (h : run.Tracks origin) (hunprepared : run.prepared = false)
    (hcall : run.calls[index]? = some call)
    (hanswered : call.wait = .answered (some (place, goal))) (hinactive : goal.status ≠ .active) :
    Tracks origin (GoalRun.setCall index (.resumePause .reading) (.sent .get)
      { run with
        owner := { run.owner with goal := some goal, reserved := true }
        heldAt := place }) := by
  refine h.alone _ hunprepared hcall ?_ ?_ ?_ ?_
  · exact h.holds _ hunprepared hcall hanswered hinactive rfl rfl rfl rfl rfl
      ⟨h.steady.kept.matched, h.steady.kept.forward, h.steady.kept.paused⟩
  · rfl
  · rfl
  · constructor
    · exact hunprepared
    · intro hsent
      cases hsent
    · intro other found hfalse
      cases hfalse

theorem Tracks.settle (h : run.Tracks origin) (index : Nat)
    (htimely : run.Timely (.settle index)) : (run.settle index).Tracks origin := by
  unfold GoalRun.settle
  split
  · exact h
  · rename_i force clears wait hcall
    have hfits := (h.calls index _ hcall).stage
    split
    · rename_i hresolved
      have hover : run.Over := by
        refine ⟨hfits.2, fun other hother => ?_⟩
        rw [hother] at hresolved
        exact hresolved
      exact h.pauseDecide hcall hover hfits.1
    · exact h.throws hcall fun heq => nomatch heq
    · exact h
  · rename_i stage answer _ hcall
    have hfits := (h.calls index _ hcall).stage
    dsimp only at hfits
    split
    · -- no goal is there
      exact h.moves { run with owner := { run.owner with reserved := true } } hcall
        (fun heq => nomatch heq) rfl (Advances.owner rfl id) (h.steady.owner rfl id) _
        (Or.inr ⟨_, rfl, fun heq => nomatch heq⟩) ⟨hfits, Or.inl rfl⟩
    · exact h.throws hcall fun heq => nomatch heq
    · rename_i objective tokenBudget place goal _
      rcases hfits with ⟨hunprepared, hsent | hnone | ⟨other, found, hanswer, hcreated⟩⟩
      · cases hsent
      · cases hnone
      · cases hanswer
        rcases hcreated with ⟨hthread, hobjective, hstatus, hbudget⟩
        rw [if_neg]
        · have hinactive : goal.status ≠ .active := by
            rw [hstatus]
            exact fun heq => nomatch heq
          refine h.prepares _ hunprepared hcall ?_ ?_ ?_
          · exact h.holds _ hunprepared hcall rfl hinactive rfl rfl rfl rfl rfl
              ⟨h.steady.kept.matched, h.steady.kept.forward, h.steady.kept.paused⟩
          · rfl
          · rfl
        · rintro (hother | hother | hother | hother)
          · exact hother hthread
          · exact hother hobjective
          · exact hother hstatus
          · exact hother hbudget
    · rename_i expectedCreatedAt place goal _
      split
      · exact h.throws hcall fun heq => nomatch heq
      · rename_i hadmitted
        rw [not_or, not_or] at hadmitted
        have hunprepared : run.prepared = false := hfits
        dsimp only
        split
        · refine h.prepares _ hunprepared hcall ?_ ?_ ?_
          · exact h.holds _ hunprepared hcall rfl hadmitted.2.1 rfl rfl rfl rfl rfl
              ⟨h.steady.kept.matched, h.steady.kept.forward, h.steady.kept.paused⟩
          · rfl
          · rfl
        · exact h.resumes hunprepared hcall rfl hadmitted.2.1
    · -- `prepareResume` pauses the goal
      rename_i part _
      have hunprepared : run.prepared = false := hfits
      rcases h.set_cases hcall htimely rfl .paused part with
        hset | ⟨place, goal, -, hadvances, hsteady, -, ⟨-, htarget, -⟩ | ⟨-, hset⟩ | ⟨-, hset⟩⟩
      · rw [hset]
        exact h.throws hcall fun heq => nomatch heq
      · cases htarget
      · rw [hset]
        exact h.moves (run.accept place goal) hcall (fun heq => nomatch heq) rfl hadvances hsteady
          (.resumePause .writing) (Or.inr ⟨.set .paused, rfl, fun heq => nomatch heq⟩) hunprepared
      · rw [hset]
        refine h.prepares _ hunprepared hcall ?_ ?_ ?_
        · exact ⟨hsteady.held, hsteady.quiet, hsteady.idle, hsteady.started,
            fun _ hnone => (nomatch hnone), hsteady.begun,
            ⟨hsteady.kept.matched, hsteady.kept.forward, hsteady.kept.paused⟩⟩
        · rfl
        · rfl
    · -- `activate`
      rename_i part _
      rcases h.set_cases hcall htimely rfl .active part with
        hset | ⟨place, goal, hanswer, hadvances, hsteady, hplace,
          ⟨hpart, -, hstarted, -⟩ | ⟨hpart, hset⟩ | ⟨-, hset⟩⟩
      · rw [hset]
        exact h.throws hcall fun heq => nomatch heq
      · subst hpart
        exact absurd hfits.2 hstarted
      · rw [hset]
        subst hpart
        refine h.setCall (run.accept place goal) hcall (fun heq => nomatch heq) rfl hadvances hsteady
          ⟨⟨hfits.1, Or.inl ⟨hfits.2, Or.inl rfl⟩⟩, fun _ => ⟨hfits.1, hfits.2, Or.inl rfl⟩, ?_⟩
        intro other found hanswered
        cases hanswered
      · rw [hset]
        exact h.activated hcall hfits hanswer hadvances hsteady hplace
    · -- the pause after an activation that was stopped
      rename_i part _
      rcases h.set_cases hcall htimely rfl .paused part with
        hset | ⟨place, goal, -, hadvances, hsteady, -, ⟨-, htarget, -⟩ | ⟨-, hset⟩ | ⟨-, hset⟩⟩
      · rw [hset]
        exact h.throws hcall fun heq => nomatch heq
      · cases htarget
      · rw [hset]
        have hinformed : (run.accept place goal).Informed := Informed.advance hfits.2 hadvances
        exact h.moves (run.accept place goal) hcall (fun heq => nomatch heq) rfl hadvances hsteady
          (.activateStop .writing) (Or.inr ⟨.set .paused, rfl, fun heq => nomatch heq⟩)
          ⟨hfits.1, hinformed⟩
      · rw [hset]
        have hinformed : (run.accept place goal).Informed := Informed.advance hfits.2 hadvances
        exact h.moves (run.accept place goal) hcall (fun heq => nomatch heq) rfl hadvances hsteady
          .resolved (Or.inl rfl) fun _ => hinformed
    · -- `pause`
      rename_i clears part _
      rcases h.set_cases hcall htimely rfl .paused part with
        hset | ⟨place, goal, hanswer, hadvances, hsteady, -,
          ⟨-, htarget, -⟩ | ⟨-, hset⟩ | ⟨hpart, hset⟩⟩
      · rw [hset]
        exact h.throws hcall fun heq => nomatch heq
      · cases htarget
      · rw [hset]
        have hover : ((run.accept place goal).setCall index (.pauseSet clears .writing)
            (.sent (.set .paused))).Over :=
          Over.setCall (hadvances.ends hfits.1) hcall (fun heq => nomatch heq) _
        exact h.moves (run.accept place goal) hcall (fun heq => nomatch heq) rfl hadvances hsteady
          (.pauseSet clears .writing) (Or.inr ⟨.set .paused, rfl, fun heq => nomatch heq⟩)
          ⟨hover, fun _ => Or.inl rfl⟩
      · rw [hset]
        have hwriting : part = .writing := by
          rcases hpart with hwriting | htarget
          · exact hwriting
          · cases htarget
        have hinactive : run.server.active = false := by
          rcases hfits.2 hwriting with hsent | ⟨-, hinactive⟩
          · cases hsent
          · exact hinactive
        have haccepted : (run.accept place goal).Tracks origin := h.advance rfl hadvances hsteady
        exact haccepted.pauseResolved hcall (fun heq => nomatch heq) (hadvances.ends hfits.1)
          hinactive clears
    · -- `clear` has read the goal
      rename_i place goal _
      have hfresh := htimely _ place goal hcall rfl rfl
      have hstands := ((h.calls index _ hcall).answers place goal rfl).1
      rw [hfresh.verifies (fun current hcurrent => (h.steady.held current hcurrent).1) hstands,
        Bool.not_true, if_neg Bool.false_ne_true]
      have hclearing : Advances run
          { run with owner := { run.owner with clearing := true } } := Advances.owner rfl id
      exact h.moves { run with owner := { run.owner with clearing := true } } hcall
        (fun heq => nomatch heq) rfl hclearing (h.steady.owner rfl id) .clearSend
        (Or.inr ⟨.clear, rfl, fun heq => nomatch heq⟩)
        ⟨Over.setCall (hclearing.ends hfits) hcall (fun heq => nomatch heq) _, Or.inl rfl⟩
    · -- the goal has been cleared
      have hcleared : run.server.cleared = true := by
        rcases hfits.2 with hsent | hcleared
        · cases hsent
        · exact hcleared
      exact h.moves run hcall (fun heq => nomatch heq) rfl (Advances.refl run) h.steady
        .clearReread (Or.inr ⟨.get, rfl, fun heq => nomatch heq⟩)
        ⟨hfits.1.setCall hcall (fun heq => nomatch heq) _, hcleared⟩
    · refine h.moves _ hcall (fun heq => nomatch heq) ?_ ?_ ?_ .resolved (Or.inl rfl) ?_
      · rfl
      · exact Advances.owner rfl id
      · constructor
        · exact fun _ hnone => nomatch hnone
        · exact h.steady.quiet
        · exact fun _ hnone => nomatch hnone
        · exact h.steady.started
        · exact fun _ _ => hfits.2
        · exact h.steady.begun
        · exact ⟨h.steady.kept.matched, h.steady.kept.forward, h.steady.kept.paused⟩
      · exact fun hactivation =>
          absurd hactivation (hfits.1.not_activation hcall fun heq => nomatch heq)
    · exact h
    · exact h
    · exact h
    · apply h.throws hcall
      rintro rfl
      exact absurd rfl ‹GoalStage.resolved = GoalStage.resolved → False›
  · exact h

end GoalRun

end HarnessControl.Codex
