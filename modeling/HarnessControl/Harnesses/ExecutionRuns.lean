import HarnessControl.Harnesses.ExecutionCallbacks
import HarnessControl.Harnesses.WorkRuns

/-!
# Executions over runs

In every run of a session's turns an execution that was begun has one record, its acknowledgement
and its outcome are recorded and shown once, and turns are dispatched on a resolved ledger.
-/

namespace HarnessControl.Harnesses

open HarnessControl.Library HarnessControl.Protocol HarnessControl.State

/-! ## Versions of the ledger -/

/-- The later record of an execution: the acknowledgement and the outcome are set once. -/
structure RootExecution.ExtendedBy (old new : RootExecution) : Prop where
  admissionId : new.admissionId = old.admissionId
  originTurnId : new.originTurnId = old.originTurnId
  nativeReference : new.nativeReference = old.nativeReference
  goalAdmissionId : new.goalAdmissionId = old.goalAdmissionId
  requiresTerminalProof : new.requiresTerminalProof = old.requiresTerminalProof
  acknowledged : ∀ execution, old.nativeExecutionReference = some execution →
    new.nativeExecutionReference = some execution
  ended : ∀ status, old.phaseStatus = some status → new.phaseStatus = some status

/-- The later record of a goal: a confirmed goal stays confirmed. -/
structure GoalAdmission.ExtendedBy (old new : GoalAdmission) : Prop where
  admissionId : new.admissionId = old.admissionId
  originTurnId : new.originTurnId = old.originTurnId
  nativeReference : new.nativeReference = old.nativeReference
  objective : new.objective = old.objective
  tokenBudget : new.tokenBudget = old.tokenBudget
  expectedNativeCreatedAt : new.expectedNativeCreatedAt = old.expectedNativeCreatedAt
  confirmed : old.phase = .confirmed → new.phase = .confirmed

structure NativeWorkState.KeptBy (old new : NativeWorkState) : Prop where
  roots : ∀ root ∈ old.rootExecutions, ∃ next ∈ new.rootExecutions,
    RootExecution.ExtendedBy root next
  goals : ∀ goal ∈ old.goals, ∃ next ∈ new.goals, GoalAdmission.ExtendedBy goal next

theorem RootExecution.ExtendedBy.refl (root : RootExecution) :
    RootExecution.ExtendedBy root root :=
  ⟨rfl, rfl, rfl, rfl, rfl, fun _ h => h, fun _ h => h⟩

theorem RootExecution.ExtendedBy.trans {first second third : RootExecution}
    (h : RootExecution.ExtendedBy first second) (h' : RootExecution.ExtendedBy second third) :
    RootExecution.ExtendedBy first third where
  admissionId := h'.admissionId.trans h.admissionId
  originTurnId := h'.originTurnId.trans h.originTurnId
  nativeReference := h'.nativeReference.trans h.nativeReference
  goalAdmissionId := h'.goalAdmissionId.trans h.goalAdmissionId
  requiresTerminalProof := h'.requiresTerminalProof.trans h.requiresTerminalProof
  acknowledged execution hold := h'.acknowledged execution (h.acknowledged execution hold)
  ended status hold := h'.ended status (h.ended status hold)

theorem GoalAdmission.ExtendedBy.refl (goal : GoalAdmission) :
    GoalAdmission.ExtendedBy goal goal :=
  ⟨rfl, rfl, rfl, rfl, rfl, rfl, fun h => h⟩

theorem GoalAdmission.ExtendedBy.trans {first second third : GoalAdmission}
    (h : GoalAdmission.ExtendedBy first second) (h' : GoalAdmission.ExtendedBy second third) :
    GoalAdmission.ExtendedBy first third where
  admissionId := h'.admissionId.trans h.admissionId
  originTurnId := h'.originTurnId.trans h.originTurnId
  nativeReference := h'.nativeReference.trans h.nativeReference
  objective := h'.objective.trans h.objective
  tokenBudget := h'.tokenBudget.trans h.tokenBudget
  expectedNativeCreatedAt := h'.expectedNativeCreatedAt.trans h.expectedNativeCreatedAt
  confirmed hold := h'.confirmed (h.confirmed hold)

theorem NativeWorkState.KeptBy.refl (state : NativeWorkState) :
    NativeWorkState.KeptBy state state where
  roots root hmem := ⟨root, hmem, .refl root⟩
  goals goal hmem := ⟨goal, hmem, .refl goal⟩

theorem NativeWorkState.KeptBy.trans {first second third : NativeWorkState}
    (h : NativeWorkState.KeptBy first second) (h' : NativeWorkState.KeptBy second third) :
    NativeWorkState.KeptBy first third := by
  constructor
  · intro root hmem
    rcases h.roots root hmem with ⟨next, hnext, hext⟩
    rcases h'.roots next hnext with ⟨last, hlast, hext'⟩
    exact ⟨last, hlast, hext.trans hext'⟩
  · intro goal hmem
    rcases h.goals goal hmem with ⟨next, hnext, hext⟩
    rcases h'.goals next hnext with ⟨last, hlast, hext'⟩
    exact ⟨last, hlast, hext.trans hext'⟩

theorem NativeWorkState.KeptBy.of_admitted {stored : Nat} {old new : NativeWorkState}
    (h : saveNativeWorkStateProblem stored (some old) new = none) :
    NativeWorkState.KeptBy old new := by
  unfold saveNativeWorkStateProblem at h
  simp only [firstProblem_eq_none, List.forall_mem_cons, refuseIf_eq_none, Bool.not_eq_false',
    List.all_eq_true, Option.elim_some] at h
  rcases h with ⟨-, -, -, -, -, -, -, -, -, -, -, -, -, hroots, -, hgoals, -⟩
  constructor
  · intro root hmem
    have hkept := hroots root hmem
    unfold rootKept at hkept
    rcases (Option.any_eq_true _ _).mp hkept with ⟨next, hfound, hsame⟩
    simp only [Bool.and_eq_true, beq_iff_eq, Bool.or_eq_true] at hsame
    rcases hsame with ⟨⟨⟨⟨⟨horigin, hreference⟩, hgoal⟩, hproof⟩, hexecution⟩, hstatus⟩
    refine ⟨next, List.mem_of_find?_eq_some hfound, by simpa using List.find?_some hfound, horigin,
      hreference, hgoal, hproof, fun execution hold => ?_, fun status hold => ?_⟩
    · rw [hold] at hexecution
      simpa using hexecution
    · rw [hold] at hstatus
      simpa using hstatus
  · intro goal hmem
    have hkept := hgoals goal hmem
    unfold goalKept at hkept
    rcases (Option.any_eq_true _ _).mp hkept with ⟨next, hfound, hsame⟩
    simp only [Bool.and_eq_true, beq_iff_eq, Bool.or_eq_true] at hsame
    rcases hsame with ⟨⟨⟨⟨⟨⟨horigin, hreference⟩, hobjective⟩, hbudget⟩, hcreated⟩, hphase⟩, -⟩
    refine ⟨next, List.mem_of_find?_eq_some hfound, by simpa using List.find?_some hfound, horigin,
      hreference, hobjective, hbudget, hcreated, fun hold => ?_⟩
    rcases hphase with hpending | hconfirmed
    · rw [hold] at hpending
      cases hpending
    · exact hconfirmed

/-! ## What the log shows -/

/-- The event of the session is of the given type and names the admission. -/
def names (sessionId eventType admission : String) (event : HarnessEvent) : Bool :=
  event.sessionId == sessionId && event.eventType == eventType &&
    event.data.field? "admission_id" == some (.str admission)

/-- The event shows the acknowledgement that the record has. -/
structure RootExecution.AdmittedBy (root : RootExecution) (event : HarnessEvent) : Prop where
  turnId : event.turnId = some root.originTurnId
  data : ∃ execution, root.nativeExecutionReference = some execution ∧ event.data =
    admittedData root.admissionId root.nativeReference execution root.goalAdmissionId

/-- The event shows the outcome that the record has. -/
structure RootExecution.CompletedBy (root : RootExecution) (event : HarnessEvent) : Prop where
  turnId : event.turnId = some root.originTurnId
  data : ∃ execution status output, root.nativeExecutionReference = some execution ∧
    root.phaseStatus = some status ∧ event.data = completedData root.admissionId
      root.nativeReference execution status root.goalAdmissionId output

variable {event : HarnessEvent}

theorem RootExecution.AdmittedBy.extended {root next : RootExecution}
    (h : RootExecution.AdmittedBy root event) (hext : RootExecution.ExtendedBy root next) :
    RootExecution.AdmittedBy next event := by
  rcases h.data with ⟨execution, hexecution, hdata⟩
  refine ⟨h.turnId.trans (by rw [hext.originTurnId]), execution,
    hext.acknowledged execution hexecution, ?_⟩
  rw [hext.admissionId, hext.nativeReference, hext.goalAdmissionId]
  exact hdata

theorem RootExecution.CompletedBy.extended {root next : RootExecution}
    (h : RootExecution.CompletedBy root event) (hext : RootExecution.ExtendedBy root next) :
    RootExecution.CompletedBy next event := by
  rcases h.data with ⟨execution, status, output, hexecution, hstatus, hdata⟩
  refine ⟨h.turnId.trans (by rw [hext.originTurnId]), execution, status, output,
    hext.acknowledged execution hexecution, hext.ended status hstatus, ?_⟩
  rw [hext.admissionId, hext.nativeReference, hext.goalAdmissionId]
  exact hdata

/-- The log shows every acknowledgement and every outcome of the records, each once and as it is
recorded, the outcome after the acknowledgement. -/
structure Shown (sessionId : String) (committed : List HarnessEvent)
    (roots : List RootExecution) : Prop where
  admitted : ∀ event ∈ committed, event.sessionId = sessionId →
    event.eventType = "native.execution.admitted" →
      ∃ root ∈ roots, RootExecution.AdmittedBy root event
  completed : ∀ event ∈ committed, event.sessionId = sessionId →
    event.eventType = "native.execution.completed" →
      ∃ root ∈ roots, RootExecution.CompletedBy root event
  admittedOnce : ∀ admission, (committed.filter
    (names sessionId "native.execution.admitted" admission)).length ≤ 1
  completedOnce : ∀ admission, (committed.filter
    (names sessionId "native.execution.completed" admission)).length ≤ 1
  ordered : Throughout (fun before event => ∀ admission,
    names sessionId "native.execution.completed" admission event = true →
      ∃ earlier ∈ before, names sessionId "native.execution.admitted" admission earlier = true)
    committed
  acknowledged : ∀ root ∈ roots, root.nativeExecutionReference.isSome = true →
    ∃ event ∈ committed, names sessionId "native.execution.admitted" root.admissionId event = true
  ended : ∀ root ∈ roots, root.phaseStatus.isSome = true →
    ∃ event ∈ committed, names sessionId "native.execution.completed" root.admissionId event = true

section Log

variable {sessionId : String} {committed : List HarnessEvent} {roots : List RootExecution}

theorem Shown.empty (sessionId : String) : Shown sessionId [] [] where
  admitted _ hmem := nomatch hmem
  completed _ hmem := nomatch hmem
  admittedOnce _ := Nat.zero_le 1
  completedOnce _ := Nat.zero_le 1
  ordered := Throughout.nil _
  acknowledged _ hmem := nomatch hmem
  ended _ hmem := nomatch hmem

theorem names_iff {eventType admission : String} :
    names sessionId eventType admission event = true ↔ event.sessionId = sessionId ∧
      event.eventType = eventType ∧ event.data.field? "admission_id" = some (.str admission) := by
  unfold names
  simp only [Bool.and_eq_true, beq_iff_eq, and_assoc]

theorem RootExecution.AdmittedBy.names {root : RootExecution}
    (h : RootExecution.AdmittedBy root event) {admission : String}
    (hnames : names sessionId "native.execution.admitted" admission event = true) :
    root.admissionId = admission := by
  rcases h.data with ⟨execution, -, hdata⟩
  have hfield := (names_iff.mp hnames).2.2
  rw [hdata] at hfield
  cases hfield
  rfl

theorem RootExecution.CompletedBy.names {root : RootExecution}
    (h : RootExecution.CompletedBy root event) {admission : String}
    (hnames : names sessionId "native.execution.completed" admission event = true) :
    root.admissionId = admission := by
  rcases h.data with ⟨execution, status, output, -, -, hdata⟩
  have hfield := (names_iff.mp hnames).2.2
  rw [hdata] at hfield
  cases hfield
  rfl

theorem Shown.unacknowledged (h : Shown sessionId committed roots)
    (hunique : uniqueBy RootExecution.admissionId roots = true) {root : RootExecution}
    (hmem : root ∈ roots) (hnone : root.nativeExecutionReference = none) :
    committed.filter (names sessionId "native.execution.admitted" root.admissionId) = [] := by
  rw [List.filter_eq_nil_iff]
  intro event hevent hnames
  have habout := names_iff.mp hnames
  rcases h.admitted event hevent habout.1 habout.2.1 with ⟨other, hother, hshown⟩
  have hsame := find?_of_unique hunique hother (hshown.names hnames)
  rw [find?_of_unique hunique hmem rfl] at hsame
  cases hsame
  rcases hshown.data with ⟨execution, hexecution, -⟩
  rw [hnone] at hexecution
  cases hexecution

theorem Shown.unended (h : Shown sessionId committed roots)
    (hunique : uniqueBy RootExecution.admissionId roots = true) {root : RootExecution}
    (hmem : root ∈ roots) (hnone : root.phaseStatus = none) :
    committed.filter (names sessionId "native.execution.completed" root.admissionId) = [] := by
  rw [List.filter_eq_nil_iff]
  intro event hevent hnames
  have habout := names_iff.mp hnames
  rcases h.completed event hevent habout.1 habout.2.1 with ⟨other, hother, hshown⟩
  have hsame := find?_of_unique hunique hother (hshown.names hnames)
  rw [find?_of_unique hunique hmem rfl] at hsame
  cases hsame
  rcases hshown.data with ⟨execution, status, output, -, hstatus, -⟩
  rw [hnone] at hstatus
  cases hstatus

theorem Shown.concat (h : Shown sessionId committed roots) {next : List RootExecution}
    (hkept : ∀ root ∈ roots, ∃ later ∈ next, RootExecution.ExtendedBy root later)
    {event : HarnessEvent}
    (hadmitted : event.sessionId = sessionId → event.eventType = "native.execution.admitted" →
      ∃ root ∈ next, RootExecution.AdmittedBy root event ∧ committed.filter
        (names sessionId "native.execution.admitted" root.admissionId) = [])
    (hcompleted : event.sessionId = sessionId → event.eventType = "native.execution.completed" →
      ∃ root ∈ next, RootExecution.CompletedBy root event ∧ committed.filter
          (names sessionId "native.execution.completed" root.admissionId) = [] ∧
        ∃ earlier ∈ committed,
          names sessionId "native.execution.admitted" root.admissionId earlier = true)
    (hacknowledged : ∀ root ∈ next, root.nativeExecutionReference.isSome = true →
      ∃ shown ∈ committed ++ [event],
        names sessionId "native.execution.admitted" root.admissionId shown = true)
    (hended : ∀ root ∈ next, root.phaseStatus.isSome = true → ∃ shown ∈ committed ++ [event],
      names sessionId "native.execution.completed" root.admissionId shown = true) :
    Shown sessionId (committed ++ [event]) next where
  admitted other hmem hsession htype := by
    rcases List.mem_append.mp hmem with hold | hnew
    · rcases h.admitted other hold hsession htype with ⟨root, hroot, hshown⟩
      rcases hkept root hroot with ⟨later, hlater, hext⟩
      exact ⟨later, hlater, hshown.extended hext⟩
    · rw [List.mem_singleton.mp hnew] at hsession htype ⊢
      rcases hadmitted hsession htype with ⟨root, hroot, hshown, -⟩
      exact ⟨root, hroot, hshown⟩
  completed other hmem hsession htype := by
    rcases List.mem_append.mp hmem with hold | hnew
    · rcases h.completed other hold hsession htype with ⟨root, hroot, hshown⟩
      rcases hkept root hroot with ⟨later, hlater, hext⟩
      exact ⟨later, hlater, hshown.extended hext⟩
    · rw [List.mem_singleton.mp hnew] at hsession htype ⊢
      rcases hcompleted hsession htype with ⟨root, hroot, hshown, -⟩
      exact ⟨root, hroot, hshown⟩
  admittedOnce admission := by
    rw [List.filter_append, List.length_append]
    cases hnames : names sessionId "native.execution.admitted" admission event with
    | false =>
      rw [List.filter_singleton, hnames]
      exact h.admittedOnce admission
    | true =>
      have habout := names_iff.mp hnames
      rcases hadmitted habout.1 habout.2.1 with ⟨root, -, hshown, hnone⟩
      rw [hshown.names hnames] at hnone
      rw [hnone, List.filter_singleton, hnames]
      exact Nat.le_refl 1
  completedOnce admission := by
    rw [List.filter_append, List.length_append]
    cases hnames : names sessionId "native.execution.completed" admission event with
    | false =>
      rw [List.filter_singleton, hnames]
      exact h.completedOnce admission
    | true =>
      have habout := names_iff.mp hnames
      rcases hcompleted habout.1 habout.2.1 with ⟨root, -, hshown, hnone, -⟩
      rw [hshown.names hnames] at hnone
      rw [hnone, List.filter_singleton, hnames]
      exact Nat.le_refl 1
  ordered := by
    refine throughout_concat.mpr ⟨h.ordered, fun admission hnames => ?_⟩
    have habout := names_iff.mp hnames
    rcases hcompleted habout.1 habout.2.1 with ⟨root, -, hshown, -, hearlier⟩
    rwa [hshown.names hnames] at hearlier
  acknowledged := hacknowledged
  ended := hended

theorem Shown.records (h : Shown sessionId committed roots) {next : List RootExecution}
    (hkept : ∀ root ∈ roots, ∃ later ∈ next, RootExecution.ExtendedBy root later)
    (hold : ∀ root ∈ next, root ∈ roots ∨
      root.nativeExecutionReference = none ∧ root.phaseStatus = none) :
    Shown sessionId committed next where
  admitted event hmem hsession htype := by
    rcases h.admitted event hmem hsession htype with ⟨root, hroot, hshown⟩
    rcases hkept root hroot with ⟨later, hlater, hext⟩
    exact ⟨later, hlater, hshown.extended hext⟩
  completed event hmem hsession htype := by
    rcases h.completed event hmem hsession htype with ⟨root, hroot, hshown⟩
    rcases hkept root hroot with ⟨later, hlater, hext⟩
    exact ⟨later, hlater, hshown.extended hext⟩
  admittedOnce := h.admittedOnce
  completedOnce := h.completedOnce
  ordered := h.ordered
  acknowledged root hmem hsome := by
    rcases hold root hmem with hroot | ⟨hnone, -⟩
    · exact h.acknowledged root hroot hsome
    · rw [hnone] at hsome
      cases hsome
  ended root hmem hsome := by
    rcases hold root hmem with hroot | ⟨-, hnone⟩
    · exact h.ended root hroot hsome
    · rw [hnone] at hsome
      cases hsome

theorem Shown.append (h : Shown sessionId committed roots) {events : List HarnessEvent}
    (hevents : ∀ event ∈ events, event.sessionId = sessionId →
      event.eventType ≠ "native.execution.admitted" ∧
        event.eventType ≠ "native.execution.completed") :
    Shown sessionId (committed ++ events) roots := by
  induction events generalizing committed with
  | nil =>
    rw [List.append_nil]
    exact h
  | cons event rest ih =>
    rw [List.append_cons]
    apply ih
    · have hevent := hevents event List.mem_cons_self
      apply h.concat fun root hmem => ⟨root, hmem, .refl root⟩
      · exact fun hsession htype => absurd htype (hevent hsession).1
      · exact fun hsession htype => absurd htype (hevent hsession).2
      · intro root hmem hsome
        rcases h.acknowledged root hmem hsome with ⟨shown, hshown, hnames⟩
        exact ⟨shown, List.mem_append_left _ hshown, hnames⟩
      · intro root hmem hsome
        rcases h.ended root hmem hsome with ⟨shown, hshown, hnames⟩
        exact ⟨shown, List.mem_append_left _ hshown, hnames⟩
    · exact fun other hmem => hevents other (List.mem_cons_of_mem event hmem)

end Log

/-! ## Acknowledgements and outcomes -/

section Records

variable {sessionId : String} {committed : List HarnessEvent} {ledger : NativeWorkState}
  {retained : RootExecution} {event : HarnessEvent}

theorem mem_updateRoot {change : RootExecution → RootExecution}
    (hmem : retained ∈ ledger.rootExecutions) : change retained ∈
      (NativeWorkState.updateRoot retained.admissionId change ledger).rootExecutions :=
  List.mem_map.mpr ⟨retained, hmem, if_pos rfl⟩

theorem Shown.acknowledge (h : Shown sessionId committed ledger.rootExecutions)
    (hunique : uniqueBy RootExecution.admissionId ledger.rootExecutions = true)
    (hmem : retained ∈ ledger.rootExecutions) (hnone : retained.nativeExecutionReference = none)
    {execution : String} (hsession : event.sessionId = sessionId)
    (htype : event.eventType = "native.execution.admitted")
    (hturn : event.turnId = some retained.originTurnId)
    (hdata : event.data = admittedData retained.admissionId retained.nativeReference execution
      retained.goalAdmissionId)
    (hkept : NativeWorkState.KeptBy ledger
      (NativeWorkState.acknowledge retained.admissionId execution ledger)) :
    Shown sessionId (committed ++ [event])
      (NativeWorkState.acknowledge retained.admissionId execution ledger).rootExecutions := by
  have hnames : names sessionId "native.execution.admitted" retained.admissionId event = true := by
    refine names_iff.mpr ⟨hsession, htype, ?_⟩
    rw [hdata]
    rfl
  apply h.concat hkept.roots
  · intro _ _
    have hfresh := h.unacknowledged hunique hmem hnone
    exact ⟨_, mem_updateRoot hmem, ⟨hturn, execution, rfl, hdata⟩, hfresh⟩
  · intro _ hother
    rw [htype] at hother
    exact absurd hother (by decide)
  · intro root hroot hsome
    rcases List.mem_map.mp hroot with ⟨old, hold, rfl⟩
    by_cases heq : old.admissionId = retained.admissionId
    · rw [if_pos heq]
      refine ⟨event, by simp, ?_⟩
      dsimp only
      rw [heq]
      exact hnames
    · rw [if_neg heq] at hsome ⊢
      rcases h.acknowledged old hold hsome with ⟨shown, hshown, hnamed⟩
      exact ⟨shown, List.mem_append_left _ hshown, hnamed⟩
  · intro root hroot hsome
    rcases List.mem_map.mp hroot with ⟨old, hold, rfl⟩
    have hended : old.phaseStatus.isSome = true → ∃ shown ∈ committed ++ [event],
        names sessionId "native.execution.completed" old.admissionId shown = true := by
      intro hsome
      rcases h.ended old hold hsome with ⟨shown, hshown, hnamed⟩
      exact ⟨shown, List.mem_append_left _ hshown, hnamed⟩
    by_cases heq : old.admissionId = retained.admissionId
    · rw [if_pos heq] at hsome ⊢
      exact hended hsome
    · rw [if_neg heq] at hsome ⊢
      exact hended hsome

theorem Shown.complete (h : Shown sessionId committed ledger.rootExecutions)
    (hunique : uniqueBy RootExecution.admissionId ledger.rootExecutions = true)
    (hmem : retained ∈ ledger.rootExecutions) (hnone : retained.phaseStatus = none)
    {execution : String} (hexecution : retained.nativeExecutionReference = some execution)
    {status : TerminalStatus} {output : Option Json} (hsession : event.sessionId = sessionId)
    (htype : event.eventType = "native.execution.completed")
    (hturn : event.turnId = some retained.originTurnId)
    (hdata : event.data = completedData retained.admissionId retained.nativeReference execution
      status retained.goalAdmissionId output)
    (hkept : NativeWorkState.KeptBy ledger
      (NativeWorkState.conclude retained.admissionId status ledger)) :
    Shown sessionId (committed ++ [event])
      (NativeWorkState.conclude retained.admissionId status ledger).rootExecutions := by
  have hnames : names sessionId "native.execution.completed" retained.admissionId event = true := by
    refine names_iff.mpr ⟨hsession, htype, ?_⟩
    rw [hdata]
    rfl
  apply h.concat hkept.roots
  · intro _ hother
    rw [htype] at hother
    exact absurd hother (by decide)
  · intro _ _
    have hfresh := h.unended hunique hmem hnone
    have hearlier := h.acknowledged retained hmem (by rw [hexecution]; rfl)
    exact ⟨_, mem_updateRoot hmem, ⟨hturn, execution, status, output, hexecution, rfl, hdata⟩,
      hfresh, hearlier⟩
  · intro root hroot hsome
    rcases List.mem_map.mp hroot with ⟨old, hold, rfl⟩
    have hacknowledged : old.nativeExecutionReference.isSome = true →
        ∃ shown ∈ committed ++ [event],
          names sessionId "native.execution.admitted" old.admissionId shown = true := by
      intro hsome
      rcases h.acknowledged old hold hsome with ⟨shown, hshown, hnamed⟩
      exact ⟨shown, List.mem_append_left _ hshown, hnamed⟩
    by_cases heq : old.admissionId = retained.admissionId
    · rw [if_pos heq] at hsome ⊢
      exact hacknowledged hsome
    · rw [if_neg heq] at hsome ⊢
      exact hacknowledged hsome
  · intro root hroot hsome
    rcases List.mem_map.mp hroot with ⟨old, hold, rfl⟩
    by_cases heq : old.admissionId = retained.admissionId
    · rw [if_pos heq]
      refine ⟨event, by simp, ?_⟩
      dsimp only
      rw [heq]
      exact hnames
    · rw [if_neg heq] at hsome ⊢
      rcases h.ended old hold hsome with ⟨shown, hshown, hnamed⟩
      exact ⟨shown, List.mem_append_left _ hshown, hnamed⟩

end Records

/-! ## What is promised -/

/-- An execution or a goal of the admission is unresolved. -/
def NativeWorkState.unsettled (admission : String) (ledger : NativeWorkState) : Bool :=
  (ledger.rootExecutions.any fun root =>
    root.admissionId == admission && RootExecution.unresolved root) ||
  ledger.goals.any fun goal => goal.admissionId == admission && GoalAdmission.unresolved goal

/-- What was begun has its record in the ledger. -/
structure NativeWorkState.Holds (ledger : NativeWorkState) (begun : List RootExecution)
    (begunGoals : List GoalAdmission) : Prop where
  executions : ∀ record ∈ begun, ∃ root ∈ ledger.rootExecutions,
    RootExecution.ExtendedBy record root
  goals : ∀ record ∈ begunGoals, ∃ goal ∈ ledger.goals, GoalAdmission.ExtendedBy record goal

namespace ExecutionHost

/-- The stored ledger has one record of everything that was begun, and the log shows it. -/
structure Recorded (sessionId : String) (host : ExecutionHost) (ledger : NativeWorkState) :
    Prop where
  stored : host.ledger? sessionId = some ledger
  last : host.ledgers.getLast? = some ledger
  unique : uniqueBy RootExecution.admissionId ledger.rootExecutions = true
  uniqueGoals : uniqueBy GoalAdmission.admissionId ledger.goals = true
  begun : NativeWorkState.Holds ledger host.begun host.begunGoals
  shown : Shown sessionId host.run.committed ledger.rootExecutions

/-- Every version of the ledger is kept by the later ones, the last one is recorded, and every turn
was dispatched on a resolved ledger. -/
structure Lawful (sessionId : String) (host : ExecutionHost) : Prop where
  kept : host.ledgers.Pairwise NativeWorkState.KeptBy
  recorded : ∃ ledger, host.Recorded sessionId ledger
  resolved : ∀ resolved ∈ host.dispatches, resolved = true

/-- The ledger has an acknowledgement that the table of the turn has not. -/
def repeatsAcknowledgement (sessionId : String) (i : Nat) (admission : String)
    (host : ExecutionHost) : Bool :=
  ((host.turns[i]?.bind fun turn => turn.admissions.get? admission).any fun pending =>
    pending.execution.isNone) &&
  ((host.ledger? sessionId).bind fun ledger => NativeWorkState.root? ledger admission).any
    fun root => root.nativeExecutionReference.isSome

/-- No acknowledgement is repeated after its delivery has failed or while it goes on, and what was
begun or confirmed after the check of a turn is settled at its dispatch. -/
def careful (sessionId : String) (host : ExecutionHost) : ExecutionAction → Bool
  | .confirmNativeExecution _ i admission _ =>
    !(host.repeatsAcknowledgement sessionId i admission)
  | .dispatch i => (host.ready? i).all fun entrant => entrant.late.all fun admission =>
    !((host.ledger? sessionId).any fun ledger => NativeWorkState.unsettled admission ledger)
  | _ => true

/-- A session whose ledger an earlier run of the process may have left. -/
def opened (run : StoreRun) (owner : SessionOwner) (ledger : NativeWorkState) : ExecutionHost where
  run
  owners := [owner]
  live := some 0
  running := none
  turnIds := []
  entrants := []
  turns := []
  ledgers := [ledger]
  begun := []
  begunGoals := []
  dispatches := []

end ExecutionHost

/-! ## Unsettled admissions -/

section Unsettled

variable {ledger : NativeWorkState} {admission other : String}

theorem unsettled_iff : NativeWorkState.unsettled admission ledger = true ↔
    (∃ root ∈ ledger.rootExecutions, root.admissionId = admission ∧
      RootExecution.unresolved root = true) ∨
    ∃ goal ∈ ledger.goals, goal.admissionId = admission ∧
      GoalAdmission.unresolved goal = true := by
  unfold NativeWorkState.unsettled
  simp only [Bool.or_eq_true, List.any_eq_true, Bool.and_eq_true, beq_iff_eq]

theorem unresolved_iff : unresolvedNativeAdmissions (some ledger) = true ↔
    ∃ admission, NativeWorkState.unsettled admission ledger = true := by
  unfold unresolvedNativeAdmissions
  simp only [Option.any_some, Bool.or_eq_true, List.any_eq_true, unsettled_iff]
  constructor
  · rintro (⟨root, hmem, h⟩ | ⟨goal, hmem, h⟩)
    · exact ⟨root.admissionId, Or.inl ⟨root, hmem, rfl, h⟩⟩
    · exact ⟨goal.admissionId, Or.inr ⟨goal, hmem, rfl, h⟩⟩
  · rintro ⟨admission, ⟨root, hmem, -, h⟩ | ⟨goal, hmem, -, h⟩⟩
    · exact Or.inl ⟨root, hmem, h⟩
    · exact Or.inr ⟨goal, hmem, h⟩

theorem unsettled_begun {record : RootExecution}
    (h : NativeWorkState.unsettled other
      { ledger with rootExecutions := ledger.rootExecutions ++ [record] } = true) :
    other = record.admissionId ∨ NativeWorkState.unsettled other ledger = true := by
  rcases unsettled_iff.mp h with ⟨root, hmem, hid, hopen⟩ | hgoal
  · rcases List.mem_append.mp hmem with hold | hnew
    · exact Or.inr (unsettled_iff.mpr (Or.inl ⟨root, hold, hid, hopen⟩))
    · rw [List.mem_singleton.mp hnew] at hid
      exact Or.inl hid.symm
  · exact Or.inr (unsettled_iff.mpr (Or.inr hgoal))

theorem unsettled_goalBegun {goal : GoalAdmission}
    (h : NativeWorkState.unsettled other
      { ledger with goals := ledger.goals ++ [goal] } = true) :
    other = goal.admissionId ∨ NativeWorkState.unsettled other ledger = true := by
  rcases unsettled_iff.mp h with hroot | ⟨found, hmem, hid, hopen⟩
  · exact Or.inr (unsettled_iff.mpr (Or.inl hroot))
  · rcases List.mem_append.mp hmem with hold | hnew
    · exact Or.inr (unsettled_iff.mpr (Or.inr ⟨found, hold, hid, hopen⟩))
    · rw [List.mem_singleton.mp hnew] at hid
      exact Or.inl hid.symm

theorem unsettled_confirmGoal {goal : GoalRecord}
    (h : NativeWorkState.unsettled other (NativeWorkState.confirmGoal goal ledger) = true) :
    other = goal.admissionId ∨ NativeWorkState.unsettled other ledger = true := by
  rcases unsettled_iff.mp h with hroot | ⟨found, hmem, hid, hopen⟩
  · exact Or.inr (unsettled_iff.mpr (Or.inl hroot))
  · rcases List.mem_map.mp hmem with ⟨before, hbefore, rfl⟩
    by_cases heq : before.admissionId = goal.admissionId
    · rw [if_pos heq] at hid
      exact Or.inl (hid.symm.trans heq)
    · rw [if_neg heq] at hid hopen
      exact Or.inr (unsettled_iff.mpr (Or.inr ⟨before, hbefore, hid, hopen⟩))

theorem unsettled_updateRoot {change : RootExecution → RootExecution}
    (hchange : ∀ root, (change root).admissionId = root.admissionId)
    (hresolves : ∀ root, RootExecution.unresolved (change root) = true →
      RootExecution.unresolved root = true)
    (h : NativeWorkState.unsettled other
      (NativeWorkState.updateRoot admission change ledger) = true) :
    NativeWorkState.unsettled other ledger = true := by
  rcases unsettled_iff.mp h with ⟨found, hmem, hid, hopen⟩ | hgoal
  · rcases List.mem_map.mp hmem with ⟨root, hroot, rfl⟩
    by_cases heq : root.admissionId = admission
    · rw [if_pos heq, hchange] at hid
      rw [if_pos heq] at hopen
      exact unsettled_iff.mpr (Or.inl ⟨root, hroot, hid, hresolves root hopen⟩)
    · rw [if_neg heq] at hid hopen
      exact unsettled_iff.mpr (Or.inl ⟨root, hroot, hid, hopen⟩)
  · exact unsettled_iff.mpr (Or.inr hgoal)

theorem unsettled_acknowledge {execution : String}
    (h : NativeWorkState.unsettled other
      (NativeWorkState.acknowledge admission execution ledger) = true) :
    NativeWorkState.unsettled other ledger = true := by
  unfold NativeWorkState.acknowledge at h
  refine unsettled_updateRoot ?_ ?_ h
  · exact fun _ => rfl
  intro root hopen
  unfold RootExecution.unresolved at hopen ⊢
  rw [Bool.or_eq_true] at hopen ⊢
  rcases hopen with hnone | hproof
  · cases hnone
  · exact Or.inr hproof

theorem unsettled_conclude {status : TerminalStatus}
    (h : NativeWorkState.unsettled other
      (NativeWorkState.conclude admission status ledger) = true) :
    NativeWorkState.unsettled other ledger = true := by
  unfold NativeWorkState.conclude at h
  refine unsettled_updateRoot ?_ ?_ h
  · exact fun _ => rfl
  intro root hopen
  unfold RootExecution.unresolved at hopen ⊢
  rw [Bool.or_eq_true] at hopen ⊢
  rcases hopen with hnone | hproof
  · exact Or.inl hnone
  · rw [Bool.and_eq_true] at hproof
    cases hproof.2

end Unsettled

/-! ## Callbacks that are let through -/

section Inversion

variable {manager : Manager} {turn : TurnCallbacks} {owner : SessionOwner} {live : Bool}
  {ledger : Option NativeWorkState}

theorem TurnCallbacks.beginGoal_ok {nativeReference : String} {requested : GoalRequest}
    {resume : Option GoalObservation} {admission : String} {state : NativeWorkState}
    {record : GoalAdmission}
    (h : turn.beginGoal manager owner live ledger nativeReference requested resume admission =
      .ok (state, record)) : ledger = some state ∧ record.admissionId = admission := by
  unfold TurnCallbacks.beginGoal at h
  split at h
  · cases h
  · split at h
    · cases h
    · split at h
      · cases h
      · split at h
        · cases h
        · split at h
          · cases h
          · split at h
            · cases h
            · split at h
              · cases h
              · split at h
                · cases h
                · cases h
                  exact ⟨rfl, rfl⟩

theorem TurnCallbacks.confirmGoal_ok {goal : GoalRecord} {state : NativeWorkState}
    (h : turn.confirmGoal manager owner live ledger goal = .ok (some state)) :
    ∃ old, ledger = some old ∧ state = NativeWorkState.confirmGoal goal old := by
  unfold TurnCallbacks.confirmGoal at h
  dsimp only at h
  split at h
  · cases h
  · split at h
    · cases h
    · split at h
      · cases h
      · split at h
        · cases h
        · rename_i old
          split at h
          · cases h
          · split at h
            · cases h
            · split at h
              · cases h
              · cases h
                exact ⟨old, rfl, rfl⟩

theorem TurnCallbacks.beginExecution_ok {nativeReference : String}
    {goalAdmissionId : Option String} {observedGoalPhase : Bool} {admission : String}
    {record : RootExecution}
    (h : turn.beginExecution manager owner live ledger nativeReference goalAdmissionId
      observedGoalPhase admission = .ok record) :
    record.admissionId = admission ∧ record.nativeReference = nativeReference ∧
      record.nativeExecutionReference = none ∧ record.phaseStatus = none := by
  unfold TurnCallbacks.beginExecution at h
  dsimp only at h
  split at h
  · cases h
  · split at h
    · cases h
    · split at h
      · cases h
      · split at h
        · cases h
        · cases h
          exact ⟨rfl, rfl, rfl, rfl⟩

theorem TurnCallbacks.confirmExecution_ok {admission execution : String} {pending : TurnAdmission}
    {old : NativeWorkState} {state : Option NativeWorkState}
    (h : turn.confirmExecution manager owner live (some old) admission execution =
      .ok (some (pending, state))) :
    turn.admissions.get? admission = some pending ∧ pending.execution = none ∧
      ∃ retained, NativeWorkState.root? old admission = some retained ∧
        retained.nativeReference = pending.reference ∧ retained.originTurnId = turn.turnId ∧
        state = some (NativeWorkState.acknowledge admission execution old) := by
  unfold TurnCallbacks.confirmExecution at h
  split at h
  · cases h
  · split at h
    · cases h
    · rename_i found hfound
      split at h
      · cases h
      · rename_i hsame
        split at h
        · cases h
        · rename_i hnew
          split at h
          · cases h
          · dsimp only at h
            split at h
            · rename_i hretained
              cases h
              rcases (Option.any_eq_true _ _).mp hretained with ⟨retained, hroot, hmatches⟩
              simp only [Bool.and_eq_true, beq_iff_eq] at hmatches
              refine ⟨hfound, ?_, retained, hroot, hmatches.1, hmatches.2, rfl⟩
              cases hexecution : pending.execution with
              | none => rfl
              | some known =>
                rw [hexecution] at hsame hnew
                have heq : known = execution := by simpa using hsame
                exact absurd (congrArg some heq) hnew
            · cases h

theorem TurnCallbacks.completeExecution_ok {admission execution : String} {status : TerminalStatus}
    {pending : TurnAdmission} {old : NativeWorkState} {state : Option NativeWorkState}
    (h : turn.completeExecution manager owner live (some old) admission status =
      .ok (some (pending, execution, state))) :
    turn.admissions.get? admission = some pending ∧
      ∃ retained, NativeWorkState.root? old admission = some retained ∧
        retained.nativeExecutionReference = some execution ∧
        retained.originTurnId = turn.turnId ∧ retained.goalAdmissionId = pending.goal ∧
        retained.phaseStatus = none ∧
        state = some (NativeWorkState.conclude admission status old) := by
  unfold TurnCallbacks.completeExecution at h
  split at h
  · cases h
  · rename_i found hfound
    split at h
    · cases h
    · rename_i known hknown
      split at h
      · cases h
      · dsimp only at h
        split at h
        · cases h
        · rename_i retained hroot
          split at h
          · cases h
          · rename_i hcompletes
            split at h
            · cases h
            · rename_i hnew
              cases h
              have hmatches : turn.completes pending status retained = true := by
                simpa using hcompletes
              unfold TurnCallbacks.completes at hmatches
              simp only [Bool.and_eq_true, beq_iff_eq] at hmatches
              rcases hmatches with ⟨⟨⟨hexecution, horigin⟩, hgoal⟩, hstatus⟩
              refine ⟨hfound, retained, hroot, hexecution.trans hknown, horigin, hgoal, ?_, rfl⟩
              cases hphase : retained.phaseStatus with
              | none => rfl
              | some known =>
                rw [hphase] at hstatus hnew
                have heq : known = status := by simpa using hstatus
                exact absurd (congrArg some heq) hnew

end Inversion

/-! ## The invariant -/

theorem NativeWorkState.Holds.kept {ledger next : NativeWorkState} {begun : List RootExecution}
    {begunGoals : List GoalAdmission} (h : NativeWorkState.Holds ledger begun begunGoals)
    (hkept : NativeWorkState.KeptBy ledger next) :
    NativeWorkState.Holds next begun begunGoals where
  executions record hmem := by
    rcases h.executions record hmem with ⟨root, hroot, hext⟩
    rcases hkept.roots root hroot with ⟨later, hlater, hext'⟩
    exact ⟨later, hlater, hext.trans hext'⟩
  goals record hmem := by
    rcases h.goals record hmem with ⟨goal, hgoal, hext⟩
    rcases hkept.goals goal hgoal with ⟨later, hlater, hext'⟩
    exact ⟨later, hlater, hext.trans hext'⟩

/-- Every entry of the table is about a record of the ledger. -/
def TurnCallbacks.BackedBy (turn : TurnCallbacks) (ledger : NativeWorkState) : Prop :=
  ∀ admission pending, turn.admissions.get? admission = some pending →
    ∃ root ∈ ledger.rootExecutions, root.admissionId = admission ∧
      root.nativeReference = pending.reference ∧ root.goalAdmissionId = pending.goal

namespace ExecutionHost

/-- What is unsettled in the ledger has come after the checks of the entrants. -/
def Covered (host : ExecutionHost) (ledger : NativeWorkState) : Prop :=
  ∀ entrant ∈ host.entrants, ∀ admission,
    NativeWorkState.unsettled admission ledger = true → admission ∈ entrant.late

structure Tracks (runtime : Runtime) (sessionId : String) (ledger : NativeWorkState)
    (host : ExecutionHost) : Prop where
  reachable : Reachable runtime host.run.store
  kept : host.ledgers.Pairwise NativeWorkState.KeptBy
  resolved : ∀ resolved ∈ host.dispatches, resolved = true
  stored : host.ledger? sessionId = some ledger
  last : host.ledgers.getLast? = some ledger
  begun : NativeWorkState.Holds ledger host.begun host.begunGoals
  shown : Shown sessionId host.run.committed ledger.rootExecutions
  backed : ∀ turn ∈ host.turns, turn.BackedBy ledger

section Invariant

variable {manager : Manager} {sessionId : String} {host : ExecutionHost}
  {ledger : NativeWorkState}

theorem Tracks.consistent (h : host.Tracks manager.runtime sessionId ledger) :
    WorkConsistent manager.runtime.schemas ledger :=
  h.reachable.sound.memory.work sessionId ledger h.stored

theorem Tracks.unique (h : host.Tracks manager.runtime sessionId ledger) :
    uniqueBy RootExecution.admissionId ledger.rootExecutions = true :=
  (NativeWorkState.valid_unique h.consistent.valid).roots

theorem Tracks.lawful (h : host.Tracks manager.runtime sessionId ledger) :
    host.Lawful sessionId :=
  ⟨h.kept, ⟨ledger, h.stored, h.last, h.unique,
    (NativeWorkState.valid_unique h.consistent.valid).goals, h.begun, h.shown⟩, h.resolved⟩

theorem Tracks.originTurnId (h : host.Tracks manager.runtime sessionId ledger)
    {root : RootExecution} (hmem : root ∈ ledger.rootExecutions) : root.originTurnId ≠ "" := by
  have hvalid := h.consistent.valid
  unfold NativeWorkState.valid at hvalid
  simp only [Bool.and_eq_true] at hvalid
  have hroots := hvalid.1.1.2
  unfold receiptList at hroots
  simp only [Bool.and_eq_true] at hroots
  have hroot := List.all_eq_true.mp hroots.1.2 root hmem
  unfold RootExecution.valid at hroot
  simp only [Bool.and_eq_true] at hroot
  exact fun hempty => key_of_identity hroot.1.1.1.1.2 (Or.inl hempty)

theorem BackedBy.kept {turn : TurnCallbacks} {next : NativeWorkState}
    (h : turn.BackedBy ledger) (hkept : NativeWorkState.KeptBy ledger next) :
    turn.BackedBy next := by
  intro admission pending hpending
  rcases h admission pending hpending with ⟨root, hroot, hid, hreference, hgoal⟩
  rcases hkept.roots root hroot with ⟨later, hlater, hext⟩
  exact ⟨later, hlater, hext.admissionId.trans hid, hext.nativeReference.trans hreference,
    hext.goalAdmissionId.trans hgoal⟩

theorem Tracks.retained (h : host.Tracks manager.runtime sessionId ledger) {turn : TurnCallbacks}
    (hturn : turn ∈ host.turns) {admission : String} {pending : TurnAdmission}
    (hpending : turn.admissions.get? admission = some pending) {retained : RootExecution}
    (hfound : NativeWorkState.root? ledger admission = some retained) :
    retained ∈ ledger.rootExecutions ∧ retained.admissionId = admission ∧
      retained.nativeReference = pending.reference ∧ retained.goalAdmissionId = pending.goal := by
  rcases h.backed turn hturn admission pending hpending with ⟨root, hroot, hid, hsame⟩
  have hsole := find?_of_unique h.unique hroot hid
  unfold NativeWorkState.root? at hfound
  rw [hsole] at hfound
  cases hfound
  exact ⟨hroot, hid, hsame⟩

/-! ### Calls of the store -/

theorem Tracks.call (h : host.Tracks manager.runtime sessionId ledger) {moment : Moment}
    {action : StoreAction} {next : NativeWorkState}
    (hnext : (host.run.store.perform manager.runtime moment action).state.data.nativeWork.get?
      sessionId = some next)
    (hkept : NativeWorkState.KeptBy ledger next)
    (hshown : Shown sessionId (host.run.step manager.runtime (.call moment action)).committed
      next.rootExecutions) :
    (host.call manager sessionId moment action).1.Tracks manager.runtime sessionId next where
  reachable := h.reachable.perform moment action
  kept := by
    unfold ExecutionHost.call
    dsimp only
    split
    · exact h.kept
    · rw [hnext]
      refine List.pairwise_append.mpr ⟨h.kept, List.pairwise_singleton _ _, ?_⟩
      intro version hmem other hother
      rw [List.mem_singleton.mp hother]
      rcases List.mem_append.mp (List.dropLast_append_getLast? ledger h.last ▸ hmem) with
        hearlier | hlast
      · have hpairs := h.kept
        rw [← List.dropLast_append_getLast? ledger h.last] at hpairs
        exact ((List.pairwise_append.mp hpairs).2.2 version hearlier ledger
          (List.mem_singleton_self ledger)).trans hkept
      · rw [List.mem_singleton.mp hlast]
        exact hkept
  resolved := h.resolved
  stored := hnext
  last := by
    unfold ExecutionHost.call
    dsimp only
    split
    · rename_i hsame
      rw [h.last, ← h.stored, ← hsame, hnext]
    · rw [hnext]
      exact List.getLast?_concat
  begun := h.begun.kept hkept
  shown := hshown
  backed turn hmem := BackedBy.kept (h.backed turn hmem) hkept

theorem Tracks.unrelated (h : host.Tracks manager.runtime sessionId ledger) {moment : Moment}
    {action : StoreAction} (hunrelated : host.unrelated manager sessionId moment action = true) :
    ∃ next : NativeWorkState, next.rootExecutions = ledger.rootExecutions ∧
      next.goals = ledger.goals ∧
      (host.call manager sessionId moment action).1.Tracks manager.runtime sessionId next := by
  unfold ExecutionHost.unrelated at hunrelated
  rw [h.stored] at hunrelated
  dsimp only at hunrelated
  simp only [Bool.and_eq_true, beq_iff_eq, Option.isSome_some, Option.elim_some,
    List.all_eq_true, Bool.or_eq_true, bne_iff_ne] at hunrelated
  rcases hunrelated with ⟨⟨⟨hsome, hroots⟩, hgoals⟩, hevents⟩
  rcases Option.isSome_iff_exists.mp hsome with ⟨next, hnext⟩
  rw [hnext] at hroots hgoals
  refine ⟨next, hroots, hgoals, h.call hnext ⟨?_, ?_⟩ ?_⟩
  · intro root hmem
    exact ⟨root, by rwa [← hroots] at hmem, .refl root⟩
  · intro goal hmem
    exact ⟨goal, by rwa [← hgoals] at hmem, .refl goal⟩
  · rw [show next.rootExecutions = ledger.rootExecutions from hroots]
    unfold StoreRun.step
    dsimp only
    split
    · apply h.shown.append
      intro event hmem hsession
      rcases hevents event hmem with hother | hquiet
      · exact absurd hsession hother
      · exact hquiet
    · exact h.shown

theorem Tracks.save (h : host.Tracks manager.runtime sessionId ledger) {moment : Moment}
    {input : NativeWorkState} {event : Option HarnessEvent}
    (hshown : NativeWorkState.KeptBy ledger input →
      Shown sessionId (host.run.committed ++ event.toList) input.rootExecutions) :
    let called := host.call manager sessionId moment (.saveNativeWorkState sessionId input event)
    (∃ failure, called.2 = some failure) ∧
        called.1.Tracks manager.runtime sessionId ledger ∨
      called.2 = none ∧ NativeWorkState.KeptBy ledger input.kept ∧
        called.1.Tracks manager.runtime sessionId input.kept := by
  have hrecords : RecordsAfter manager.runtime moment host.run.store
      (.saveNativeWorkState sessionId input event) _ :=
    host.run.store.saveNativeWorkState_records sessionId input event
  dsimp only
  cases hfailure : (host.run.store.saveNativeWorkState manager.runtime moment sessionId input
      event).failure with
  | some failure =>
    left
    rcases hrecords with ⟨hsame, -⟩ | ⟨hreturned, -⟩
    · refine ⟨⟨.store failure, congrArg (Option.map OperationFailure.store) hfailure⟩, ?_⟩
      have hnext : (host.run.store.perform manager.runtime moment (.saveNativeWorkState
          sessionId input event)).state.data.nativeWork.get? sessionId = some ledger :=
        (hsame.work sessionId).trans h.stored
      apply h.call hnext (.refl ledger)
      unfold StoreRun.step
      dsimp only
      rw [if_neg]
      · exact h.shown
      · intro hreturned
        have hnone := Option.isNone_iff_eq_none.mp hreturned
        rw [show (host.run.store.perform manager.runtime moment
          (.saveNativeWorkState sessionId input event)).failure = some failure from hfailure]
          at hnone
        cases hnone
    · rw [hfailure] at hreturned
      cases hreturned
  | none =>
    right
    rcases RunnerStore.saveNativeWorkState_saved hfailure with ⟨hadmitted, hsaved⟩
    rw [show host.run.store.data.nativeWork.get? sessionId = some ledger from h.stored]
      at hadmitted
    have hkept := NativeWorkState.KeptBy.of_admitted hadmitted
    have hinput : NativeWorkState.KeptBy ledger input := ⟨hkept.roots, hkept.goals⟩
    refine ⟨congrArg (Option.map OperationFailure.store) hfailure, hkept, ?_⟩
    apply h.call _ hkept
    · unfold StoreRun.step
      dsimp only
      rw [if_pos]
      · exact hshown hinput
      · exact Option.isNone_iff_eq_none.mpr hfailure
    · change (RunnerStore.saveNativeWorkState _ _ _ _ _ _).state.data.nativeWork.get? _ = _
      rw [hsaved, Dict.get?_set_self]


theorem Tracks.commit (h : host.Tracks manager.runtime sessionId ledger) {occasion : Occasion}
    {turnId eventType : String} {data : Json} {input : NativeWorkState}
    (hshown : NativeWorkState.KeptBy ledger input → Shown sessionId (host.run.committed ++
      [nextEvent host.run.store occasion.moment.now sessionId (some turnId) eventType data])
        input.rootExecutions) :
    let called := host.commit manager sessionId occasion turnId eventType data (some input)
    (∀ version, host.Covered version → called.1.Covered version) ∧
      ((∃ failure, called.2 = some failure) ∧
          called.1.Tracks manager.runtime sessionId ledger ∨
        called.2 = none ∧ NativeWorkState.KeptBy ledger input.kept ∧
          called.1.Tracks manager.runtime sessionId input.kept) := by
  unfold ExecutionHost.commit
  dsimp only
  split
  · exact ⟨fun _ hcovered => hcovered, Or.inl ⟨⟨_, rfl⟩, h⟩⟩
  · exact ⟨fun _ hcovered => hcovered, h.save hshown⟩

/-! ### Callbacks -/

theorem Tracks.setTurn (h : host.Tracks manager.runtime sessionId ledger) {i : Nat}
    {turn : TurnCallbacks} (hbacked : turn.BackedBy ledger) :
    (host.setTurn i turn).Tracks manager.runtime sessionId ledger := by
  refine ⟨h.reachable, h.kept, h.resolved, h.stored, h.last, h.begun, h.shown, ?_⟩
  intro other hmem
  rcases List.mem_or_eq_of_mem_set hmem with hold | rfl
  · exact h.backed other hold
  · exact hbacked

theorem Tracks.arrive (h : host.Tracks manager.runtime sessionId ledger) (admission : String) :
    (host.arrive admission).Tracks manager.runtime sessionId ledger :=
  ⟨h.reachable, h.kept, h.resolved, h.stored, h.last, h.begun, h.shown, h.backed⟩

theorem Covered.arrive (h : host.Covered ledger) {admission : String} {next : NativeWorkState}
    (hnext : ∀ other, NativeWorkState.unsettled other next = true →
      other = admission ∨ NativeWorkState.unsettled other ledger = true) :
    (host.arrive admission).Covered next := by
  intro entrant hmem other hopen
  rcases List.mem_map.mp hmem with ⟨before, hbefore, rfl⟩
  rcases hnext other hopen with rfl | hold
  · exact List.mem_append_right _ (List.mem_singleton_self other)
  · exact List.mem_append_left _ (h before hbefore other hold)

theorem Covered.settle (h : host.Covered ledger) {next : NativeWorkState}
    (hnext : ∀ other, NativeWorkState.unsettled other next = true →
      NativeWorkState.unsettled other ledger = true) : host.Covered next :=
  fun entrant hmem other hopen => h entrant hmem other (hnext other hopen)

/-- The stored ledger is tracked, and the entrants know what is unsettled in it. -/
def Sound (runtime : Runtime) (sessionId : String) (host : ExecutionHost) : Prop :=
  ∃ ledger, host.Tracks runtime sessionId ledger ∧ host.Covered ledger

theorem nextEvent_turnId {store : RunnerStore} {now : Int} {turnId eventType : String}
    {data : Json} (h : turnId ≠ "") :
    (nextEvent store now sessionId (some turnId) eventType data).turnId = some turnId := by
  simp [nextEvent, h]

variable {turn : TurnCallbacks} {owner : SessionOwner} {i : Nat}

theorem Sound.beginNativeGoal (h : host.Sound manager.runtime sessionId)
    (hturn : turn ∈ host.turns) (moment : Moment) (nativeReference : String)
    (requested : GoalRequest) (resume : Option GoalObservation) (admission : String) :
    (host.beginNativeGoal manager sessionId moment i turn owner nativeReference requested resume
      admission).1.Sound manager.runtime sessionId := by
  rcases h with ⟨ledger, h, hcovered⟩
  unfold ExecutionHost.beginNativeGoal
  rw [h.stored]
  cases hbegun : turn.beginGoal manager owner (host.isLive turn) (some ledger) nativeReference
      requested resume admission with
  | error failure => exact ⟨ledger, h, hcovered⟩
  | ok result =>
    rcases result with ⟨state, record⟩
    rcases TurnCallbacks.beginGoal_ok hbegun with ⟨hstate, hid⟩
    cases hstate
    dsimp only
    have hmem : record ∈ ledger.goals ++ [record] :=
      List.mem_append_right _ (List.mem_singleton_self record)
    have hshown : NativeWorkState.KeptBy ledger
        { ledger with goals := ledger.goals ++ [record] } →
        Shown sessionId (host.run.committed ++ (none : Option HarnessEvent).toList)
          ledger.rootExecutions := by
      intro _
      rw [Option.toList_none, List.append_nil]
      exact h.shown
    rcases h.save hshown with ⟨⟨failure, hfailed⟩, hsame⟩ | ⟨hnone, hkept, hsaved⟩
    · rw [hfailed]
      exact ⟨ledger, hsame, hcovered⟩
    · rw [hnone]
      have hbacked : TurnCallbacks.BackedBy
          { turn with goals := turn.goals ++ [admission] }
          ({ ledger with goals := ledger.goals ++ [record] } : NativeWorkState).kept :=
        BackedBy.kept (h.backed turn hturn) hkept
      have hnext := (hsaved.setTurn (i := i) hbacked).arrive admission
      refine ⟨_, ⟨hnext.reachable, hnext.kept, hnext.resolved, hnext.stored, hnext.last,
        ⟨hnext.begun.executions, ?_⟩, hnext.shown, hnext.backed⟩, ?_⟩
      · intro begun hbegun
        rcases List.mem_append.mp hbegun with hold | hnew
        · exact hnext.begun.goals begun hold
        · rw [List.mem_singleton.mp hnew]
          exact ⟨record, hmem, .refl record⟩
      · have harrived : (host.arrive admission).Covered
            { ledger with goals := ledger.goals ++ [record] } := by
          apply Covered.arrive hcovered
          intro other hopen
          rw [← hid]
          exact unsettled_goalBegun hopen
        exact harrived

theorem Sound.confirmNativeGoal (h : host.Sound manager.runtime sessionId) (occasion : Occasion)
    (goal : GoalRecord) :
    (host.confirmNativeGoal manager sessionId occasion turn owner goal).1.Sound manager.runtime
      sessionId := by
  rcases h with ⟨ledger, h, hcovered⟩
  unfold ExecutionHost.confirmNativeGoal
  rw [h.stored]
  cases hconfirmed : turn.confirmGoal manager owner (host.isLive turn) (some ledger) goal with
  | error failure => exact ⟨ledger, h, hcovered⟩
  | ok result =>
    cases result with
    | none => exact ⟨ledger, h, hcovered⟩
    | some state =>
      rcases TurnCallbacks.confirmGoal_ok hconfirmed with ⟨old, hold, rfl⟩
      cases hold
      dsimp only
      have hshown : NativeWorkState.KeptBy ledger (NativeWorkState.confirmGoal goal ledger) →
          Shown sessionId (host.run.committed ++ [nextEvent host.run.store
            occasion.moment.now sessionId (some turn.turnId) "native.goal.updated"
            (GoalRecord.toJson goal)]) ledger.rootExecutions := by
        intro _
        apply h.shown.append
        intro event hmem _
        rw [List.mem_singleton.mp hmem]
        show "native.goal.updated" ≠ "native.execution.admitted" ∧
          "native.goal.updated" ≠ "native.execution.completed"
        decide
      rcases h.commit hshown with ⟨hsame, ⟨⟨failure, hfailed⟩, hold⟩ | ⟨hnone, -, hsaved⟩⟩
      · rw [hfailed]
        exact ⟨ledger, hold, hsame ledger hcovered⟩
      · rw [hnone]
        refine ⟨_, hsaved.arrive goal.admissionId, Covered.arrive (hsame ledger hcovered) ?_⟩
        exact fun other hopen => unsettled_confirmGoal hopen

theorem Sound.beginNativeExecution (h : host.Sound manager.runtime sessionId)
    (hturn : turn ∈ host.turns) (moment : Moment) (nativeReference : String)
    (goalAdmissionId : Option String) (observedGoalPhase : Bool) (admission : String) :
    (host.beginNativeExecution manager sessionId moment i turn owner nativeReference
      goalAdmissionId observedGoalPhase admission).1.Sound manager.runtime sessionId := by
  rcases h with ⟨ledger, h, hcovered⟩
  unfold ExecutionHost.beginNativeExecution
  rw [h.stored]
  cases hbegun : turn.beginExecution manager owner (host.isLive turn) (some ledger)
      nativeReference goalAdmissionId observedGoalPhase admission with
  | error failure => exact ⟨ledger, h, hcovered⟩
  | ok record =>
    rcases TurnCallbacks.beginExecution_ok hbegun with
      ⟨hid, hreference, hexecution, hstatus⟩
    dsimp only
    have hmem : record ∈ ledger.rootExecutions ++ [record] :=
      List.mem_append_right _ (List.mem_singleton_self record)
    have hshown : NativeWorkState.KeptBy ledger
        { ledger with rootExecutions := ledger.rootExecutions ++ [record] } →
        Shown sessionId (host.run.committed ++ (none : Option HarnessEvent).toList)
          (ledger.rootExecutions ++ [record]) := by
      intro hkept
      rw [Option.toList_none, List.append_nil]
      apply h.shown.records hkept.roots
      intro root hroot
      rcases List.mem_append.mp hroot with hold | hnew
      · exact Or.inl hold
      · rw [List.mem_singleton.mp hnew]
        exact Or.inr ⟨hexecution, hstatus⟩
    rcases h.save hshown with ⟨⟨failure, hfailed⟩, hsame⟩ | ⟨hnone, hkept, hsaved⟩
    · rw [hfailed]
      exact ⟨ledger, hsame, hcovered⟩
    · rw [hnone]
      have hbacked : TurnCallbacks.BackedBy { turn with
          admissions := turn.admissions.set admission
            ⟨nativeReference, none, record.goalAdmissionId⟩ }
          ({ ledger with rootExecutions := ledger.rootExecutions ++ [record] } :
            NativeWorkState).kept := by
        intro other pending hpending
        rw [Dict.get?_set] at hpending
        split at hpending
        · rename_i hsame
          cases hpending
          exact ⟨record, hmem, hid.trans hsame.symm, hreference, rfl⟩
        · exact BackedBy.kept (h.backed turn hturn) hkept other pending hpending
      have hnext := (hsaved.setTurn (i := i) hbacked).arrive admission
      refine ⟨_, ⟨hnext.reachable, hnext.kept, hnext.resolved, hnext.stored, hnext.last,
        ⟨?_, hnext.begun.goals⟩, hnext.shown, hnext.backed⟩, ?_⟩
      · intro begun hbegun
        rcases List.mem_append.mp hbegun with hold | hnew
        · exact hnext.begun.executions begun hold
        · rw [List.mem_singleton.mp hnew]
          exact ⟨record, hmem, .refl record⟩
      · have harrived : (host.arrive admission).Covered
            { ledger with rootExecutions := ledger.rootExecutions ++ [record] } := by
          apply Covered.arrive hcovered
          intro other hopen
          rw [← hid]
          exact unsettled_begun hopen
        exact harrived

theorem Sound.confirmNativeExecution (h : host.Sound manager.runtime sessionId)
    (hturn : host.turns[i]? = some turn) (occasion : Occasion) (admission execution : String)
    (hcareful : host.repeatsAcknowledgement sessionId i admission = false) :
    (host.confirmNativeExecution manager sessionId occasion i turn owner admission
      execution).1.Sound manager.runtime sessionId := by
  rcases h with ⟨ledger, h, hcovered⟩
  have hmem := List.mem_of_getElem? hturn
  unfold ExecutionHost.confirmNativeExecution
  rw [h.stored]
  cases hconfirmed : turn.confirmExecution manager owner (host.isLive turn) (some ledger) admission
      execution with
  | error failure => exact ⟨ledger, h, hcovered⟩
  | ok result =>
    rcases result with - | ⟨pending, state⟩
    · exact ⟨ledger, h, hcovered⟩
    · rcases TurnCallbacks.confirmExecution_ok hconfirmed with
        ⟨hpending, hnew, retained, hfound, -, horigin, rfl⟩
      rcases h.retained hmem hpending hfound with ⟨hretained, rfl, hreference, hgoal⟩
      dsimp only
      have hfresh : retained.nativeExecutionReference = none := by
        unfold repeatsAcknowledgement at hcareful
        rw [hturn, h.stored] at hcareful
        dsimp only [Option.bind_some] at hcareful
        rw [hpending, hfound, Option.any_some, hnew, Option.any_some] at hcareful
        simpa using hcareful
      have hshown : NativeWorkState.KeptBy ledger
            (NativeWorkState.acknowledge retained.admissionId execution ledger) →
          Shown sessionId (host.run.committed ++ [nextEvent host.run.store occasion.moment.now
            sessionId (some turn.turnId) "native.execution.admitted" (admittedData
              retained.admissionId pending.reference execution pending.goal)])
            (NativeWorkState.acknowledge retained.admissionId execution
              ledger).rootExecutions := by
        intro hkept
        refine h.shown.acknowledge h.unique hretained hfresh rfl rfl ?_ ?_ hkept
        · rw [horigin]
          exact nextEvent_turnId (horigin ▸ h.originTurnId hretained)
        · rw [hreference, hgoal]
          rfl
      rcases h.commit hshown with ⟨hsame, ⟨⟨failure, hfailed⟩, hold⟩ | ⟨hnone, hkept, hsaved⟩⟩
      · rw [hfailed]
        exact ⟨ledger, hold, hsame ledger hcovered⟩
      · rw [hnone]
        refine ⟨_, hsaved.setTurn ?_, ?_⟩
        · exact BackedBy.kept (h.backed turn hmem) hkept
        · apply Covered.settle (hsame ledger hcovered)
          exact fun other hopen => unsettled_acknowledge hopen

theorem Sound.completeNativeExecution (h : host.Sound manager.runtime sessionId)
    (hturn : turn ∈ host.turns) (occasion : Occasion) (admission : String)
    (status : TerminalStatus) (output : Option Json) :
    (host.completeNativeExecution manager sessionId occasion turn owner admission status
      output).1.Sound manager.runtime sessionId := by
  rcases h with ⟨ledger, h, hcovered⟩
  unfold ExecutionHost.completeNativeExecution
  rw [h.stored]
  cases hcompleted : turn.completeExecution manager owner (host.isLive turn) (some ledger)
      admission status with
  | error failure => exact ⟨ledger, h, hcovered⟩
  | ok result =>
    rcases result with - | ⟨pending, execution, state⟩
    · exact ⟨ledger, h, hcovered⟩
    · rcases TurnCallbacks.completeExecution_ok hcompleted with
        ⟨hpending, retained, hfound, hexecution, horigin, -, hfresh, rfl⟩
      rcases h.retained hturn hpending hfound with ⟨hretained, rfl, hreference, hgoal⟩
      dsimp only
      have hshown : NativeWorkState.KeptBy ledger
            (NativeWorkState.conclude retained.admissionId status ledger) →
          Shown sessionId (host.run.committed ++ [nextEvent host.run.store occasion.moment.now
            sessionId (some turn.turnId) "native.execution.completed" (completedData
              retained.admissionId pending.reference execution status pending.goal output)])
            (NativeWorkState.conclude retained.admissionId status ledger).rootExecutions := by
        intro hkept
        have hdata : completedData retained.admissionId pending.reference execution status
            pending.goal output = completedData retained.admissionId retained.nativeReference
              execution status retained.goalAdmissionId output := by
          rw [hreference, hgoal]
        refine h.shown.complete h.unique hretained hfresh hexecution rfl rfl ?_ hdata hkept
        rw [horigin]
        exact nextEvent_turnId (horigin ▸ h.originTurnId hretained)
      rcases h.commit hshown with ⟨hsame, ⟨-, hold⟩ | ⟨-, -, hsaved⟩⟩
      · exact ⟨ledger, hold, hsame ledger hcovered⟩
      · refine ⟨_, hsaved, ?_⟩
        apply Covered.settle (hsame ledger hcovered)
        exact fun other hopen => unsettled_conclude hopen

theorem Sound.delivered (h : host.Sound manager.runtime sessionId) (hturn : turn ∈ host.turns)
    (admission execution : String) (thrown : Bool) :
    (host.delivered i turn admission execution thrown).Sound manager.runtime sessionId := by
  rcases h with ⟨ledger, h, hcovered⟩
  unfold ExecutionHost.delivered
  split
  · dsimp only
    split
    · rename_i pending hpending
      refine ⟨ledger, h.setTurn ?_, hcovered⟩
      intro other found hfound
      rw [Dict.get?_set] at hfound
      split at hfound
      · rename_i hsame
        cases hfound
        rw [hsame]
        exact h.backed turn hturn admission pending hpending
      · exact h.backed turn hturn other found hfound
    · exact ⟨ledger, h.setTurn (h.backed turn hturn), hcovered⟩
  · exact ⟨ledger, h, hcovered⟩

theorem Sound.callback (h : host.Sound manager.runtime sessionId)
    {respond : TurnCallbacks → SessionOwner → ExecutionHost}
    (hrespond : ∀ turn owner, host.turns[i]? = some turn →
      (respond turn owner).Sound manager.runtime sessionId) :
    (host.callback i respond).Sound manager.runtime sessionId := by
  unfold ExecutionHost.callback
  split
  · exact h
  · rename_i turn hturn
    split
    · exact h
    · exact hrespond turn _ hturn

/-! ### Turns -/

theorem Covered.resolved (hresolved : unresolvedNativeAdmissions (some ledger) = false)
    (host : ExecutionHost) : host.Covered ledger := by
  intro entrant _ admission hopen
  rw [unresolved_iff.mpr ⟨admission, hopen⟩] at hresolved
  cases hresolved

theorem Sound.sendTurn (h : host.Sound manager.runtime sessionId) (turnId : String)
    (goal : Option GoalRequest) :
    (host.sendTurn sessionId turnId goal).Sound manager.runtime sessionId := by
  rcases h with ⟨ledger, h, hcovered⟩
  unfold ExecutionHost.sendTurn
  split
  · exact ⟨ledger, h, hcovered⟩
  · split
    · exact ⟨ledger, h, hcovered⟩
    · split
      · exact ⟨ledger, h, hcovered⟩
      · rename_i hsent
        unfold ExecutionHost.sendProblem at hsent
        dsimp only at hsent
        rw [h.stored] at hsent
        simp only [firstError_eq_none, List.forall_mem_cons, errorIf_eq_none] at hsent
        rcases hsent with ⟨-, -, -, -, hresolved, -, hidle, -⟩
        have hnone : host.running.isNone = true := Option.isSome_eq_false_iff.mp hidle
        rw [hnone, Bool.and_true] at hresolved
        exact ⟨ledger, ⟨h.reachable, h.kept, h.resolved, h.stored, h.last, h.begun, h.shown,
          h.backed⟩, Covered.resolved hresolved _⟩

theorem Sound.resume (h : host.Sound manager.runtime sessionId) (owner : SessionOwner)
    (turnId : String) :
    (host.resume sessionId owner turnId).Sound manager.runtime sessionId := by
  rcases h with ⟨ledger, h, hcovered⟩
  unfold ExecutionHost.resume
  rw [h.stored]
  dsimp only
  split
  · exact ⟨ledger, h, hcovered⟩
  · rename_i hadmitted
    have hresolved : unresolvedNativeAdmissions (some ledger) = false := by
      cases hopen : unresolvedNativeAdmissions (some ledger) with
      | false => rfl
      | true =>
        rw [hopen, Bool.or_true] at hadmitted
        exact absurd rfl hadmitted
    exact ⟨ledger, ⟨h.reachable, h.kept, h.resolved, h.stored, h.last, h.begun, h.shown,
      h.backed⟩, Covered.resolved hresolved _⟩

theorem Sound.enter (h : host.Sound manager.runtime sessionId) (i : Nat) :
    (host.enter i).Sound manager.runtime sessionId := by
  rcases h with ⟨ledger, h, hcovered⟩
  unfold ExecutionHost.enter
  split
  · rename_i turnId goal generation late hentrant
    split
    · refine ⟨ledger, ⟨h.reachable, h.kept, h.resolved, h.stored, h.last, h.begun, h.shown,
        h.backed⟩, fun entrant hmem => ?_⟩
      exact hcovered entrant (List.mem_of_mem_eraseIdx hmem)
    · refine ⟨ledger, ⟨h.reachable, h.kept, h.resolved, h.stored, h.last, h.begun, h.shown,
        h.backed⟩, fun entrant hmem => ?_⟩
      rcases List.mem_or_eq_of_mem_set hmem with hold | rfl
      · exact hcovered entrant hold
      · exact hcovered ⟨some (turnId, goal, generation), false, late⟩
          (List.mem_of_getElem? hentrant)
  · exact ⟨ledger, h, hcovered⟩

theorem Sound.dispatch (h : host.Sound manager.runtime sessionId)
    (hcareful : host.careful sessionId (.dispatch i) = true) :
    (host.dispatch sessionId i).Sound manager.runtime sessionId := by
  rcases h with ⟨ledger, h, hcovered⟩
  unfold ExecutionHost.dispatch
  unfold ExecutionHost.careful at hcareful
  dsimp only at hcareful
  rw [h.stored] at hcareful
  cases hready : host.ready? i with
  | none => exact ⟨ledger, h, hcovered⟩
  | some entrant =>
    rw [hready] at hcareful
    simp only [Option.all_some, List.all_eq_true, Option.any_some, Bool.not_eq_true'] at hcareful
    unfold ExecutionHost.ready? at hready
    have hmem := List.mem_of_getElem? (Option.filter_eq_some_iff.mp hready).1
    have hresolved : unresolvedNativeAdmissions (some ledger) = false := by
      cases hopen : unresolvedNativeAdmissions (some ledger) with
      | false => rfl
      | true =>
        rcases unresolved_iff.mp hopen with ⟨admission, hunsettled⟩
        have hlate := hcovered entrant hmem admission hunsettled
        rw [hcareful admission hlate] at hunsettled
        cases hunsettled
    dsimp only
    refine ⟨ledger, ⟨h.reachable, h.kept, ?_, h.stored, h.last, h.begun, h.shown, ?_⟩,
      Covered.resolved hresolved _⟩
    · intro resolved hdispatch
      rcases List.mem_append.mp hdispatch with hold | hnew
      · exact h.resolved resolved hold
      · rw [List.mem_singleton.mp hnew, h.stored, hresolved]
        rfl
    · intro turn hturn
      dsimp only at hturn
      split at hturn
      · exact h.backed turn hturn
      · rcases List.mem_append.mp hturn with hold | hnew
        · exact h.backed turn hold
        · rw [List.mem_singleton.mp hnew]
          exact fun _ _ hfound => nomatch hfound

/-! ### Runs -/

theorem Sound.step (h : host.Sound manager.runtime sessionId) (action : ExecutionAction)
    (hcareful : host.careful sessionId action = true) :
    (host.step manager sessionId action).Sound manager.runtime sessionId := by
  cases action with
  | sendTurn turnId goal => exact h.sendTurn turnId goal
  | resume owner turnId => exact h.resume owner turnId
  | enter i => exact h.enter i
  | continueConversation =>
    rcases h with ⟨ledger, h, hcovered⟩
    unfold ExecutionHost.step
    dsimp only
    rw [h.stored]
    split
    · exact ⟨ledger, h, hcovered⟩
    · rename_i hconfirmed
      have hresolved : unresolvedNativeAdmissions (some ledger) = false := by
        cases hopen : unresolvedNativeAdmissions (some ledger) with
        | false => rfl
        | true =>
          unfold workUnconfirmed at hconfirmed
          rw [hopen, Bool.or_true, Bool.true_or] at hconfirmed
          exact absurd rfl hconfirmed
      exact ⟨ledger, ⟨h.reachable, h.kept, h.resolved, h.stored, h.last, h.begun, h.shown,
        h.backed⟩, Covered.resolved hresolved _⟩
  | dispatch i => exact h.dispatch hcareful
  | abandon i =>
    rcases h with ⟨ledger, h, hcovered⟩
    refine ⟨ledger, ⟨h.reachable, h.kept, h.resolved, h.stored, h.last, h.begun, h.shown,
      h.backed⟩, fun entrant hmem => ?_⟩
    exact hcovered entrant (List.mem_of_mem_eraseIdx hmem)
  | turnOver turnId =>
    rcases h with ⟨ledger, h, hcovered⟩
    unfold ExecutionHost.step
    dsimp only
    split
    · exact ⟨ledger, ⟨h.reachable, h.kept, h.resolved, h.stored, h.last, h.begun, h.shown,
        h.backed⟩, hcovered⟩
    · exact ⟨ledger, h, hcovered⟩
  | changeOwner i change | exited =>
    rcases h with ⟨ledger, h, hcovered⟩
    exact ⟨ledger, ⟨h.reachable, h.kept, h.resolved, h.stored, h.last, h.begun, h.shown,
      h.backed⟩, hcovered⟩
  | beginNativeGoal moment i nativeReference requested resume admission =>
    apply h.callback
    intro turn owner hturn
    exact h.beginNativeGoal (List.mem_of_getElem? hturn) moment nativeReference requested resume
      admission
  | confirmNativeGoal occasion i goal =>
    apply h.callback
    exact fun turn owner _ => h.confirmNativeGoal occasion goal
  | beginNativeExecution moment i nativeReference goalAdmissionId observedGoalPhase admission =>
    apply h.callback
    intro turn owner hturn
    exact h.beginNativeExecution (List.mem_of_getElem? hturn) moment nativeReference
      goalAdmissionId observedGoalPhase admission
  | confirmNativeExecution occasion i admission execution =>
    apply h.callback
    intro turn owner hturn
    apply h.confirmNativeExecution hturn occasion admission execution
    simpa [ExecutionHost.careful] using hcareful
  | delivered i admission execution thrown =>
    apply h.callback
    exact fun turn _ hturn => h.delivered (List.mem_of_getElem? hturn) admission execution thrown
  | completeNativeExecution occasion i admission status output =>
    apply h.callback
    intro turn owner hturn
    exact h.completeNativeExecution (List.mem_of_getElem? hturn) occasion admission status output
  | other moment action =>
    rcases h with ⟨ledger, h, hcovered⟩
    unfold ExecutionHost.step
    dsimp only
    split
    · rename_i hunrelated
      rcases h.unrelated hunrelated with ⟨next, hroots, hgoals, hnext⟩
      refine ⟨next, hnext, fun entrant hmem admission hopen => hcovered entrant hmem admission ?_⟩
      unfold NativeWorkState.unsettled at hopen ⊢
      rw [hroots, hgoals] at hopen
      exact hopen
    · exact ⟨ledger, h, hcovered⟩

end Invariant

/-- From a ledger whose executions the log shows, every run that is careful is lawful in every
state. -/
theorem executions_lawful (manager : Manager) (sessionId : String) (run : StoreRun)
    (owner : SessionOwner) (ledger : NativeWorkState)
    (hreachable : Reachable manager.runtime run.store)
    (hstored : run.store.data.nativeWork.get? sessionId = some ledger)
    (hshown : Shown sessionId run.committed ledger.rootExecutions)
    (actions : List ExecutionAction)
    (hcareful : Meets (step manager sessionId)
      (fun host action => host.careful sessionId action = true) (opened run owner ledger)
      actions) :
    Always (step manager sessionId) (Lawful sessionId) (opened run owner ledger) actions := by
  have hsound : (opened run owner ledger).Sound manager.runtime sessionId := by
    refine ⟨ledger, ⟨hreachable, List.pairwise_singleton _ _, ?_, hstored, rfl, ⟨?_, ?_⟩, hshown,
      ?_⟩, ?_⟩
    · exact fun _ hmem => nomatch hmem
    · exact fun _ hmem => nomatch hmem
    · exact fun _ hmem => nomatch hmem
    · exact fun _ hmem => nomatch hmem
    · exact fun _ hmem => nomatch hmem
  have halways := always_of_meets
    (fun host action (h : Sound manager.runtime sessionId host) hcareful => h.step action hcareful)
    hsound hcareful
  exact halways.mono fun host ⟨_, h, _⟩ => h.lawful

/-! ## A run on given inputs -/

def executionRun : StoreRun :=
  StoreRun.fresh.step plainRuntime
    (.call ⟨0, true⟩ (.saveNativeWorkState "session-1" plainWorkState none))

/-- An execution is begun and acknowledged; the delivery of its event throws or not. -/
def acknowledgedExecution (thrown : Bool) : List ExecutionAction :=
  [.sendTurn "turn-1" none,
    .dispatch 0,
    .beginNativeExecution ⟨1, true⟩ 0 "thread-1" none false "admission-1",
    .confirmNativeExecution ⟨⟨2, true⟩, true⟩ 0 "admission-1" "native-turn-1",
    .delivered 0 "admission-1" "native-turn-1" thrown]

def executionHost : ExecutionHost :=
  opened executionRun ⟨WorkHost.workSession, emptyHash⟩ plainWorkState

theorem executions_lawful_completed :
    Always (step WorkHost.workHost.manager "session-1") (Lawful "session-1") executionHost
      (acknowledgedExecution false ++
        [.completeNativeExecution ⟨⟨3, true⟩, true⟩ 0 "admission-1" .completed none]) :=
  executions_lawful WorkHost.workHost.manager "session-1" executionRun _ plainWorkState
    ⟨[.call ⟨0, true⟩ (.saveNativeWorkState "session-1" plainWorkState none)], rfl⟩
    (by decide +kernel) (Shown.empty "session-1") _ (by decide +kernel)

/-- The acknowledgement is repeated after its delivery has failed, and shown twice. -/
theorem acknowledgement_shown_twice :
    ¬Always (step WorkHost.workHost.manager "session-1") (Lawful "session-1") executionHost
      (acknowledgedExecution true ++
        [.confirmNativeExecution ⟨⟨3, true⟩, true⟩ 0 "admission-1" "native-turn-1"]) := by
  intro hlawful
  rcases hlawful.last.recorded with ⟨ledger, hrecorded⟩
  have honce := hrecorded.shown.admittedOnce "admission-1"
  have htwice : ((Library.run (step WorkHost.workHost.manager "session-1") executionHost
      (acknowledgedExecution true ++ [.confirmNativeExecution ⟨⟨3, true⟩, true⟩ 0 "admission-1"
        "native-turn-1"])).run.committed.filter
      (names "session-1" "native.execution.admitted" "admission-1")).length = 2 := by
    decide +kernel
  omega

end ExecutionHost

end HarnessControl.Harnesses
