import HarnessControl.State.Resaved

/-!
# Effective bindings

The binding of an admission is recorded only when a policy control changes the binding of its
session; until then the scope speaks for it.  The two together always give the binding that was in
force when the session's work state came to hold the admission.
-/

namespace HarnessControl.State

open HarnessControl.Library HarnessControl.Protocol

/-- A root execution or a child work of a session. -/
abbrev Admitted := AdmissionKind × String

def ExecutionBinding.admission (binding : ExecutionBinding) : Admitted :=
  (binding.kind, binding.admissionId)

def NativeWorkState.recorded? (state : NativeWorkState) (admission : Admitted) :
    Option ExecutionBinding :=
  state.executionBindings.find? fun binding => binding.admission == admission

/-- The recorded binding of the admission, otherwise that of the scope. -/
def NativeWorkState.effectiveBinding (state : NativeWorkState) (admission : Admitted) : String :=
  (state.recorded? admission).elim state.scope.executionBindingHash ExecutionBinding.bindingHash

theorem findBinding_eq (bindings : List ExecutionBinding) (binding : ExecutionBinding) :
    findBinding bindings binding =
      bindings.find? fun other => other.admission == binding.admission := rfl

variable {binding : ExecutionBinding} {state : NativeWorkState}

theorem ExecutionBinding.admitted_iff :
    binding.admitted state = true ↔ binding.admission ∈ state.admissions := by
  unfold ExecutionBinding.admitted NativeWorkState.admissions ExecutionBinding.admission
  cases hkind : binding.kind with
  | root => simp [List.any_eq_true]
  | work =>
    unfold NativeWorkState.work?
    rw [Option.isSome_or, Bool.or_eq_true, Dict.isSome_get?_iff, Dict.isSome_get?_iff]
    simp

/-! ## Records -/

section Records

variable {state : NativeWorkState} {admission : Admitted}

theorem recorded?_mem (h : state.recorded? admission = some binding) :
    binding ∈ state.executionBindings ∧ binding.admission = admission := by
  have hfound : state.executionBindings.find? (fun binding => binding.admission == admission) =
    some binding := h
  exact ⟨List.mem_of_find?_eq_some hfound, by simpa using List.find?_some hfound⟩

theorem effectiveBinding_recorded (h : state.recorded? admission = some binding) :
    state.effectiveBinding admission = binding.bindingHash := by
  unfold NativeWorkState.effectiveBinding
  rw [h, Option.elim_some]

theorem effectiveBinding_unrecorded (h : state.recorded? admission = none) :
    state.effectiveBinding admission = state.scope.executionBindingHash := by
  unfold NativeWorkState.effectiveBinding
  rw [h, Option.elim_none]

end Records

/-! ## Saves -/

structure SavedBindings (previous : Option NativeWorkState) (state : NativeWorkState) : Prop where
  scope : ∀ old ∈ previous, state.scope = old.scope
  accepted : ∀ binding ∈ state.executionBindings, bindingAccepted previous state binding = true
  kept : ∀ old ∈ previous, ∀ binding ∈ old.executionBindings,
    bindingKept state binding = true
  roots : ∀ old ∈ previous, ∀ root ∈ old.rootExecutions, rootKept state root = true

theorem savedBindings_of_admitted {stored : Nat} {previous : Option NativeWorkState} (h : saveNativeWorkStateProblem stored previous state = none) :
    SavedBindings previous state := by
  unfold saveNativeWorkStateProblem at h
  simp only [firstProblem_eq_none, List.forall_mem_cons, refuseIf_eq_none, Bool.not_eq_false',
    List.all_eq_true] at h
  rcases h with ⟨-, -, -, -, -, hscope, haccepted, hkept, -, -, -, -, -, hroots, -⟩
  constructor
  · rintro old rfl
    have hsame : old.scope = state.scope := by simpa using hscope
    exact hsame.symm
  · exact haccepted
  · rintro old rfl
    exact hkept
  · rintro old rfl
    exact hroots

/-- What a call does to the work state of one session. -/
inductive WorkAfter (runtime : Runtime) (before : Option NativeWorkState) (sessionId : String) :
    StoreAction → Option NativeWorkState → Prop where
  | same {action : StoreAction} : WorkAfter runtime before sessionId action before
  | saved {input state : NativeWorkState} {event : Option HarnessEvent}
    (bindings : SavedBindings before state) :
    WorkAfter runtime before sessionId (.saveNativeWorkState sessionId input event) (some state)
  | removed {old : NativeWorkState} (stored : before = some old) (empty : old.removable = true) :
    WorkAfter runtime before sessionId (.removeEmptyNativeWorkState sessionId) none
  | rebound {key commandId : String} {result : ConversationResult} {event : Option HarnessEvent}
    {work : NativeWorkState} (stored : before = some work) (bindingHash : String) :
    WorkAfter runtime before sessionId
      (.completeNativePolicyControl key sessionId commandId result event)
      (some (work.rebound bindingHash))

variable {runtime : Runtime}

theorem RunnerStore.perform_work (store : RunnerStore) (moment : Moment)
    (action : StoreAction) (sessionId : String) :
    WorkAfter runtime (store.data.nativeWork.get? sessionId) sessionId action
      ((store.perform runtime moment action).state.data.nativeWork.get? sessionId) := by
  have hrecords : RecordsAfter runtime moment store action _ := store.perform_records action
  generalize store.perform runtime moment action = attempt at hrecords
  have unchanged : attempt.state.data.nativeWork = store.data.nativeWork →
      WorkAfter runtime (store.data.nativeWork.get? sessionId) sessionId action
        (attempt.state.data.nativeWork.get? sessionId) := by
    intro hwork
    rw [hwork]
    exact .same
  rcases hrecords with ⟨hsame, -⟩ | ⟨-, hsaved⟩
  · rw [hsame.work]
    exact .same
  · cases hsaved with
    | review parsed admitted reviews conversations work => exact unchanged work
    | cleared matched reviews conversations work => exact unchanged work
    | conversation valid admitted reviews conversations work => exact unchanged work
    | retired reviews conversations work => exact unchanged work
    | controlBegun stored owner phase owned settled valid reviews conversations sameWork =>
      exact unchanged sameWork
    | @work savedId input state event parsed admitted reviews conversations work =>
      rw [work]
      by_cases heq : sessionId = savedId
      · subst heq
        rw [Dict.get?_set_self]
        exact .saved (savedBindings_of_admitted admitted)
      · rw [Dict.get?_set_of_ne _ _ heq]
        exact .same
    | @workRemoved removedId previous stored removable reviews conversations work =>
      rw [work]
      by_cases heq : sessionId = removedId
      · subst heq
        rw [Dict.get?_erase_self]
        exact .removed stored removable
      · rw [Dict.get?_erase_of_ne _ heq]
        exact .same
    | @controlCompleted key completedId commandId result event previous owner receipt stored hwork
      confirmable valid validWork reviews conversations nextWork =>
      rw [nextWork]
      by_cases heq : sessionId = completedId
      · subst heq
        rw [Dict.get?_set_self]
        exact .rebound hwork receipt.targetBindingHash
      · rw [Dict.get?_set_of_ne _ _ heq]
        exact .same

/-! ## Effective bindings after a save and after a policy control -/

theorem SavedBindings.effective_held {old state : NativeWorkState}
    (h : SavedBindings (some old) state) (admission : Admitted) :
    state.effectiveBinding admission = old.effectiveBinding admission := by
  cases hold : old.recorded? admission with
  | some binding =>
    rcases recorded?_mem hold with ⟨hmem, rfl⟩
    have hkept := h.kept old rfl binding hmem
    unfold bindingKept at hkept
    rw [findBinding_eq, beq_iff_eq] at hkept
    have hnew : state.recorded? binding.admission = some binding := hkept
    rw [effectiveBinding_recorded hnew, effectiveBinding_recorded hold]
  | none =>
    rw [effectiveBinding_unrecorded hold, ← h.scope old rfl]
    cases hnew : state.recorded? admission with
    | none => exact effectiveBinding_unrecorded hnew
    | some binding =>
      -- a new record of an old admission belongs to the current configuration
      rcases recorded?_mem hnew with ⟨hmem, rfl⟩
      have haccepted := h.accepted binding hmem
      have hunknown : findBinding old.executionBindings binding = none := hold
      unfold bindingAccepted at haccepted
      rw [Option.any_some, hunknown] at haccepted
      simp only [Option.isSome_none, Bool.false_or, Bool.and_eq_true, beq_iff_eq] at haccepted
      rw [effectiveBinding_recorded hnew, haccepted.2]

theorem SavedBindings.effective_new {previous : Option NativeWorkState}
    (h : SavedBindings previous state) {admission : Admitted}
    (hnew : ∀ old ∈ previous, old.recorded? admission = none) :
    state.effectiveBinding admission = state.scope.executionBindingHash := by
  cases hrecorded : state.recorded? admission with
  | none => exact effectiveBinding_unrecorded hrecorded
  | some binding =>
    rcases recorded?_mem hrecorded with ⟨hmem, rfl⟩
    have haccepted := h.accepted binding hmem
    have hunknown : (previous.any fun old => (findBinding old.executionBindings binding).isSome) =
        false := by
      cases previous with
      | none => rfl
      | some old =>
        have hold : findBinding old.executionBindings binding = none := hnew old rfl
        rw [Option.any_some, hold]
        rfl
    unfold bindingAccepted at haccepted
    rw [hunknown] at haccepted
    simp only [Bool.false_or, Bool.and_eq_true, beq_iff_eq] at haccepted
    rw [effectiveBinding_recorded hrecorded, haccepted.2]

variable {admissions : List Admitted}

theorem retain_recorded {bindingHash : String} {admission : Admitted} {bindings : List ExecutionBinding}
    (h : bindings.find? (fun other => other.admission == admission) = some binding) :
    (admissions.foldl (retainBinding bindingHash) bindings).find?
      (fun other => other.admission == admission) = some binding := by
  induction admissions generalizing bindings with
  | nil => exact h
  | cons next rest ih =>
    apply ih
    unfold retainBinding
    split
    · exact h
    · rw [List.find?_append, h]
      rfl

theorem retain_unrecorded {bindingHash : String}
    {admission : Admitted} (hmem : admission ∈ admissions) {bindings : List ExecutionBinding}
    (h : bindings.find? (fun other => other.admission == admission) = none) :
    ∃ binding, (admissions.foldl (retainBinding bindingHash) bindings).find?
      (fun other => other.admission == admission) = some binding ∧
        binding.bindingHash = bindingHash := by
  induction admissions generalizing bindings with
  | nil => cases hmem
  | cons next rest ih =>
    by_cases heq : next = admission
    · refine ⟨⟨next.1, next.2, bindingHash⟩, ?_, rfl⟩
      show (rest.foldl (retainBinding bindingHash)
        (retainBinding bindingHash bindings next)).find? _ = _
      apply retain_recorded
      unfold retainBinding
      have habsent : (bindings.any fun binding =>
          binding.kind == next.1 && binding.admissionId == next.2) = false := by
        rw [List.any_eq_false]
        have hnone := List.find?_eq_none.mp h
        rw [← heq] at hnone
        exact hnone
      rw [habsent, if_neg Bool.false_ne_true, List.find?_append, h]
      simp [ExecutionBinding.admission, heq]
    · apply ih ((List.mem_cons.mp hmem).resolve_left (Ne.symm heq))
      unfold retainBinding
      split
      · exact h
      · rw [List.find?_append, h]
        simp [ExecutionBinding.admission, heq]

theorem effectiveBinding_rebound {work : NativeWorkState} {admission : Admitted}
    (h : admission ∈ work.admissions) (bindingHash : String) :
    (work.rebound bindingHash).effectiveBinding admission = work.effectiveBinding admission := by
  cases hold : work.recorded? admission with
  | some binding =>
    have hnew : (work.rebound bindingHash).recorded? admission = some binding :=
      retain_recorded hold
    rw [effectiveBinding_recorded hnew, effectiveBinding_recorded hold]
  | none =>
    rcases retain_unrecorded h hold with ⟨binding, hbinding, hhash⟩
    have hnew : (work.rebound bindingHash).recorded? admission = some binding := hbinding
    rw [effectiveBinding_recorded hnew, effectiveBinding_unrecorded hold, hhash]

/-! ## The number of bindings -/

theorem retain_unique {bindingHash : String}
    {bindings : List ExecutionBinding} (h : (bindings.map ExecutionBinding.admission).Nodup) :
    ((admissions.foldl (retainBinding bindingHash) bindings).map
      ExecutionBinding.admission).Nodup := by
  induction admissions generalizing bindings with
  | nil => exact h
  | cons next rest ih =>
    apply ih
    unfold retainBinding
    split
    · exact h
    · rename_i habsent
      rw [List.map_append, List.nodup_append]
      refine ⟨h, List.nodup_singleton _, fun admission hmem other hother heq => ?_⟩
      subst heq
      rcases List.mem_map.mp hmem with ⟨binding, hbinding, hadmission⟩
      rw [List.map_singleton, List.mem_singleton, ← hadmission] at hother
      apply habsent
      refine List.any_eq_true.mpr ⟨binding, hbinding, ?_⟩
      have hparts := Prod.ext_iff.mp hother
      simpa [ExecutionBinding.admission] using hparts

theorem bindings_length_le
    (hunique : (state.executionBindings.map ExecutionBinding.admission).Nodup)
    (hadmitted : ∀ binding ∈ state.executionBindings, binding.admitted state = true) :
    state.executionBindings.length ≤ state.admissions.length := by
  have hsubset : state.executionBindings.map ExecutionBinding.admission ⊆ state.admissions := by
    intro admission hmem
    rcases List.mem_map.mp hmem with ⟨binding, hbinding, rfl⟩
    exact ExecutionBinding.admitted_iff.mp (hadmitted binding hbinding)
  have hle := List.Nodup.length_le_of_subset hunique hsubset
  rwa [List.length_map] at hle

variable {schemas : PayloadSchemas}

theorem admissions_length_le
    (h : WorkConsistent schemas state) : state.admissions.length ≤ 2176 := by
  have hroots : state.rootExecutions.length ≤ 1024 := by
    have hvalid := h.valid
    unfold NativeWorkState.valid at hvalid
    simp only [Bool.and_eq_true] at hvalid
    have hlist := hvalid.1.1.2
    unfold receiptList at hlist
    simp only [Bool.and_eq_true, decide_eq_true_eq] at hlist
    exact hlist.1.1
  have hitems := h.items
  have hretired := h.retired
  rw [Dict.size_eq_length_keys] at hitems hretired
  unfold NativeWorkState.admissions
  rw [List.length_append, List.length_map, List.length_map, List.length_append]
  omega

theorem rebound_bindings_le (h : WorkConsistent schemas state) (bindingHash : String) :
    (state.rebound bindingHash).executionBindings.length ≤ 2176 := by
  have hunique : ((state.rebound bindingHash).executionBindings.map
      ExecutionBinding.admission).Nodup := by
    have hbefore := (NativeWorkState.valid_unique h.valid).bindings
    unfold uniqueBy at hbefore
    exact retain_unique (of_decide_eq_true hbefore)
  have hadmitted : ∀ binding ∈ (state.rebound bindingHash).executionBindings,
      binding.admitted (state.rebound bindingHash) = true := by
    change ∀ binding ∈ state.admissions.foldl (retainBinding state.scope.executionBindingHash)
      state.executionBindings, binding.admitted state = true
    apply retainBinding_admitted _ h.bindings
    intro admission hmem
    exact ExecutionBinding.admitted_iff.mpr hmem
  have hadmissions : (state.rebound bindingHash).admissions = state.admissions := rfl
  have hle := bindings_length_le hunique hadmitted
  rw [hadmissions] at hle
  exact hle.trans (admissions_length_le h)

/-! ## The state file -/

/-- Under every key that a record keeps, the file holds the work that is in memory. -/
def WorkOnFile (store : RunnerStore) : Prop :=
  ∀ sessionId, ownProperty sessionId = true →
    (store.disk.bind fun file => file.nativeWork.get? sessionId) =
      store.data.nativeWork.get? sessionId

theorem WorkOnFile.perform {store : RunnerStore} (h : WorkOnFile store)
    (moment : Moment) (action : StoreAction) :
    WorkOnFile (store.perform runtime moment action).state := by
  have hrecords : RecordsAfter runtime moment store action _ := store.perform_records action
  have heffect : EventEffect runtime.options store action.events
    (store.perform runtime moment action) := store.perform_effect action
  generalize store.perform runtime moment action = attempt at hrecords heffect
  have unchanged : attempt.state.disk = store.disk → SameRecords store.data attempt.state.data →
      WorkOnFile attempt.state := by
    intro hdisk hsame sessionId hkey
    rw [hdisk, hsame.work]
    exact h sessionId hkey
  cases hfailure : attempt.failure with
  | some failure =>
    have hthrew : attempt.failure ≠ none := by rw [hfailure]; nofun
    rcases hrecords with ⟨hsame, -⟩ | ⟨hreturned, -⟩
    · exact unchanged (heffect.threw hthrew).2 hsame
    · exact absurd hreturned hthrew
  | none =>
    rcases (heffect.returned hfailure).2 with hwritten | ⟨hsame, -⟩
    · intro sessionId _
      rw [hwritten]
      rfl
    · rw [hsame]
      exact h

theorem RunnerStore.reopen_work {store opened : RunnerStore} {now : Int}
    (hsound : StoreSound runtime.schemas store)
    (hopen : store.reopen runtime now = some opened) (sessionId : String) :
    opened.disk = store.disk ∧ opened.data.nativeWork.get? sessionId =
      if ownProperty sessionId then store.disk.bind fun file => file.nativeWork.get? sessionId
      else none := by
  unfold RunnerStore.reopen at hopen
  rcases Option.map_eq_some_iff.mp hopen with ⟨data, hread, rfl⟩
  refine ⟨rfl, ?_⟩
  change data.nativeWork.get? sessionId = _
  cases hdisk : store.disk with
  | none =>
    rw [hdisk] at hread
    cases hread
    split <;> rfl
  | some file =>
    rw [hdisk] at hread
    unfold readRunnerState RunnerStateData.parse at hread
    simp only [Option.bind_eq_bind, Option.bind_eq_some_iff, Option.pure_def,
      Option.some.injEq] at hread
    rcases hread with ⟨-, -, -, -, -, -, -, -, -, -, work, hwork, -, -, rfl⟩
    cases hkey : ownProperty sessionId with
    | false => exact Schema.parseDict_get?_none hwork hkey
    | true =>
      refine (Schema.parseDict_get? hwork hkey).trans ?_
      rw [if_pos rfl, Option.bind_some]
      cases hstored : file.nativeWork.get? sessionId with
      | none => rfl
      | some state =>
        have hconsistent := (hsound.file file hdisk).work sessionId state hstored
        exact Schema.normalized_fixed.mpr ⟨hconsistent.kept, hconsistent.valid⟩

theorem restart_work {run : StoreRun} (hsound : StoreSound runtime.schemas run.store)
    (hfile : WorkOnFile run.store) (now : Int) :
    WorkOnFile (run.step runtime (.restart now)).store ∧
      ∀ sessionId, (run.step runtime (.restart now)).store.data.nativeWork.get? sessionId =
          run.store.data.nativeWork.get? sessionId ∨
        sessionId = protoKey ∧
          (run.step runtime (.restart now)).store.data.nativeWork.get? sessionId = none := by
  unfold StoreRun.step
  dsimp only
  cases hopen : run.store.reopen runtime now with
  | none => exact ⟨hfile, fun _ => Or.inl rfl⟩
  | some opened =>
    have hwork := RunnerStore.reopen_work hsound hopen
    constructor
    · intro sessionId hkey
      have hsession := (hwork sessionId).2
      rw [if_pos hkey] at hsession
      rw [(hwork sessionId).1, hsession]
    · intro sessionId
      have hsession := (hwork sessionId).2
      cases hkey : ownProperty sessionId with
      | false =>
        rw [hkey, if_neg Bool.false_ne_true] at hsession
        refine Or.inr ⟨?_, hsession⟩
        simpa [ownProperty] using hkey
      | true =>
        rw [if_pos hkey] at hsession
        exact Or.inl (hsession.trans (hfile sessionId hkey))

/-! ## Runs -/

/-- A run that remembers, for every admission that is held, the binding in force when the session's
work state came to hold it. -/
structure AdmissionRun extends StoreRun where
  since : String → Admitted → Option String

namespace AdmissionRun

def fresh : AdmissionRun := { StoreRun.fresh with since := fun _ _ => none }

/-- The binding that an admission is remembered with after a step. -/
def sinceAfter (since : Option String) (admission : Admitted)
    (before after : Option NativeWorkState) : Option String :=
  after.bind fun state =>
    if admission ∈ state.admissions then
      if before.any fun old => decide (admission ∈ old.admissions) then since
      else some state.scope.executionBindingHash
    else none

def step (runtime : Runtime) (run : AdmissionRun) (step : StoreStep) : AdmissionRun :=
  let next := run.toStoreRun.step runtime step
  { next with
    since := fun sessionId admission => sinceAfter (run.since sessionId admission) admission
      (run.store.data.nativeWork.get? sessionId) (next.store.data.nativeWork.get? sessionId) }

/-- Every admission has the binding that it is remembered with. -/
def Effective (run : AdmissionRun) : Prop :=
  ∀ sessionId state, run.store.data.nativeWork.get? sessionId = some state →
    ∀ admission ∈ state.admissions,
      run.since sessionId admission = some (state.effectiveBinding admission)

structure Tracks (runtime : Runtime) (run : AdmissionRun) : Prop where
  sound : StoreSound runtime.schemas run.store
  file : WorkOnFile run.store
  effective : run.Effective

end AdmissionRun

theorem sinceAfter_effective {before after : Option NativeWorkState}
    {sessionId : String} {action : StoreAction} {since : Admitted → Option String}
    (hwork : WorkAfter runtime before sessionId action after)
    (hbindings : ∀ old ∈ before, ∀ binding ∈ old.executionBindings, binding.admitted old = true)
    (hbefore : ∀ old ∈ before, ∀ admission ∈ old.admissions,
      since admission = some (old.effectiveBinding admission)) :
    ∀ state ∈ after, ∀ admission ∈ state.admissions,
      AdmissionRun.sinceAfter (since admission) admission before after =
        some (state.effectiveBinding admission) := by
  rintro state rfl admission hmem
  unfold AdmissionRun.sinceAfter
  rw [Option.bind_some, if_pos hmem]
  cases hwork with
  | same =>
    rw [Option.any_some, decide_eq_true hmem, if_pos rfl]
    exact hbefore state rfl admission hmem
  | saved bindings =>
    cases before with
    | none =>
      rw [Option.any_none, if_neg Bool.false_ne_true]
      exact congrArg some (bindings.effective_new (fun _ h => (nomatch h))).symm
    | some old =>
      rw [Option.any_some]
      by_cases hold : admission ∈ old.admissions
      · rw [decide_eq_true hold, if_pos rfl, hbefore old rfl admission hold,
          bindings.effective_held admission]
      · rw [decide_eq_false hold, if_neg Bool.false_ne_true]
        refine congrArg some (bindings.effective_new fun other hother => ?_).symm
        cases hother
        cases hrecorded : old.recorded? admission with
        | none => rfl
        | some binding =>
          -- a recorded binding speaks of an admission that is held
          rcases recorded?_mem hrecorded with ⟨hbinding, rfl⟩
          exact absurd (ExecutionBinding.admitted_iff.mp (hbindings old rfl binding hbinding))
            hold
  | @rebound key commandId result event work stored bindingHash =>
    cases stored
    have hsame : admission ∈ work.admissions := hmem
    rw [Option.any_some, decide_eq_true hsame, if_pos rfl, effectiveBinding_rebound hsame]
    exact hbefore work rfl admission hsame

theorem AdmissionRun.Tracks.step {run : AdmissionRun} (h : run.Tracks runtime)
    (step : StoreStep) : (run.step runtime step).Tracks runtime := by
  have hsound : StoreSound runtime.schemas (run.toStoreRun.step runtime step).store :=
    h.sound.step step
  -- every session keeps its work, or a call of the store has changed it
  have hsteps : WorkOnFile (run.toStoreRun.step runtime step).store ∧ ∀ sessionId,
      (∃ action, WorkAfter runtime (run.store.data.nativeWork.get? sessionId) sessionId action
        ((run.toStoreRun.step runtime step).store.data.nativeWork.get? sessionId)) ∨
      (run.toStoreRun.step runtime step).store.data.nativeWork.get? sessionId = none := by
    cases step with
    | call moment action =>
      exact ⟨h.file.perform moment action,
        fun sessionId => Or.inl ⟨action, run.store.perform_work moment action sessionId⟩⟩
    | restart now =>
      rcases restart_work h.sound h.file now with ⟨hfile, hwork⟩
      refine ⟨hfile, fun sessionId => ?_⟩
      rcases hwork sessionId with hsame | ⟨-, hnone⟩
      · rw [hsame]
        exact Or.inl ⟨.getReceipt, .same⟩
      · exact Or.inr hnone
  refine ⟨hsound, hsteps.1, fun sessionId state hstate admission hmem => ?_⟩
  change (run.toStoreRun.step runtime step).store.data.nativeWork.get? sessionId = some state
    at hstate
  rcases hsteps.2 sessionId with ⟨action, hwork⟩ | hnone
  · exact sinceAfter_effective hwork
      (fun old hold => (h.sound.memory.work sessionId old hold).bindings)
      (fun old hold => h.effective sessionId old hold) state hstate admission hmem
  · rw [hnone] at hstate
    cases hstate

theorem AdmissionRun.Tracks.initial (runtime : Runtime) : AdmissionRun.fresh.Tracks runtime :=
  ⟨⟨Sound.empty _, fun _ h => (nomatch h)⟩, fun _ _ => rfl, fun _ _ h => (nomatch h)⟩

/-! ## The law of bindings -/

structure BindingStep (sessionId : String) (step : StoreStep)
    (before after : Option NativeWorkState) : Prop where
  /-- The scope changes in its binding only, and only by a completed policy control. -/
  scope : ∀ old ∈ before, ∀ new ∈ after, new.scope = old.scope ∨
    (∃ moment key commandId result event, step =
        .call moment (.completeNativePolicyControl key sessionId commandId result event)) ∧
      ∃ bindingHash, new.scope = { old.scope with executionBindingHash := bindingHash }
  /-- Recorded bindings and root executions stay. -/
  recorded : ∀ old ∈ before, ∀ binding ∈ old.executionBindings,
    ∃ new ∈ after, binding ∈ new.executionBindings
  roots : ∀ old ∈ before, ∀ root ∈ old.rootExecutions,
    ∃ new ∈ after, (AdmissionKind.root, root.admissionId) ∈ new.admissions

theorem BindingStep.same {sessionId : String} {step : StoreStep} {work : Option NativeWorkState} :
    BindingStep sessionId step work work where
  scope := by
    rintro old rfl new hnew
    cases hnew
    exact Or.inl rfl
  recorded old hold binding hbinding := ⟨old, hold, hbinding⟩
  roots old hold root hroot :=
    ⟨old, hold, List.mem_append_left _ (List.mem_map_of_mem hroot)⟩

theorem WorkAfter.bindingStep
    {before after : Option NativeWorkState} {sessionId : String} {moment : Moment}
    {action : StoreAction} (h : WorkAfter runtime before sessionId action after)
    (hconsistent : ∀ old ∈ before, WorkConsistent schemas old) :
    BindingStep sessionId (.call moment action) before after := by
  cases h with
  | same => exact BindingStep.same
  | @saved input state event bindings =>
    constructor
    · rintro old hold new hnew
      cases hnew
      exact Or.inl (bindings.scope old hold)
    · intro old hold binding hbinding
      have hkept := bindings.kept old hold binding hbinding
      unfold bindingKept findBinding at hkept
      rw [beq_iff_eq] at hkept
      exact ⟨state, rfl, List.mem_of_find?_eq_some hkept⟩
    · intro old hold root hroot
      have hkept := bindings.roots old hold root hroot
      unfold rootKept at hkept
      rcases (Option.any_eq_true _ _).mp hkept with ⟨next, hnext, -⟩
      refine ⟨state, rfl, List.mem_append_left _ (List.mem_map.mpr ⟨next, ?_, ?_⟩)⟩
      · exact List.mem_of_find?_eq_some hnext
      · have hid := List.find?_some hnext
        rw [beq_iff_eq] at hid
        rw [hid]
  | @removed old stored empty =>
    cases stored
    unfold NativeWorkState.removable at empty
    simp only [Bool.and_eq_true, List.isEmpty_iff, beq_iff_eq] at empty
    rcases empty with ⟨⟨⟨⟨⟨⟨⟨-, hitems⟩, hretired⟩, hroots⟩, -⟩, -⟩, -⟩, -⟩
    constructor
    · intro _ _ new hnew
      cases hnew
    · rintro other hother binding hbinding
      cases hother
      -- without roots and work there is nothing that a binding could speak of
      have hadmitted := ExecutionBinding.admitted_iff.mp
        ((hconsistent old rfl).bindings binding hbinding)
      rw [Dict.size_eq_length_keys, List.length_eq_zero_iff] at hitems hretired
      unfold NativeWorkState.admissions at hadmitted
      rw [hroots, hitems, hretired] at hadmitted
      cases hadmitted
    · rintro other hother root hroot
      cases hother
      rw [hroots] at hroot
      cases hroot
  | @rebound key commandId result event work stored bindingHash =>
    cases stored
    constructor
    · rintro old hold new hnew
      cases hold
      cases hnew
      exact Or.inr ⟨⟨moment, key, commandId, result, event, rfl⟩, bindingHash, rfl⟩
    · rintro old hold binding hbinding
      cases hold
      refine ⟨_, rfl, ?_⟩
      have hself : work.recorded? binding.admission = some binding := by
        have hunique := (NativeWorkState.valid_unique (hconsistent work rfl).valid).bindings
        exact findBinding_self hunique hbinding
      exact List.mem_of_find?_eq_some (retain_recorded hself)
    · rintro old hold root hroot
      cases hold
      exact ⟨_, rfl, List.mem_append_left _ (List.mem_map_of_mem hroot)⟩

/-- What holds of the bindings in every state of a run. -/
structure AdmissionRun.Lawful (runtime : Runtime) (run : AdmissionRun) : Prop where
  effective : run.Effective
  calls : ∀ moment action sessionId,
    BindingStep sessionId (.call moment action) (run.store.data.nativeWork.get? sessionId)
      ((run.step runtime (.call moment action)).store.data.nativeWork.get? sessionId)
  /-- A record has no entry at the one key that a restart drops. -/
  restarts : ∀ now sessionId, ownProperty sessionId = true →
    (run.step runtime (.restart now)).store.data.nativeWork.get? sessionId =
      run.store.data.nativeWork.get? sessionId
  /-- The bindings that a policy control would install are within their bound. -/
  bounded : ∀ sessionId work, run.store.data.nativeWork.get? sessionId = some work →
    ∀ bindingHash, (work.rebound bindingHash).executionBindings.length ≤ 2176

theorem AdmissionRun.Tracks.lawful {run : AdmissionRun}
    (h : run.Tracks runtime) : run.Lawful runtime where
  effective := h.effective
  calls moment action sessionId :=
    (run.store.perform_work moment action sessionId).bindingStep
      fun old hold => h.sound.memory.work sessionId old hold
  restarts now sessionId hkey := by
    rcases (restart_work h.sound h.file now).2 sessionId with hsame | ⟨hproto, -⟩
    · exact hsame
    · rw [hproto] at hkey
      exact absurd hkey (by decide)
  bounded sessionId work hwork :=
    rebound_bindings_le (h.sound.memory.work sessionId work hwork)

/-- In every state of every run, each admission has the binding of the time since when it is held,
only policy controls change a binding, and recorded bindings stay. -/
theorem effective_bindings (runtime : Runtime) (steps : List StoreStep) :
    Always (AdmissionRun.step runtime) (AdmissionRun.Lawful runtime) AdmissionRun.fresh steps := by
  have htracks := always_of_inv (I := AdmissionRun.Tracks runtime) (fun run step h => h.step step)
    (AdmissionRun.Tracks.initial runtime) steps
  exact htracks.mono fun run h => h.lawful

/-- Only the work state without work is hashed. -/
def controlRuntime : Runtime :=
  { plainRuntime with
    host := { plainHost with
      sha256 := fun _ => plainWorkHash
      sha256_hex := fun _ => by decide
      workText := fun _ => plainWorkText } }

/-- A child is saved, dropped, and saved again after the policy of its session has changed. -/
def droppedWork : List StoreStep :=
  [.call ⟨0, true⟩ (.saveNativeConversation "key-1" plainConversation),
    .call ⟨1, true⟩ (.saveNativeWorkState "session-1"
      { plainWorkState with items := Dict.empty.set "work-1" plainWork } none),
    .call ⟨2, true⟩ (.saveNativeWorkState "session-1" plainWorkState none),
    .call ⟨3, true⟩ (.beginNativePolicyControl "key-1" plainControl),
    .call ⟨4, true⟩ (.completeNativePolicyControl "key-1" "session-1" "command-0"
      plainConfirmation none),
    .call ⟨5, true⟩ (.saveNativeWorkState "session-1"
      { scope := { plainScope with executionBindingHash := otherHash },
        items := Dict.empty.set "work-1" plainWork } none)]

/-- The effective binding of the child after the given number of these steps. -/
def droppedBinding (count : Nat) : Option String :=
  let store := (run (StoreRun.step controlRuntime) StoreRun.fresh (droppedWork.take count)).store
  ((store.data.nativeWork.get? "session-1").filter fun state =>
    (state.work? "work-1").isSome).map fun state => state.effectiveBinding (.work, "work-1")

/-- The child was first saved under another binding. -/
theorem dropped_work_rebound : droppedBinding 1 = none ∧ droppedBinding 2 = some emptyHash ∧
    droppedBinding 6 = some otherHash := by
  decide +kernel

end HarnessControl.State
