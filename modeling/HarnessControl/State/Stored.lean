import HarnessControl.State.Calls
import HarnessControl.State.EventRetention

/-!
# What the store holds

In every store that calls and restarts can reach, the conversations satisfy their schema and the
work states show by themselves what `saveNativeWorkState` asks of a state.
-/

namespace HarnessControl.State

open HarnessControl.Library HarnessControl.Protocol

/-- What `saveNativeWorkState` asks of a state without looking at the stored one. -/
structure WorkConsistent (schemas : PayloadSchemas) (state : NativeWorkState) : Prop where
  kept : state.kept = state
  valid : state.valid schemas = true
  items : state.items.size ≤ 128
  retired : state.retired.size ≤ 1024
  proofs : state.custody.size ≤ 1152
  bindings : ∀ binding ∈ state.executionBindings, binding.admitted state = true
  custody : ∀ entry ∈ state.custody.entries, custodyMatches state entry.1 entry.2 = true
  roots : ∀ root ∈ state.rootExecutions, root.continues state.goals = true

structure Sound (schemas : PayloadSchemas) (data : RunnerStateData) : Prop where
  conversations : ∀ key conversation, data.nativeConversations.get? key = some conversation →
    conversation.valid schemas = true
  work : ∀ sessionId state, data.nativeWork.get? sessionId = some state →
    WorkConsistent schemas state

structure StoreSound (schemas : PayloadSchemas) (store : RunnerStore) : Prop where
  memory : Sound schemas store.data
  file : ∀ data ∈ store.disk, Sound schemas data

/-- A store that calls and restarts have led to. -/
def Reachable (runtime : Runtime) (store : RunnerStore) : Prop :=
  ∃ steps, (run (StoreRun.step runtime) StoreRun.fresh steps).store = store

theorem Reachable.perform {runtime : Runtime} {store : RunnerStore} (h : Reachable runtime store)
    (moment : Moment) (action : StoreAction) :
    Reachable runtime (store.perform runtime moment action).state := by
  rcases h with ⟨steps, rfl⟩
  refine ⟨steps ++ [.call moment action], ?_⟩
  rw [run_append]
  rfl

/-! ## Work states -/

theorem WorkConsistent.of_admitted {schemas : PayloadSchemas} {stored : Nat}
    {previous : Option NativeWorkState} {input state : NativeWorkState}
    (hparse : (nativeWorkStateSchema schemas).parse input = some state)
    (hadmitted : saveNativeWorkStateProblem stored previous state = none) :
    WorkConsistent schemas state := by
  rcases Schema.normalized_fixed.mp ((nativeWorkStateSchema schemas).parse_parsed hparse) with
    ⟨hkept, hvalid⟩
  unfold saveNativeWorkStateProblem at hadmitted
  simp only [firstProblem_eq_none, List.forall_mem_cons, refuseIf_eq_none, Bool.not_eq_false',
    List.all_eq_true, decide_eq_false_iff_not, Nat.not_lt] at hadmitted
  rcases hadmitted with ⟨-, -, hitems, hretired, -, -, hbindings, -, hproofs, hcustody, -, -, -, -,
    hroots, -⟩
  refine ⟨hkept, hvalid, hitems, hretired, hproofs, fun binding hmem => ?_, hcustody, hroots⟩
  have haccepted := hbindings binding hmem
  unfold bindingAccepted at haccepted
  rw [Bool.and_eq_true] at haccepted
  exact haccepted.1

theorem retainBinding_admitted {state : NativeWorkState} {bindingHash : String}
    {admissions : List (AdmissionKind × String)}
    (hadmissions : ∀ admission ∈ admissions,
      ExecutionBinding.admitted ⟨admission.1, admission.2, bindingHash⟩ state = true)
    {bindings : List ExecutionBinding} (h : ∀ binding ∈ bindings, binding.admitted state = true) :
    ∀ binding ∈ admissions.foldl (retainBinding bindingHash) bindings,
      binding.admitted state = true := by
  induction admissions generalizing bindings with
  | nil => exact h
  | cons admission rest ih =>
    apply ih fun other hmem => hadmissions other (List.mem_cons_of_mem admission hmem)
    intro binding hmem
    unfold retainBinding at hmem
    split at hmem
    · exact h binding hmem
    · rcases List.mem_append.mp hmem with hold | hnew
      · exact h binding hold
      · rw [List.mem_singleton.mp hnew]
        exact hadmissions admission List.mem_cons_self

theorem WorkConsistent.rebound {schemas : PayloadSchemas} {work : NativeWorkState}
    (h : WorkConsistent schemas work) {bindingHash : String}
    (hvalid : (work.rebound bindingHash).valid schemas = true) :
    WorkConsistent schemas (work.rebound bindingHash) where
  kept := congrArg (fun custody => { work.rebound bindingHash with custody })
    (congrArg NativeWorkState.custody h.kept)
  valid := hvalid
  items := h.items
  retired := h.retired
  proofs := h.proofs
  bindings := by
    change ∀ binding ∈ work.admissions.foldl (retainBinding work.scope.executionBindingHash)
      work.executionBindings, binding.admitted work = true
    apply retainBinding_admitted _ h.bindings
    intro admission hmem
    unfold NativeWorkState.admissions at hmem
    rcases List.mem_append.mp hmem with hroot | hwork
    · rcases List.mem_map.mp hroot with ⟨root, hadmitted, rfl⟩
      exact List.any_eq_true.mpr ⟨root, hadmitted, beq_self_eq_true _⟩
    · rcases List.mem_map.mp hwork with ⟨id, hadmitted, rfl⟩
      change (work.work? id).isSome = true
      unfold NativeWorkState.work?
      rw [Option.isSome_or, Bool.or_eq_true, Dict.isSome_get?_iff, Dict.isSome_get?_iff]
      exact List.mem_append.mp hadmitted
  custody := h.custody
  roots := h.roots

/-! ## Calls and restarts -/

variable {runtime : Runtime} {store : RunnerStore}

theorem set_stored {α : Type} {p : α → Prop} {d : Dict String α} {key : String} {value : α}
    (h : ∀ other found, d.get? other = some found → p found) (hvalue : p value) :
    ∀ other found, (d.set key value).get? other = some found → p found := by
  intro other found hfound
  rw [Dict.get?_set] at hfound
  split at hfound
  · cases hfound
    exact hvalue
  · exact h other found hfound

theorem erase_stored {α : Type} {p : α → Prop} {d : Dict String α} {key : String}
    (h : ∀ other found, d.get? other = some found → p found) :
    ∀ other found, (d.erase key).get? other = some found → p found := by
  intro other found hfound
  by_cases heq : other = key
  · rw [heq, Dict.get?_erase_self] at hfound
    cases hfound
  · rw [Dict.get?_erase_of_ne _ heq] at hfound
    exact h other found hfound

theorem Sound.perform (h : Sound runtime.schemas store.data) (moment : Moment)
    (action : StoreAction) :
    Sound runtime.schemas (store.perform runtime moment action).state.data := by
  have hrecords : RecordsAfter runtime moment store action _ := store.perform_records action
  generalize store.perform runtime moment action = attempt at hrecords
  rcases hrecords with ⟨hsame, -⟩ | ⟨-, hsaved⟩
  · constructor
    · intro key conversation hfound
      rw [hsame.conversations] at hfound
      exact h.conversations key conversation hfound
    · intro sessionId state hfound
      rw [hsame.work] at hfound
      exact h.work sessionId state hfound
  · cases hsaved with
    | review parsed admitted reviews conversations work =>
      exact ⟨conversations ▸ h.conversations, work ▸ h.work⟩
    | cleared matched reviews conversations work =>
      exact ⟨conversations ▸ h.conversations, work ▸ h.work⟩
    | conversation valid admitted reviews conversations work =>
      exact ⟨conversations ▸ set_stored h.conversations valid, work ▸ h.work⟩
    | retired reviews conversations work =>
      exact ⟨conversations ▸ erase_stored h.conversations, work ▸ h.work⟩
    | work parsed admitted reviews conversations work =>
      exact ⟨conversations ▸ h.conversations,
        work ▸ set_stored h.work (WorkConsistent.of_admitted parsed admitted)⟩
    | workRemoved stored removable reviews conversations work =>
      exact ⟨conversations ▸ h.conversations, work ▸ erase_stored h.work⟩
    | controlBegun stored owner phase owned settled valid reviews conversations sameWork =>
      exact ⟨conversations ▸ set_stored h.conversations valid, sameWork ▸ h.work⟩
    | controlCompleted stored owner confirmable valid validWork reviews conversations nextWork =>
      exact ⟨conversations ▸ set_stored h.conversations valid,
        nextWork ▸ set_stored h.work ((h.work _ _ owner).rebound validWork)⟩

theorem Sound.empty (schemas : PayloadSchemas) : Sound schemas emptyRunnerState :=
  ⟨fun _ _ h => (nomatch h), fun _ _ h => (nomatch h)⟩

theorem StoreSound.perform (h : StoreSound runtime.schemas store) (moment : Moment)
    (action : StoreAction) :
    StoreSound runtime.schemas (store.perform runtime moment action).state := by
  have hmemory : Sound runtime.schemas (store.perform runtime moment action).state.data :=
    h.memory.perform moment action
  refine ⟨hmemory, fun data hdata => ?_⟩
  have heffect : EventEffect runtime.options store action.events
      (store.perform runtime moment action) := store.perform_effect action
  cases hfailure : (store.perform runtime moment action).failure with
  | some failure =>
    rw [(heffect.threw (by rw [hfailure]; nofun)).2] at hdata
    exact h.file data hdata
  | none =>
    rcases (heffect.returned hfailure).2 with hdisk | ⟨hsame, -⟩
    · rw [hdisk] at hdata
      cases hdata
      exact hmemory
    · rw [hsame] at hdata
      exact h.file data hdata

theorem StoreSound.reopen (h : StoreSound runtime.schemas store) {now : Int} {opened : RunnerStore}
    (hopen : store.reopen runtime now = some opened) : StoreSound runtime.schemas opened := by
  unfold RunnerStore.reopen at hopen
  rcases Option.map_eq_some_iff.mp hopen with ⟨data, hread, rfl⟩
  refine ⟨?_, h.file⟩
  suffices hdata : Sound runtime.schemas data by exact ⟨hdata.conversations, hdata.work⟩
  cases hdisk : store.disk with
  | none =>
    rw [hdisk] at hread
    cases hread
    exact Sound.empty _
  | some file =>
    have hfile := h.file file hdisk
    rw [hdisk] at hread
    unfold readRunnerState RunnerStateData.parse at hread
    simp only [Option.bind_eq_bind, Option.bind_eq_some_iff, Option.pure_def,
      Option.some.injEq] at hread
    rcases hread with ⟨-, -, -, -, -, -, -, -, conversations, hconversations, work, hwork, -, -, rfl⟩
    constructor
    · intro key conversation hfound
      rcases Schema.parseDict_found hconversations hfound with ⟨stored, -, hparse⟩
      rcases Schema.refine_parse hparse with ⟨rfl, hvalid⟩
      exact hvalid
    · intro sessionId state hfound
      rcases Schema.parseDict_found hwork hfound with ⟨stored, hstored, hparse⟩
      have hconsistent := hfile.work sessionId stored hstored
      rwa [(Schema.normalized_parse hparse).1, hconsistent.kept]

theorem StoreSound.step {run : StoreRun} (h : StoreSound runtime.schemas run.store)
    (step : StoreStep) : StoreSound runtime.schemas (run.step runtime step).store := by
  cases step with
  | call moment action => exact h.perform moment action
  | restart now =>
    unfold StoreRun.step
    dsimp only
    cases hopen : run.store.reopen runtime now with
    | none => exact h
    | some opened => exact h.reopen hopen

theorem Reachable.sound (h : Reachable runtime store) : StoreSound runtime.schemas store := by
  rcases h with ⟨steps, rfl⟩
  have hfresh : StoreSound runtime.schemas StoreRun.fresh.store :=
    ⟨Sound.empty _, fun _ hdata => (nomatch hdata)⟩
  have halways := always_of_inv (I := fun run : StoreRun => StoreSound runtime.schemas run.store)
    (fun run step h => StoreSound.step h step) hfresh steps
  exact halways.last

end HarnessControl.State
