import HarnessControl.State.Stored

/-!
# Saving a record again

A record that the store holds passes the store's own comparisons when it is saved again with other
receipts in the places that the comparisons leave open.
-/

namespace HarnessControl.State

open HarnessControl.Library HarnessControl.Protocol

/-! ## Conversations -/

theorem evidenceProblem_self {α : Type} {key : α → String}
    {problem : α → Option α → Option String} {receipts : List α}
    (hunique : uniqueBy key receipts = true)
    (hproblem : ∀ receipt, problem receipt (some receipt) = none) :
    evidenceProblem key problem receipts receipts = none := by
  rw [evidenceProblem_eq_none]
  intro receipt hmem
  rw [find?_of_unique hunique hmem rfl]
  exact hproblem receipt

theorem completedUnfenced_self {α : Type} (key : α → String) (phase : α → Phase)
    (receipts : List α) : completedUnfenced key phase receipts receipts = false := by
  unfold completedUnfenced
  rw [List.any_eq_false]
  intro receipt hmem
  have hprior : (receipts.any fun prior => key prior == key receipt) = true :=
    List.any_eq_true.mpr ⟨receipt, hmem, beq_self_eq_true _⟩
  rw [hprior]
  simp

/-- The lists of receipts of a valid conversation have unique keys. -/
structure UniqueReceipts (conversation : NativeConversation) : Prop where
  goals : uniqueBy GoalControlReceipt.commandId conversation.goalControls = true
  feedback : uniqueBy FeedbackReceipt.commandId conversation.feedbackSubmissions = true
  transitions :
    uniqueBy ConfigurationTransition.transitionId conversation.configurationTransitions = true
  injections : uniqueBy InjectionReceipt.commandId conversation.injections = true

theorem receiptList_unique {α : Type} {key : α → String} {valid : α → Bool} {receipts : List α}
    (h : receiptList key valid receipts = true) : uniqueBy key receipts = true := by
  unfold receiptList at h
  rw [Bool.and_eq_true] at h
  exact h.2

variable {schemas : PayloadSchemas} {conversation : NativeConversation}

theorem NativeConversation.valid_unique (h : conversation.valid schemas = true) :
    UniqueReceipts conversation := by
  unfold NativeConversation.valid at h
  simp only [Bool.and_eq_true] at h
  rcases h with ⟨⟨⟨⟨⟨⟨⟨⟨⟨-, -⟩, hgoals⟩, hfeedback⟩, -⟩, -⟩, htransitions⟩, -⟩, hinjections⟩, -⟩
  exact ⟨receiptList_unique hgoals, receiptList_unique hfeedback, receiptList_unique htransitions,
    receiptList_unique hinjections⟩

theorem scopeChanged_self (conversation next : NativeConversation) (transition replacement : Bool)
    (hsame : next.bindingHash = conversation.bindingHash ∧
      next.providerBindingHash = conversation.providerBindingHash ∧
      next.providerInstanceId = conversation.providerInstanceId ∧
      next.workspaceId = conversation.workspaceId ∧ next.cwd = conversation.cwd ∧
      next.approvalPolicy = conversation.approvalPolicy ∧
      next.approvalReviewer = conversation.approvalReviewer ∧
      next.nativeThreadId = conversation.nativeThreadId) :
    scopeChanged conversation next transition replacement = false := by
  unfold scopeChanged
  rcases hsame with ⟨h1, h2, h3, h4, h5, h6, h7, h8⟩
  simp [h1, h2, h3, h4, h5, h6, h7, h8]

theorem saveNativeConversationProblem_self {stored : Nat} (hvalid : conversation.valid schemas = true)
    (fork : Option ForkReceipt) (injections : List InjectionReceipt) :
    saveNativeConversationProblem stored (some conversation)
      { conversation with fork, injections } = none := by
  have hunique := NativeConversation.valid_unique hvalid
  unfold saveNativeConversationProblem
  simp only [firstProblem_eq_none, List.forall_mem_cons, refuseIf_eq_none]
  refine ⟨?_, ?_, ?_, ?_, ?_, ?_, ?_, ?_, ?_, ?_, ?_, fun _ h => by cases h⟩
  · simp [previousReceipts]
  · exact evidenceProblem_self hunique.goals fun receipt => by simp [goalControlProblem]
  · exact completedUnfenced_self _ _ _
  · exact evidenceProblem_self hunique.feedback fun receipt => by simp [feedbackProblem]
  · exact completedUnfenced_self _ _ _
  · simp
  · simp
  · refine evidenceProblem_self hunique.transitions fun receipt => ?_
    rcases receipt with ⟨id, change, source, target, history, session, phase⟩
    cases phase <;> simp [transitionProblem]
  · exact completedUnfenced_self _ _ _
  · exact scopeChanged_self _ _ _ _ ⟨rfl, rfl, rfl, rfl, rfl, rfl, rfl, rfl⟩
  · simp

theorem key_of_identity {key : String} (h : identity key = true) :
    ¬(key = "" ∨ 512 < utf16Length key) := by
  unfold identity boundedText at h
  simp only [Bool.and_eq_true, decide_eq_true_eq] at h
  rintro (rfl | hlong)
  · rw [show utf16Length "" = 0 by decide] at h
    omega
  · omega

variable {runtime : Runtime} {moment : Moment} {store : RunnerStore}

theorem RunnerStore.saveNativeConversation_key {key : String}
    (h : (store.saveNativeConversation runtime moment key conversation).failure = none) :
    ¬(key = "" ∨ 512 < utf16Length key) := by
  intro hkey
  unfold RunnerStore.saveNativeConversation at h
  rw [if_pos hkey] at h
  cases h

theorem RunnerStore.saveNativeConversation_eq {key : String}
    (hkey : ¬(key = "" ∨ 512 < utf16Length key))
    (hvalid : conversation.valid runtime.schemas = true) (hwritten : moment.written = true)
    (hadmitted : saveNativeConversationProblem store.data.nativeConversations.size
      (store.data.nativeConversations.get? key) conversation = none) :
    (store.saveNativeConversation runtime moment key conversation).failure = none ∧
      (store.saveNativeConversation runtime moment key conversation).state.data =
        { store.data with
          nativeConversations := store.data.nativeConversations.set key conversation } := by
  have hparse : (nativeConversationSchema runtime.schemas).parse conversation =
      some conversation := Schema.refine_fixed.mpr hvalid
  unfold RunnerStore.saveNativeConversation
  rw [if_neg hkey, hparse]
  dsimp only
  rw [hadmitted]
  dsimp only
  unfold RunnerStore.attempt
  rw [hwritten]
  exact ⟨rfl, rfl⟩

theorem RunnerStore.saveNativeConversation_saved {key : String}
    (h : (store.saveNativeConversation runtime moment key conversation).failure = none) :
    saveNativeConversationProblem store.data.nativeConversations.size
        (store.data.nativeConversations.get? key) conversation = none ∧
      (store.saveNativeConversation runtime moment key conversation).state.data.nativeConversations =
        store.data.nativeConversations.set key conversation := by
  have hrecords : RecordsAfter runtime moment store (.saveNativeConversation key conversation) _ :=
    store.saveNativeConversation_records key conversation
  rcases hrecords with ⟨-, hsilent⟩ | ⟨-, hsaved⟩
  · have hsaves := hsilent h
    cases hsaves
  · cases hsaved with
    | conversation valid admitted reviews conversations work => exact ⟨admitted, conversations⟩

/-! ## Work states -/

theorem findBinding_self {bindings : List ExecutionBinding}
    (hunique : uniqueBy (fun binding => (binding.kind, binding.admissionId)) bindings = true)
    {binding : ExecutionBinding} (hmem : binding ∈ bindings) :
    findBinding bindings binding = some binding := by
  have hfind := find?_of_unique hunique hmem rfl
  unfold findBinding
  rw [← hfind]
  congr 1
  funext other
  exact Bool.eq_iff_iff.mpr (by simp [Prod.ext_iff])

theorem GoalObservation.progresses_self (goal : GoalObservation) :
    GoalObservation.progresses goal goal = true := by
  unfold GoalObservation.progresses
  simp

/-- What the schema says about the lists of a work state. -/
structure UniqueWork (state : NativeWorkState) : Prop where
  items : ∀ entry ∈ state.items.entries, entry.2.workId = entry.1
  bindings : uniqueBy (fun binding => (binding.kind, binding.admissionId))
    state.executionBindings = true
  goals : uniqueBy GoalAdmission.admissionId state.goals = true
  roots : uniqueBy RootExecution.admissionId state.rootExecutions = true
  reconciliations : uniqueBy Reconciliation.commandId state.reconciliations = true
  forks : uniqueBy ChildForkReceipt.commandId state.forks = true

variable {state : NativeWorkState}

theorem NativeWorkState.valid_unique (h : state.valid schemas = true) : UniqueWork state := by
  unfold NativeWorkState.valid at h
  simp only [Bool.and_eq_true] at h
  rcases h with ⟨⟨⟨⟨⟨⟨⟨⟨-, hitems⟩, -⟩, hbindings⟩, hgoals⟩, -⟩, hroots⟩, hreconciliations⟩, hforks⟩
  refine ⟨fun entry hmem => ?_, hbindings.2, hgoals.2, receiptList_unique hroots,
    receiptList_unique hreconciliations, receiptList_unique hforks⟩
  unfold workDictionary at hitems
  have hentry := List.all_eq_true.mp hitems entry hmem
  simp only [Bool.and_eq_true, beq_iff_eq] at hentry
  exact hentry.2

theorem saveNativeWorkStateProblem_self {stored : Nat} (h : WorkConsistent schemas state) (forks : List ChildForkReceipt)
    (hforks : ∀ receipt ∈ state.forks, forkKept { state with forks } receipt = true) :
    saveNativeWorkStateProblem stored (some state) { state with forks } = none := by
  have hunique := NativeWorkState.valid_unique h.valid
  unfold saveNativeWorkStateProblem
  simp only [firstProblem_eq_none, List.forall_mem_cons, refuseIf_eq_none, Bool.not_eq_false',
    List.all_eq_true, decide_eq_false_iff_not, Nat.not_lt, List.any_eq_false, Option.any_some,
    Option.elim_some, bne_self_eq_false, Bool.and_not_self, Option.isNone_some, Bool.false_and]
  refine ⟨trivial, trivial, h.items, h.retired, ?_, trivial, ?_, ?_, h.proofs, h.custody, ?_,
    hforks, ?_, ?_, h.roots, ?_, fun _ h => by cases h⟩
  · intro entry hmem
    rw [hunique.items entry hmem]
    simp
  · intro binding hmem
    unfold bindingAccepted
    rw [Option.any_some, findBinding_self hunique.bindings hmem]
    have hadmitted : binding.admitted { state with forks } = true := h.bindings binding hmem
    rw [hadmitted]
    rfl
  · intro binding hmem
    unfold bindingKept
    rw [findBinding_self hunique.bindings hmem]
    exact beq_self_eq_true _
  · intro entry hmem
    unfold custodyKept
    rw [show state.custody.get? entry.1 = some entry.2 from Dict.get?_eq_some_iff.mpr hmem]
    simp
  · intro receipt hmem
    unfold reconciliationKept
    rw [find?_of_unique hunique.reconciliations hmem rfl]
    exact beq_self_eq_true _
  · intro root hmem
    unfold rootKept
    rw [find?_of_unique hunique.roots hmem rfl]
    simp
  · intro goal hmem
    unfold goalKept
    rw [find?_of_unique hunique.goals hmem rfl]
    cases hsnapshot : goal.snapshot <;> cases hphase : goal.phase <;>
      simp [hsnapshot, hphase, GoalObservation.progresses_self]

theorem RunnerStore.saveNativeWorkState_eq {sessionId : String}
    (hkept : state.kept = state) (hvalid : state.valid runtime.schemas = true)
    (hwritten : moment.written = true)
    (hadmitted : saveNativeWorkStateProblem store.data.nativeWork.size
      (store.data.nativeWork.get? sessionId) state = none) :
    (store.saveNativeWorkState runtime moment sessionId state none).failure = none ∧
      (store.saveNativeWorkState runtime moment sessionId state none).state.data =
        { store.data with nativeWork := store.data.nativeWork.set sessionId state } := by
  have hparse : (nativeWorkStateSchema runtime.schemas).parse state = some state :=
    Schema.normalized_fixed.mpr ⟨hkept, hvalid⟩
  unfold RunnerStore.saveNativeWorkState
  rw [hparse]
  dsimp only
  rw [hadmitted]
  dsimp only [Option.any_none]
  unfold RunnerStore.attempt
  rw [hwritten]
  exact ⟨rfl, rfl⟩

theorem RunnerStore.saveNativeWorkState_saved {sessionId : String} {input : NativeWorkState}
    {event : Option HarnessEvent}
    (h : (store.saveNativeWorkState runtime moment sessionId input event).failure = none) :
    saveNativeWorkStateProblem store.data.nativeWork.size (store.data.nativeWork.get? sessionId)
        input.kept = none ∧
      (store.saveNativeWorkState runtime moment sessionId input event).state.data.nativeWork =
        store.data.nativeWork.set sessionId input.kept := by
  have hrecords : RecordsAfter runtime moment store (.saveNativeWorkState sessionId input event) _ :=
    store.saveNativeWorkState_records sessionId input event
  rcases hrecords with ⟨-, hsilent⟩ | ⟨-, hsaved⟩
  · have hsaves := hsilent h
    cases hsaves
  · cases hsaved with
    | work parsed admitted reviews conversations work =>
      rcases Schema.normalized_parse parsed with ⟨rfl, -⟩
      exact ⟨admitted, work⟩

end HarnessControl.State
