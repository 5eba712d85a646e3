import Mathlib
import HarnessControl.Library.Evidence
import HarnessControl.State.Calls

/-!
# Dispatch evidence

The receipts of a conversation and of a work state are evidence of what was dispatched: over all
versions of a record none may be removed or rewritten, and none may be completed that was not
pending before.  The store compares most receipts with the stored ones; it does not compare
injections, the fork and the rollback, it takes a new record as it is, and one proven transition
lets any other one complete.
-/

namespace HarnessControl.State

open HarnessControl.Library HarnessControl.Protocol

/-! ## Kinds of receipts -/

def policyKind : ReceiptKind PolicyControlReceipt PolicyControlReceipt where
  identity receipt := { receipt with phase := .pending, result := none }
  completed receipt := receipt.phase == .completed

def goalKind : ReceiptKind GoalControlReceipt GoalControlReceipt where
  identity receipt := { receipt with phase := .pending, result := none }
  completed receipt := receipt.phase == .completed

def feedbackKind : ReceiptKind FeedbackReceipt FeedbackReceipt where
  identity receipt := { receipt with phase := .pending, result := none }
  completed receipt := receipt.phase == .completed

def transitionKind : ReceiptKind ConfigurationTransition ConfigurationTransition where
  identity receipt := { receipt with phase := .pending }
  completed receipt := receipt.phase == .completed

def injectionKind : ReceiptKind InjectionReceipt InjectionReceipt where
  identity receipt := { receipt with phase := .pending, result := none }
  completed receipt := receipt.phase == .completed

def rollbackKind : ReceiptKind RollbackReceipt (String × String × String) where
  identity receipt := (receipt.commandId, receipt.sourceHash, receipt.targetHash)
  completed receipt := receipt.phase == .completed

def forkKind : ReceiptKind ForkReceipt ForkReceipt where
  identity receipt := { receipt with phase := .pending, result := none }
  completed receipt := receipt.phase == .completed

def childForkKind : ReceiptKind ChildForkReceipt ChildForkReceipt where
  identity receipt := { receipt with phase := .pending, result := none }
  completed receipt := receipt.phase == .completed

def reconciliationKind : ReceiptKind Reconciliation Reconciliation where
  identity receipt := receipt
  completed _ := false

/-! ## Versions of a conversation -/

/-- Each completed transition was completed before, or belongs to the binding and the session that
this version installs. -/
def InstalledBy (earlier : List NativeConversation) (version : NativeConversation) : Prop :=
  ∀ transition ∈ version.configurationTransitions, transition.phase = .completed →
    (∃ old ∈ earlier.getLast?, transition ∈ old.configurationTransitions) ∨
    transition.targetBindingHash = version.bindingHash ∧
      transition.targetSessionId = version.lastSessionId

structure ConversationEvidence (versions : List NativeConversation) : Prop where
  policyControls : policyKind.Evidence (versions.map (·.policyControls))
  goalControls : goalKind.Evidence (versions.map (·.goalControls))
  feedbackSubmissions : feedbackKind.Evidence (versions.map (·.feedbackSubmissions))
  configurationTransitions : transitionKind.Evidence (versions.map (·.configurationTransitions))
  injections : injectionKind.Evidence (versions.map (·.injections))
  rollback : rollbackKind.Evidence (versions.map (·.rollback.toList))
  fork : forkKind.Evidence (versions.map (·.fork.toList))
  installed : Throughout InstalledBy versions

structure WorkEvidence (versions : List NativeWorkState) : Prop where
  forks : childForkKind.Evidence (versions.map (·.forks))
  reconciliations : reconciliationKind.Evidence (versions.map (·.reconciliations))

structure ConversationAdvances (previous : Option NativeConversation) (next : NativeConversation) :
    Prop where
  policyControls : policyKind.Advances (previousReceipts (·.policyControls) previous)
    next.policyControls
  goalControls : goalKind.Advances (previousReceipts (·.goalControls) previous) next.goalControls
  feedbackSubmissions : feedbackKind.Advances (previousReceipts (·.feedbackSubmissions) previous)
    next.feedbackSubmissions
  configurationTransitions : transitionKind.Advances
    (previousReceipts (·.configurationTransitions) previous) next.configurationTransitions
  injections : injectionKind.Advances (previousReceipts (·.injections) previous) next.injections
  rollback : rollbackKind.Advances (previousReceipts (·.rollback.toList) previous)
    next.rollback.toList
  fork : forkKind.Advances (previousReceipts (·.fork.toList) previous) next.fork.toList
  installed : InstalledBy previous.toList next

structure WorkAdvances (previous : Option NativeWorkState) (next : NativeWorkState) : Prop where
  forks : childForkKind.Advances (previous.elim [] (·.forks)) next.forks
  reconciliations :
    reconciliationKind.Advances (previous.elim [] (·.reconciliations)) next.reconciliations

theorem evidence_map_concat {α ρ ι : Type} {kind : ReceiptKind ρ ι} {field : α → List ρ}
    {versions : List α} {next : α} :
    kind.Evidence ((versions ++ [next]).map field) ↔
      kind.Evidence (versions.map field) ∧
        kind.Advances (versions.getLast?.elim [] field) (field next) := by
  have hlast : (versions.map field).getLast?.getD [] = versions.getLast?.elim [] field := by
    rw [List.getLast?_map]
    cases versions.getLast? <;> rfl
  rw [List.map_append, List.map_singleton, ReceiptKind.evidence_concat, hlast]

theorem getLast?_toList {α : Type} (previous : Option α) :
    previous.toList.getLast? = previous := by
  cases previous <;> rfl

variable {next : NativeConversation}

theorem conversationEvidence_concat {versions : List NativeConversation} :
    ConversationEvidence (versions ++ [next]) ↔
      ConversationEvidence versions ∧ ConversationAdvances versions.getLast? next := by
  have hinstalled : InstalledBy versions next ↔ InstalledBy versions.getLast?.toList next := by
    unfold InstalledBy
    rw [getLast?_toList]
  constructor
  · intro h
    have hpolicy := evidence_map_concat.mp h.policyControls
    have hgoals := evidence_map_concat.mp h.goalControls
    have hfeedback := evidence_map_concat.mp h.feedbackSubmissions
    have htransitions := evidence_map_concat.mp h.configurationTransitions
    have hinjections := evidence_map_concat.mp h.injections
    have hrollback := evidence_map_concat.mp h.rollback
    have hfork := evidence_map_concat.mp h.fork
    have hinstalls := throughout_concat.mp h.installed
    exact ⟨⟨hpolicy.1, hgoals.1, hfeedback.1, htransitions.1, hinjections.1, hrollback.1, hfork.1,
        hinstalls.1⟩,
      ⟨hpolicy.2, hgoals.2, hfeedback.2, htransitions.2, hinjections.2, hrollback.2, hfork.2,
        hinstalled.mp hinstalls.2⟩⟩
  · rintro ⟨h, hnext⟩
    exact ⟨evidence_map_concat.mpr ⟨h.policyControls, hnext.policyControls⟩,
      evidence_map_concat.mpr ⟨h.goalControls, hnext.goalControls⟩,
      evidence_map_concat.mpr ⟨h.feedbackSubmissions, hnext.feedbackSubmissions⟩,
      evidence_map_concat.mpr ⟨h.configurationTransitions, hnext.configurationTransitions⟩,
      evidence_map_concat.mpr ⟨h.injections, hnext.injections⟩,
      evidence_map_concat.mpr ⟨h.rollback, hnext.rollback⟩,
      evidence_map_concat.mpr ⟨h.fork, hnext.fork⟩,
      throughout_concat.mpr ⟨h.installed, hinstalled.mpr hnext.installed⟩⟩

theorem workEvidence_concat {versions : List NativeWorkState} {next : NativeWorkState} :
    WorkEvidence (versions ++ [next]) ↔
      WorkEvidence versions ∧ WorkAdvances versions.getLast? next := by
  constructor
  · intro h
    have hforks := evidence_map_concat.mp h.forks
    have hreconciliations := evidence_map_concat.mp h.reconciliations
    exact ⟨⟨hforks.1, hreconciliations.1⟩, ⟨hforks.2, hreconciliations.2⟩⟩
  · rintro ⟨h, hnext⟩
    exact ⟨evidence_map_concat.mpr ⟨h.forks, hnext.forks⟩,
      evidence_map_concat.mpr ⟨h.reconciliations, hnext.reconciliations⟩⟩

theorem ConversationEvidence.nil : ConversationEvidence [] :=
  ⟨.nil, .nil, .nil, .nil, .nil, .nil, .nil, Throughout.nil _⟩

theorem WorkEvidence.nil : WorkEvidence [] := ⟨.nil, .nil⟩

/-! ## What the store checks -/

section Checks

variable {ρ : Type} {kind : ReceiptKind ρ ρ} {key : ρ → String}
  {problem : ρ → Option ρ → Option String} {previous next : List ρ}

theorem found_of_evidence (hevidence : evidenceProblem key problem previous next = none)
    (hproblem : ∀ receipt found, problem receipt found = none → ∃ successor, found = some successor ∧
      kind.identity successor = kind.identity receipt ∧
      (kind.completed receipt = true → successor = receipt)) :
    ∀ receipt ∈ previous, ∃ successor,
      next.find? (fun other => key other == key receipt) = some successor ∧
      kind.identity successor = kind.identity receipt ∧
      (kind.completed receipt = true → successor = receipt) :=
  fun receipt hmem => hproblem receipt _ (evidenceProblem_eq_none.mp hevidence receipt hmem)

theorem kept_of_found (hfound : ∀ receipt ∈ previous, ∃ successor,
      next.find? (fun other => key other == key receipt) = some successor ∧
      kind.identity successor = kind.identity receipt ∧
      (kind.completed receipt = true → successor = receipt)) : kind.Kept previous next := by
  intro receipt hmem
  rcases hfound receipt hmem with ⟨successor, hfind, hidentity, hsame⟩
  exact ⟨successor, List.mem_of_find?_eq_some hfind, hidentity, hsame⟩

theorem fenced_of_found {phase : ρ → Phase} (hphase : ∀ receipt, kind.completed receipt =
      (phase receipt == .completed))
    (hunique : uniqueBy key next = true)
    (hfound : ∀ receipt ∈ previous, ∃ successor,
      next.find? (fun other => key other == key receipt) = some successor ∧
      kind.identity successor = kind.identity receipt ∧
      (kind.completed receipt = true → successor = receipt))
    (hfences : completedUnfenced key phase previous next = false) :
    kind.Fenced previous next := by
  intro receipt hmem hcompleted
  unfold completedUnfenced at hfences
  rw [List.any_eq_false] at hfences
  have hprior := hfences receipt hmem
  rw [← hphase, hcompleted, Bool.true_and, Bool.not_eq_true', Bool.not_eq_false,
    List.any_eq_true] at hprior
  rcases hprior with ⟨prior, hprevious, hkey⟩
  rw [beq_iff_eq] at hkey
  rcases hfound prior hprevious with ⟨successor, hfind, hidentity, -⟩
  rw [find?_of_unique hunique hmem hkey.symm] at hfind
  cases hfind
  exact ⟨prior, hprevious, hidentity.symm⟩

end Checks

theorem goalControl_successor (receipt : GoalControlReceipt) (found : Option GoalControlReceipt)
    (h : goalControlProblem receipt found = none) : ∃ successor, found = some successor ∧
      goalKind.identity successor = goalKind.identity receipt ∧
      (goalKind.completed receipt = true → successor = receipt) := by
  unfold goalControlProblem at h
  dsimp only at h
  split at h
  · rename_i hkept
    rcases (Option.any_eq_true _ _).mp hkept with ⟨successor, hfound, hsame⟩
    simp only [Bool.and_eq_true, Bool.or_eq_true, beq_iff_eq] at hsame
    have hidentity := congrArg goalKind.identity hsame.1
    refine ⟨successor, hfound, hidentity, fun hcompleted => ?_⟩
    rcases hsame.2 with hpending | heq
    · change (receipt.phase == .completed) = true at hcompleted
      rw [hpending] at hcompleted
      cases hcompleted
    · exact heq
  · cases h

theorem feedback_successor (receipt : FeedbackReceipt) (found : Option FeedbackReceipt)
    (h : feedbackProblem receipt found = none) : ∃ successor, found = some successor ∧
      feedbackKind.identity successor = feedbackKind.identity receipt ∧
      (feedbackKind.completed receipt = true → successor = receipt) := by
  cases found with
  | none => cases h
  | some successor =>
    unfold feedbackProblem at h
    dsimp only at h
    split at h
    · rename_i hsame
      simp only [Bool.and_eq_true, Bool.or_eq_true, beq_iff_eq] at hsame
      have hidentity := congrArg feedbackKind.identity hsame.1
      refine ⟨successor, rfl, hidentity, fun hcompleted => ?_⟩
      rcases hsame.2 with hpending | heq
      · change (receipt.phase == .completed) = true at hcompleted
        rw [hpending] at hcompleted
        cases hcompleted
      · exact heq
    · cases h

theorem transition_successor (proven : Bool) (receipt : ConfigurationTransition)
    (found : Option ConfigurationTransition) (h : transitionProblem proven receipt found = none) :
    ∃ successor, found = some successor ∧
      transitionKind.identity successor = transitionKind.identity receipt ∧
      (transitionKind.completed receipt = true → successor = receipt) := by
  unfold transitionProblem at h
  dsimp only at h
  split at h
  · rename_i hkept
    rcases (Option.any_eq_true _ _).mp hkept with ⟨successor, hfound, hsame⟩
    simp only [Bool.and_eq_true, beq_iff_eq, Bool.not_eq_true'] at hsame
    have hidentity := congrArg transitionKind.identity hsame.1.1
    refine ⟨successor, hfound, hidentity, fun hcompleted => ?_⟩
    change (receipt.phase == .completed) = true at hcompleted
    have hphase := beq_iff_eq.mp hcompleted
    cases hsuccessor : successor.phase with
    | pending =>
      have hback := hsame.1.2
      rw [hphase, hsuccessor] at hback
      cases hback
    | completed =>
      have heq := hsame.1.1
      rw [hphase, ← hsuccessor] at heq
      exact heq
  · cases h

/-- What the store takes as it is given: injections, rollback and fork, the transitions of a new
record, and any transition completed beside a proven one. -/
structure Unchecked (previous : Option NativeConversation) (next : NativeConversation) : Prop where
  injections : injectionKind.Advances (previousReceipts (·.injections) previous) next.injections
  rollback : rollbackKind.Advances (previousReceipts (·.rollback.toList) previous)
    next.rollback.toList
  fork : forkKind.Advances (previousReceipts (·.fork.toList) previous) next.fork.toList
  transitions : previous = none → ∀ transition ∈ next.configurationTransitions,
    transition.phase = .pending
  installed : InstalledBy previous.toList next

theorem ConversationAdvances.unchecked {previous : Option NativeConversation} (h : ConversationAdvances previous next) :
    Unchecked previous next := by
  refine ⟨h.injections, h.rollback, h.fork, ?_, h.installed⟩
  intro hnew transition hmem
  subst hnew
  cases hphase : transition.phase with
  | pending => rfl
  | completed =>
    rcases h.configurationTransitions.fenced transition hmem (beq_iff_eq.mpr hphase) with
      ⟨receipt, hreceipt, -⟩
    cases hreceipt

theorem ConversationAdvances.of_admitted {schemas : PayloadSchemas} {stored : Nat}
    {previous : Option NativeConversation}
    (hvalid : next.valid schemas = true)
    (hadmitted : saveNativeConversationProblem stored previous next = none)
    (h : Unchecked previous next) : ConversationAdvances previous next := by
  unfold saveNativeConversationProblem at hadmitted
  simp only [firstProblem_eq_none, List.forall_mem_cons, refuseIf_eq_none] at hadmitted
  rcases hadmitted with ⟨hpolicy, hgoals, hgoalFences, hfeedback, hfeedbackFences, -, -,
    htransitions, htransitionFences, -⟩
  unfold NativeConversation.valid receiptList at hvalid
  simp only [Bool.and_eq_true] at hvalid
  rcases hvalid with ⟨⟨⟨⟨⟨⟨⟨⟨⟨-, -⟩, ⟨-, hgoalUnique⟩⟩, ⟨-, hfeedbackUnique⟩⟩, -⟩, -⟩,
    ⟨-, htransitionUnique⟩⟩, -⟩, -⟩, -⟩
  have hgoalsFound := found_of_evidence hgoals goalControl_successor
  have hfeedbackFound := found_of_evidence hfeedback feedback_successor
  have htransitionsFound := found_of_evidence htransitions (transition_successor _)
  refine ⟨?_, ⟨kept_of_found hgoalsFound, ?_⟩, ⟨kept_of_found hfeedbackFound, ?_⟩,
    ⟨kept_of_found htransitionsFound, ?_⟩, h.injections, h.rollback, h.fork, h.installed⟩
  · simp only [bne_eq_false_iff_eq] at hpolicy
    rw [hpolicy]
    exact ReceiptKind.Advances.refl _
  · exact fenced_of_found (fun _ => rfl) hgoalUnique hgoalsFound hgoalFences
  · exact fenced_of_found (fun _ => rfl) hfeedbackUnique hfeedbackFound hfeedbackFences
  · cases previous with
    | none =>
      intro transition hmem hcompleted
      have hphase := h.transitions rfl transition hmem
      change (transition.phase == .completed) = true at hcompleted
      rw [hphase] at hcompleted
      cases hcompleted
    | some old =>
      exact fenced_of_found (fun _ => rfl) htransitionUnique htransitionsFound htransitionFences

theorem ConversationAdvances.refl (conversation : NativeConversation) :
    ConversationAdvances (some conversation) conversation :=
  ⟨.refl _, .refl _, .refl _, .refl _, .refl _, .refl _, .refl _,
    fun _ hmem _ => Or.inl ⟨conversation, rfl, hmem⟩⟩

theorem WorkAdvances.refl (state : NativeWorkState) : WorkAdvances (some state) state :=
  ⟨.refl _, .refl _⟩

theorem WorkAdvances.of_admitted {stored : Nat} {previous : Option NativeWorkState}
    {state : NativeWorkState}
    (hadmitted : saveNativeWorkStateProblem stored previous state = none)
    (h : childForkKind.Fenced (previous.elim [] (·.forks)) state.forks) :
    WorkAdvances previous state := by
  unfold saveNativeWorkStateProblem at hadmitted
  simp only [firstProblem_eq_none, List.forall_mem_cons, refuseIf_eq_none, Bool.not_eq_false',
    List.all_eq_true] at hadmitted
  rcases hadmitted with ⟨-, -, -, -, -, -, -, -, -, -, -, hforks, hreconciliations, -⟩
  refine ⟨⟨?_, h⟩, ⟨?_, fun _ _ hcompleted => by cases hcompleted⟩⟩
  · intro receipt hmem
    have hkept := hforks receipt hmem
    unfold forkKept at hkept
    rcases (Option.any_eq_true _ _).mp hkept with ⟨successor, hfind, hsame⟩
    simp only [Bool.and_eq_true, Bool.or_eq_true, beq_iff_eq] at hsame
    have hkey : successor.commandId = receipt.commandId := by
      simpa using List.find?_some hfind
    refine ⟨successor, List.mem_of_find?_eq_some hfind, ?_, fun hcompleted => ?_⟩
    · change (⟨successor.commandId, successor.requestHash, successor.workId, _, _⟩ :
        ChildForkReceipt) = ⟨receipt.commandId, receipt.requestHash, receipt.workId, _, _⟩
      rw [hkey, hsame.1.1, hsame.1.2]
    · rcases hsame.2 with hpending | heq
      · change (receipt.phase == .completed) = true at hcompleted
        rw [hpending] at hcompleted
        cases hcompleted
      · exact heq
  · intro receipt hmem
    have hkept := hreconciliations receipt hmem
    unfold reconciliationKept at hkept
    rw [beq_iff_eq] at hkept
    exact ⟨receipt, List.mem_of_find?_eq_some hkept, rfl, fun _ => rfl⟩

/-! ## Policy controls -/

theorem policyChain_unique {before receipts : List PolicyControlReceipt}
    (h : policyChain before receipts = true) :
    (receipts.map PolicyControlReceipt.commandId).Nodup ∧
      ∀ receipt ∈ receipts, ∀ other ∈ before, other.commandId ≠ receipt.commandId := by
  induction receipts generalizing before with
  | nil => exact ⟨List.nodup_nil, fun _ hmem => nomatch hmem⟩
  | cons head tail ih =>
    unfold policyChain at h
    simp only [Bool.and_eq_true, List.all_eq_true, bne_iff_ne] at h
    rcases h with ⟨⟨⟨hhead, -⟩, -⟩, htail⟩
    rcases ih htail with ⟨hnodup, hbefore⟩
    constructor
    · rw [List.map_cons, List.nodup_cons]
      refine ⟨fun hmem => ?_, hnodup⟩
      rcases List.mem_map.mp hmem with ⟨receipt, hreceipt, heq⟩
      exact hbefore receipt hreceipt head (List.mem_cons_self) heq.symm
    · intro receipt hmem other hother
      rcases List.mem_cons.mp hmem with rfl | hrest
      · exact hhead other hother
      · exact hbefore receipt hrest other (List.mem_cons_of_mem head hother)

variable {receipt : PolicyControlReceipt}

theorem policyKind_completed {receipts : List PolicyControlReceipt}
    (hnodup : (receipts.map PolicyControlReceipt.commandId).Nodup) (hmem : receipt ∈ receipts)
    (hpending : receipt.phase = .pending) (result : ConversationResult) :
    policyKind.Advances receipts (receipts.map fun control =>
      if control.commandId = receipt.commandId then
        { receipt with phase := .completed, result := some result }
      else control) := by
  have hsame : ∀ control ∈ receipts, control.commandId = receipt.commandId → control = receipt :=
    fun control hcontrol heq => List.inj_on_of_nodup_map hnodup hcontrol hmem heq
  constructor
  · intro control hcontrol
    by_cases heq : control.commandId = receipt.commandId
    · have hcontrolEq := hsame control hcontrol heq
      subst hcontrolEq
      refine ⟨_, List.mem_map.mpr ⟨control, hcontrol, if_pos rfl⟩, rfl, fun hcompleted => ?_⟩
      change (control.phase == .completed) = true at hcompleted
      rw [hpending] at hcompleted
      cases hcompleted
    · exact ⟨control, List.mem_map.mpr ⟨control, hcontrol, if_neg heq⟩, rfl, fun _ => rfl⟩
  · intro next hnext _
    rcases List.mem_map.mp hnext with ⟨control, hcontrol, rfl⟩
    by_cases heq : control.commandId = receipt.commandId
    · rw [if_pos heq]
      exact ⟨receipt, hmem, rfl⟩
    · rw [if_neg heq]
      exact ⟨control, hcontrol, rfl⟩

theorem ConversationAdvances.begun {previous : NativeConversation}
    (hpending : receipt.phase = .pending) (inventory : Option String) :
    ConversationAdvances (some previous) { previous with
      policyControls := previous.policyControls ++
        [{ receipt with executionInventoryHash := inventory }] } := by
  have hreceipt : policyKind.completed { receipt with executionInventoryHash := inventory } =
      false := by
    change (receipt.phase == .completed) = false
    rw [hpending]
    rfl
  have hrefl := ConversationAdvances.refl previous
  exact { hrefl with policyControls := ReceiptKind.Advances.concat _ hreceipt }

theorem ConversationAdvances.confirmed {runtime : Runtime} {data : RunnerStateData}
    {key sessionId commandId : String} {previous : NativeConversation} {work : NativeWorkState} {result : ConversationResult} {now : Int}
    (hconfirmable : confirmableControl runtime data key sessionId commandId previous work =
      some receipt)
    (hvalid : NativeConversation.valid runtime.schemas (previous.rebound now receipt
      { receipt with phase := .completed, result := some result }) = true) :
    ConversationAdvances (some previous) (previous.rebound now receipt
      { receipt with phase := .completed, result := some result }) := by
  unfold confirmableControl at hconfirmable
  rw [Option.filter_eq_some_iff] at hconfirmable
  rcases hconfirmable with ⟨hfind, hguard⟩
  simp only [Bool.and_eq_true, beq_iff_eq] at hguard
  have hmem := List.mem_of_find?_eq_some hfind
  have hchain : policyChain [] (previous.rebound now receipt
      { receipt with phase := .completed, result := some result }).policyControls = true := by
    unfold NativeConversation.valid at hvalid
    simp only [Bool.and_eq_true] at hvalid
    exact hvalid.1.1.1.1.1.1.1.1.2.2
  have hnodup : (previous.policyControls.map PolicyControlReceipt.commandId).Nodup := by
    have hnext := (policyChain_unique hchain).1
    unfold NativeConversation.rebound at hnext
    rw [List.map_map] at hnext
    rwa [List.map_congr_left fun control _ => ?_] at hnext
    change PolicyControlReceipt.commandId (if _ then _ else _) = control.commandId
    split
    · rename_i heq
      exact heq.symm
    · rfl
  have hrefl := ConversationAdvances.refl previous
  exact { hrefl with
    policyControls := policyKind_completed hnodup hmem hguard.1.1.1.1.1.1.1.1.1 result
    installed := fun _ hmem _ => Or.inl ⟨previous, rfl, hmem⟩ }

/-! ## Runs -/

/-- The versions of a record since it was last absent. -/
def recorded {α : Type} [DecidableEq α] (versions : List α) (before after : Option α) : List α :=
  match after with
  | none => []
  | some next => if before = some next then versions else versions ++ [next]

/-- A store with the versions that its records have had. -/
structure EvidenceRun where
  store : RunnerStore
  conversations : String → List NativeConversation
  work : String → List NativeWorkState

def EvidenceRun.fresh : EvidenceRun := ⟨RunnerStore.fresh, fun _ => [], fun _ => []⟩

def EvidenceRun.step (runtime : Runtime) (run : EvidenceRun) (call : Moment × StoreAction) :
    EvidenceRun :=
  let after := (run.store.perform runtime call.1 call.2).state
  { store := after
    conversations := fun key => recorded (run.conversations key)
      (run.store.data.nativeConversations.get? key) (after.data.nativeConversations.get? key)
    work := fun sessionId => recorded (run.work sessionId)
      (run.store.data.nativeWork.get? sessionId) (after.data.nativeWork.get? sessionId) }

/-- Dispatch evidence is monotone in every conversation and in the work of every session. -/
def EvidenceRun.Monotone (run : EvidenceRun) : Prop :=
  (∀ key, ConversationEvidence (run.conversations key)) ∧
  ∀ sessionId, WorkEvidence (run.work sessionId)

/-- An accepted save treats what the store leaves unchecked as the store treats the rest. -/
def EvidenceRun.carries (runtime : Runtime) (run : EvidenceRun) (call : Moment × StoreAction) :
    Prop :=
  (run.store.perform runtime call.1 call.2).returned = true →
    match call.2 with
    | .saveNativeConversation key conversation =>
      Unchecked (run.store.data.nativeConversations.get? key) conversation
    | .saveNativeWorkState sessionId state _ =>
      childForkKind.Fenced ((run.store.data.nativeWork.get? sessionId).elim [] (·.forks))
        state.forks
    | _ => True

section Recorded

variable {α : Type} [DecidableEq α] {versions : List α} {before after : Option α}

theorem recorded_getLast? (h : versions.getLast? = before) :
    (recorded versions before after).getLast? = after := by
  cases after with
  | none => rfl
  | some next =>
    unfold recorded
    dsimp only
    split
    · rename_i hsame
      rw [h, hsame]
    · exact List.getLast?_concat

theorem recorded_same (h : versions.getLast? = before) : recorded versions before before = versions := by
  cases before with
  | none => rw [List.getLast?_eq_none_iff.mp h]; rfl
  | some next => exact if_pos rfl

end Recorded

/-- The last version is the stored record, and the evidence is monotone. -/
structure EvidenceRun.Tracks (run : EvidenceRun) : Prop where
  conversations : ∀ key,
    (run.conversations key).getLast? = run.store.data.nativeConversations.get? key
  work : ∀ sessionId, (run.work sessionId).getLast? = run.store.data.nativeWork.get? sessionId
  monotone : run.Monotone

theorem EvidenceRun.Tracks.fresh : EvidenceRun.fresh.Tracks :=
  ⟨fun _ => rfl, fun _ => rfl, fun _ => .nil, fun _ => .nil⟩

theorem recorded_conversation {versions : List NativeConversation}
    {before : Option NativeConversation}
    (hlast : versions.getLast? = before) (h : ConversationEvidence versions) :
    ConversationEvidence (recorded versions before (some next)) ↔
      ConversationAdvances before next := by
  unfold recorded
  dsimp only
  split
  · rename_i hsame
    rw [hsame]
    exact ⟨fun _ => .refl next, fun _ => h⟩
  · rw [conversationEvidence_concat, hlast]
    exact ⟨And.right, fun hnext => ⟨h, hnext⟩⟩

theorem recorded_work {versions : List NativeWorkState} {before : Option NativeWorkState}
    {next : NativeWorkState} (hlast : versions.getLast? = before) (h : WorkEvidence versions) :
    WorkEvidence (recorded versions before (some next)) ↔ WorkAdvances before next := by
  unfold recorded
  dsimp only
  split
  · rename_i hsame
    rw [hsame]
    exact ⟨fun _ => .refl next, fun _ => h⟩
  · rw [workEvidence_concat, hlast]
    exact ⟨And.right, fun hnext => ⟨h, hnext⟩⟩

section Step

variable {runtime : Runtime} {run : EvidenceRun} {moment : Moment} {action : StoreAction}

theorem EvidenceRun.Tracks.step (h : run.Tracks)
    (hmonotone : (run.step runtime (moment, action)).Monotone) :
    (run.step runtime (moment, action)).Tracks :=
  ⟨fun key => recorded_getLast? (h.conversations key),
    fun sessionId => recorded_getLast? (h.work sessionId), hmonotone⟩

theorem EvidenceRun.Tracks.conversationsAfter (h : run.Tracks) {key : String}
    {next : NativeConversation}
    (hset : (run.store.perform runtime moment action).state.data.nativeConversations =
      run.store.data.nativeConversations.set key next) :
    (∀ other, ConversationEvidence ((run.step runtime (moment, action)).conversations other)) ↔
      ConversationAdvances (run.store.data.nativeConversations.get? key) next := by
  have hversions : ∀ other, (run.step runtime (moment, action)).conversations other =
      recorded (run.conversations other) (run.store.data.nativeConversations.get? other)
        ((run.store.data.nativeConversations.set key next).get? other) := by
    intro other
    rw [← hset]
    rfl
  have hkey : ConversationEvidence (recorded (run.conversations key) _ (some next)) ↔ _ :=
    recorded_conversation (h.conversations key) (h.monotone.1 key)
  constructor
  · intro hall
    have hone := hall key
    rw [hversions, Dict.get?_set_self] at hone
    exact hkey.mp hone
  · intro hadvances other
    rw [hversions]
    by_cases heq : other = key
    · rw [heq, Dict.get?_set_self]
      exact hkey.mpr hadvances
    · rw [Dict.get?_set_of_ne _ _ heq, recorded_same (h.conversations other)]
      exact h.monotone.1 other

theorem EvidenceRun.Tracks.workAfter (h : run.Tracks) {sessionId : String}
    {next : NativeWorkState}
    (hset : (run.store.perform runtime moment action).state.data.nativeWork =
      run.store.data.nativeWork.set sessionId next) :
    (∀ other, WorkEvidence ((run.step runtime (moment, action)).work other)) ↔
      WorkAdvances (run.store.data.nativeWork.get? sessionId) next := by
  have hversions : ∀ other, (run.step runtime (moment, action)).work other =
      recorded (run.work other) (run.store.data.nativeWork.get? other)
        ((run.store.data.nativeWork.set sessionId next).get? other) := by
    intro other
    rw [← hset]
    rfl
  have hkey : WorkEvidence (recorded (run.work sessionId) _ (some next)) ↔ _ :=
    recorded_work (h.work sessionId) (h.monotone.2 sessionId)
  constructor
  · intro hall
    have hone := hall sessionId
    rw [hversions, Dict.get?_set_self] at hone
    exact hkey.mp hone
  · intro hadvances other
    rw [hversions]
    by_cases heq : other = sessionId
    · rw [heq, Dict.get?_set_self]
      exact hkey.mpr hadvances
    · rw [Dict.get?_set_of_ne _ _ heq, recorded_same (h.work other)]
      exact h.monotone.2 other

theorem EvidenceRun.Tracks.conversationsKept (h : run.Tracks)
    (hkept : ∀ key, (run.store.perform runtime moment action).state.data.nativeConversations.get?
        key = run.store.data.nativeConversations.get? key ∨
      (run.store.perform runtime moment action).state.data.nativeConversations.get? key = none) :
    ∀ key, ConversationEvidence ((run.step runtime (moment, action)).conversations key) := by
  intro key
  unfold EvidenceRun.step
  dsimp only
  rcases hkept key with hsame | hgone
  · rw [hsame, recorded_same (h.conversations key)]
    exact h.monotone.1 key
  · rw [hgone]
    exact .nil

theorem EvidenceRun.Tracks.workKept (h : run.Tracks)
    (hkept : ∀ sessionId, (run.store.perform runtime moment action).state.data.nativeWork.get?
        sessionId = run.store.data.nativeWork.get? sessionId ∨
      (run.store.perform runtime moment action).state.data.nativeWork.get? sessionId = none) :
    ∀ sessionId, WorkEvidence ((run.step runtime (moment, action)).work sessionId) := by
  intro sessionId
  unfold EvidenceRun.step
  dsimp only
  rcases hkept sessionId with hsame | hgone
  · rw [hsame, recorded_same (h.work sessionId)]
    exact h.monotone.2 sessionId
  · rw [hgone]
    exact .nil

theorem same_or_erased {α : Type} {before after : Dict String α} {key : String}
    (h : after = before.erase key) (other : String) :
    after.get? other = before.get? other ∨ after.get? other = none := by
  by_cases heq : other = key
  · right
    rw [h, heq, Dict.get?_erase_self]
  · left
    rw [h, Dict.get?_erase_of_ne _ heq]

theorem same_of_eq {α : Type} {before after : Dict String α} (h : after = before)
    (other : String) : after.get? other = before.get? other ∨ after.get? other = none :=
  Or.inl (congrArg (Dict.get? · other) h)

theorem EvidenceRun.Tracks.monotone_step (h : run.Tracks) :
    (run.step runtime (moment, action)).Monotone ↔ run.carries runtime (moment, action) := by
  have hrecords : RecordsAfter runtime moment run.store action _ :=
    run.store.perform_records action
  rcases hrecords with ⟨hsame, hsilent⟩ | ⟨hreturned, hsaved⟩
  · constructor
    · intro _ hreturned
      have hsaves := hsilent (Option.isNone_iff_eq_none.mp hreturned)
      cases action <;> trivial
    · exact fun _ => ⟨h.conversationsKept fun key => Or.inl (hsame.conversations key),
        h.workKept fun sessionId => Or.inl (hsame.work sessionId)⟩
  · have hdone : (run.store.perform runtime moment action).returned = true :=
      Option.isNone_iff_eq_none.mpr hreturned
    cases hsaved with
    | review _ _ _ hconversations hwork =>
      exact ⟨fun _ _ => trivial, fun _ => ⟨h.conversationsKept (same_of_eq hconversations),
        h.workKept (same_of_eq hwork)⟩⟩
    | cleared _ _ hconversations hwork =>
      exact ⟨fun _ _ => trivial, fun _ => ⟨h.conversationsKept (same_of_eq hconversations),
        h.workKept (same_of_eq hwork)⟩⟩
    | conversation hvalid hadmitted _ hconversations hwork =>
      have hafter := h.conversationsAfter hconversations
      constructor
      · exact fun hmonotone _ => (hafter.mp hmonotone.1).unchecked
      · intro hcarries
        exact ⟨hafter.mpr (.of_admitted hvalid hadmitted (hcarries hdone)),
          h.workKept (same_of_eq hwork)⟩
    | retired _ hconversations hwork =>
      exact ⟨fun _ _ => trivial, fun _ => ⟨h.conversationsKept (same_or_erased hconversations),
        h.workKept (same_of_eq hwork)⟩⟩
    | work hparsed hadmitted _ hconversations hwork =>
      have hafter := h.workAfter hwork
      have hforks := congrArg NativeWorkState.forks (Schema.normalized_parse hparsed).1
      constructor
      · intro hmonotone _
        have hfenced := (hafter.mp hmonotone.2).forks.fenced
        rw [hforks] at hfenced
        exact hfenced
      · intro hcarries
        have hfenced := hcarries hdone
        refine ⟨h.conversationsKept (same_of_eq hconversations), hafter.mpr ?_⟩
        apply WorkAdvances.of_admitted hadmitted
        rw [hforks]
        exact hfenced
    | workRemoved _ _ _ hconversations hwork =>
      exact ⟨fun _ _ => trivial, fun _ => ⟨h.conversationsKept (same_of_eq hconversations),
        h.workKept (same_or_erased hwork)⟩⟩
    | controlBegun hstored _ hphase _ _ _ _ hconversations hwork =>
      refine ⟨fun _ _ => trivial, fun _ => ⟨(h.conversationsAfter hconversations).mpr ?_,
        h.workKept (same_of_eq hwork)⟩⟩
      rw [hstored]
      exact ConversationAdvances.begun hphase _
    | controlCompleted hstored howner hconfirmable hvalid _ _ hconversations hwork =>
      refine ⟨fun _ _ => trivial, fun _ => ⟨(h.conversationsAfter hconversations).mpr ?_,
        (h.workAfter hwork).mpr ?_⟩⟩
      · rw [hstored]
        exact ConversationAdvances.confirmed hconfirmable hvalid
      · rw [howner]
        exact { WorkAdvances.refl _ with }

end Step

/-- Over every run of calls, dispatch evidence is monotone in every state reached exactly if every
accepted save carries what the store leaves unchecked. -/
theorem dispatch_evidence_monotone (runtime : Runtime) (calls : List (Moment × StoreAction)) :
    Always (EvidenceRun.step runtime) EvidenceRun.Monotone EvidenceRun.fresh calls ↔
      Meets (EvidenceRun.step runtime) (EvidenceRun.carries runtime) EvidenceRun.fresh calls := by
  constructor
  · apply meets_of_always (I := EvidenceRun.Tracks)
    · exact fun run call h hcarries => h.step (h.monotone_step.mpr hcarries)
    · exact fun run call h hbroken hmonotone => hbroken (h.monotone_step.mp hmonotone)
    · exact EvidenceRun.Tracks.fresh
  · intro hmeets
    apply Always.mono (P := EvidenceRun.Tracks) fun run h => h.monotone
    exact always_of_meets (fun run call h hcarries => h.step (h.monotone_step.mpr hcarries))
      EvidenceRun.Tracks.fresh hmeets

def injecting : NativeConversation :=
  { plainConversation with injections := [⟨"command-1", emptyHash, .pending, none⟩] }

/-- A new conversation whose only transition is completed. -/
def transitioned : NativeConversation :=
  { plainConversation with
    configurationTransitions :=
      [⟨"transition-1", none, emptyHash, emptyHash, emptyHash, "session-2", .completed⟩] }

/-- The next save may drop an injection, and a new record may hold a completed transition. -/
theorem dispatch_evidence_lost :
    ¬Always (EvidenceRun.step plainRuntime) EvidenceRun.Monotone EvidenceRun.fresh
      [(⟨0, true⟩, .saveNativeConversation "key-1" injecting),
        (⟨1, true⟩, .saveNativeConversation "key-1" plainConversation)] ∧
    ¬Always (EvidenceRun.step plainRuntime) EvidenceRun.Monotone EvidenceRun.fresh
      [(⟨0, true⟩, .saveNativeConversation "key-1" transitioned)] := by
  constructor
  · intro h
    have hversions : (run (EvidenceRun.step plainRuntime) EvidenceRun.fresh
        [(⟨0, true⟩, .saveNativeConversation "key-1" injecting),
          (⟨1, true⟩, .saveNativeConversation "key-1" plainConversation)]).conversations "key-1" =
        [injecting, plainConversation] := by decide +kernel
    have hkept := (h.last.1 "key-1").injections.kept
    rw [hversions] at hkept
    rcases List.rel_of_pairwise_cons hkept (List.mem_singleton_self _) _
      (List.mem_singleton_self _) with ⟨next, hnext, -⟩
    cases hnext
  · intro h
    have hversions : (run (EvidenceRun.step plainRuntime) EvidenceRun.fresh
        [(⟨0, true⟩, .saveNativeConversation "key-1" transitioned)]).conversations "key-1" =
        [transitioned] := by decide +kernel
    have hfenced := (h.last.1 "key-1").configurationTransitions.fenced
    rw [hversions] at hfenced
    rcases hfenced 0 _ rfl _ (List.mem_singleton_self _) rfl with ⟨old, hold, -⟩
    cases hold

end HarnessControl.State
