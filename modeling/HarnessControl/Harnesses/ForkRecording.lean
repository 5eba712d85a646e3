import HarnessControl.Harnesses.ChildWork
import HarnessControl.State.Resaved

/-!
# Recording a fork

Once an adapter has dispatched a fork the destination and the completed receipt have to be saved.
The checks before the dispatch say nothing about two rules of the store: a new conversation may not
bring policy controls along, and there are at most 1024 conversations.
-/

namespace HarnessControl.Harnesses

open HarnessControl.Library HarnessControl.Protocol HarnessControl.State

/-! ## The destination -/

variable {schemas : PayloadSchemas}

variable {conversation : NativeConversation}

theorem forkedConversation_valid
    (h : conversation.valid schemas = true) (now : Int) {target : ConversationFork}
    (htarget : target.nativeReference ≠ "") (nativeFresh : Bool) :
    (forkedConversation conversation now target nativeFresh).valid schemas = true := by
  unfold NativeConversation.valid at h ⊢
  simp only [Bool.and_eq_true] at h ⊢
  rcases h with ⟨⟨⟨⟨⟨⟨⟨⟨⟨⟨-, hbinding⟩, hpolicy⟩, -⟩, -⟩, hbase⟩, hauthority⟩, -⟩, hoptions⟩, -⟩, -⟩
  exact ⟨⟨⟨⟨⟨⟨⟨⟨⟨⟨bne_iff_ne.mpr htarget, hbinding⟩, hpolicy⟩, rfl⟩, rfl⟩, hbase⟩, hauthority⟩,
    rfl⟩, hoptions⟩, rfl⟩, rfl⟩

theorem forkedConversation_admitted {now : Int}
    {target : ConversationFork} {nativeFresh : Bool} {stored : Nat} :
    saveNativeConversationProblem stored none
        (forkedConversation conversation now target nativeFresh) = none ↔
      conversation.policyControls = [] ∧ stored < 1024 := by
  unfold saveNativeConversationProblem
  simp only [firstProblem_eq_none, List.forall_mem_cons, refuseIf_eq_none]
  have hpolicy : (forkedConversation conversation now target nativeFresh).policyControls =
      conversation.policyControls := rfl
  constructor
  · rintro ⟨hcontrols, -, -, -, -, -, -, -, -, -, hcapacity, -⟩
    rw [hpolicy] at hcontrols
    have hempty : [] = conversation.policyControls := by simpa [previousReceipts] using hcontrols
    exact ⟨hempty.symm, by simpa using hcapacity⟩
  · rintro ⟨hcontrols, hcapacity⟩
    rw [hpolicy, hcontrols]
    refine ⟨rfl, rfl, rfl, rfl, rfl, rfl, rfl, rfl, rfl, rfl, ?_, fun _ h => nomatch h⟩
    simpa using hcapacity

theorem forkedConversation_refused {conversation other : NativeConversation} {now : Int}
    {target : ConversationFork} {nativeFresh : Bool} {stored : Nat}
    (hother : other.nativeThreadId ≠ target.nativeReference) :
    saveNativeConversationProblem stored (some other)
      (forkedConversation conversation now target nativeFresh) ≠ none := by
  intro h
  unfold saveNativeConversationProblem at h
  simp only [firstProblem_eq_none, List.forall_mem_cons, refuseIf_eq_none] at h
  rcases h with ⟨-, -, -, -, -, -, -, -, -, hscope, -⟩
  have hreplaced : provenReplacement (some other)
      (forkedConversation conversation now target nativeFresh) = false := by
    -- the destination has no rollback that could prove it
    unfold provenReplacement
    rw [Option.any_some]
    cases other.rollback with
    | none => rfl
    | some rollback =>
      rw [Option.any_some, show (forkedConversation conversation now target nativeFresh).rollback =
        none from rfl]
      simp
  rw [Option.any_some, hreplaced] at hscope
  unfold scopeChanged at hscope
  simp only [Bool.or_eq_false_iff, Bool.and_eq_false_iff, Bool.not_false] at hscope
  rcases hscope.2 with hthread | htrue
  · have hsame : other.nativeThreadId =
        (forkedConversation conversation now target nativeFresh).nativeThreadId := by
      simpa using hthread
    exact hother hsame
  · cases htrue

theorem forkReceipt_valid {manager : Manager} {commandId : String} {operation : ForkOperation}
    {phase : Phase} {result : ConversationResult}
    (h : result.valid manager.runtime.schemas = true) :
    (manager.forkReceipt commandId operation phase result).valid manager.runtime.schemas = true := by
  unfold ForkReceipt.valid
  rw [Bool.and_eq_true]
  exact ⟨manager.runtime.host.sha256_hex _, h⟩

theorem valid_of_fork {receipt : ForkReceipt} (h : conversation.valid schemas = true)
    (hreceipt : receipt.valid schemas = true) :
    NativeConversation.valid schemas { conversation with fork := some receipt } = true := by
  unfold NativeConversation.valid at h ⊢
  rw [Bool.and_eq_true] at h ⊢
  exact ⟨h.1, hreceipt⟩

/-! ## Other calls -/

def calls (runtime : Runtime) (store : RunnerStore) (list : List (Moment × StoreAction)) :
    RunnerStore :=
  run (fun store call => (store.perform runtime call.1 call.2).state) store list

variable {runtime : Runtime}

variable {store : RunnerStore}

theorem reachable_calls (h : Reachable runtime store)
    (list : List (Moment × StoreAction)) :
    Reachable runtime (calls runtime store list) := by
  induction list generalizing store with
  | nil => exact h
  | cons call rest ih => exact ih (h.perform call.1 call.2)

def conversationKey : StoreAction → Option String
  | .saveNativeConversation key _ | .retireNativeConversation key
  | .beginNativePolicyControl key _ | .completeNativePolicyControl key _ _ _ _ => some key
  | _ => none

theorem perform_conversation {moment : Moment}
    {action : StoreAction} {key : String} (hother : conversationKey action ≠ some key) :
    (store.perform runtime moment action).state.data.nativeConversations.get? key =
      store.data.nativeConversations.get? key := by
  have hrecords : RecordsAfter runtime moment store action _ := store.perform_records action
  generalize store.perform runtime moment action = attempt at hrecords
  have hne : ∀ {written : String}, conversationKey action = some written → key ≠ written :=
    fun hkey heq => hother (heq ▸ hkey)
  rcases hrecords with ⟨hsame, -⟩ | ⟨-, hsaved⟩
  · exact hsame.conversations key
  · cases hsaved with
    | review parsed admitted reviews conversations work => rw [conversations]
    | cleared matched reviews conversations work => rw [conversations]
    | conversation valid admitted reviews conversations work =>
      rw [conversations, Dict.get?_set_of_ne _ _ (hne rfl)]
    | retired reviews conversations work =>
      rw [conversations, Dict.get?_erase_of_ne _ (hne rfl)]
    | work parsed admitted reviews conversations work => rw [conversations]
    | workRemoved stored removable reviews conversations work => rw [conversations]
    | controlBegun stored owner phase owned settled valid reviews conversations sameWork =>
      rw [conversations, Dict.get?_set_of_ne _ _ (hne rfl)]
    | controlCompleted stored owner confirmable valid validWork reviews conversations nextWork =>
      rw [conversations, Dict.get?_set_of_ne _ _ (hne rfl)]

theorem calls_conversation {list : List (Moment × StoreAction)} {key : String}
    (hother : ∀ call ∈ list, conversationKey call.2 ≠ some key) :
    (calls runtime store list).data.nativeConversations.get? key =
      store.data.nativeConversations.get? key := by
  induction list generalizing store with
  | nil => rfl
  | cons call rest ih =>
    rw [List.forall_mem_cons] at hother
    exact (ih hother.2).trans (perform_conversation hother.1)

theorem saveDestination {moment : Moment} {target : ConversationFork} {nativeFresh : Bool}
    (hvalid : conversation.valid runtime.schemas = true) (hwritten : moment.written = true)
    (hkey : identity target.continuationGroupKey = true) (htarget : target.nativeReference ≠ "")
    (hindependent : ∀ other,
      store.data.nativeConversations.get? target.continuationGroupKey = some other →
        other.nativeThreadId ≠ target.nativeReference) :
    let destination := forkedConversation conversation moment.now target nativeFresh
    let attempt := store.saveNativeConversation runtime moment target.continuationGroupKey destination
    (attempt.failure = none ↔
      store.data.nativeConversations.get? target.continuationGroupKey = none ∧
        conversation.policyControls = [] ∧ store.data.nativeConversations.size < 1024) ∧
    (attempt.failure = none → attempt.state.data = { store.data with
      nativeConversations :=
        store.data.nativeConversations.set target.continuationGroupKey destination }) := by
  intro destination attempt
  have hdestination := forkedConversation_valid hvalid moment.now htarget nativeFresh
  have hadmitted : attempt.failure = none → _ :=
    fun hreturned => (store.saveNativeConversation_saved hreturned).1
  have hsaved := fun hproblem => store.saveNativeConversation_eq (key_of_identity hkey)
    hdestination hwritten hproblem
  refine ⟨⟨fun hreturned => ?_, fun ⟨hfree, hrules⟩ => ?_⟩, fun hreturned =>
    (hsaved (hadmitted hreturned)).2⟩
  · have hproblem := hadmitted hreturned
    cases hfound : store.data.nativeConversations.get? target.continuationGroupKey with
    | none =>
      rw [hfound] at hproblem
      exact ⟨rfl, forkedConversation_admitted.mp hproblem⟩
    | some other =>
      rw [hfound] at hproblem
      exact absurd hproblem (forkedConversation_refused (hindependent other hfound))
  · refine (hsaved ?_).1
    rw [hfree]
    exact forkedConversation_admitted.mpr hrules

/-! ## Conversation forks -/

/-- A conversation fork that passed the checks, was dispatched and was confirmed. -/
structure ConfirmedFork (manager : Manager) where
  store : RunnerStore
  reachable : Reachable manager.runtime store
  request : ConversationRequest
  operation : ForkOperation
  isFork : request.operation = .fork operation
  wellFormed : identity operation.continuationGroupKey = true
  plan : ConversationPlan
  admitted : manager.admitConversation store request = .admitted plan
  /-- What other sessions do before and after the dispatch. -/
  before : List (Moment × StoreAction)
  after : List (Moment × StoreAction)
  /-- The operations on one conversation are serialized. -/
  undisturbed : ∀ call ∈ before ++ after, conversationKey call.2 ≠ some plan.key
  fence : Moment
  fenced : (manager.fenceFork fence request.commandId operation plan
    (calls manager.runtime store before)).failure = none
  result : ConversationResult
  wellTargeted : manager.resultProblem request result = none
  target : ConversationFork
  confirmed : result.fork = some target
  requested : target.sessionId = operation.targetSessionId ∧
    target.continuationGroupKey = operation.continuationGroupKey
  targetMoment : Moment
  sourceMoment : Moment
  written : targetMoment.written = true ∧ sourceMoment.written = true

namespace ConfirmedFork

variable {manager : Manager} (fork : ConfirmedFork manager)

def confirming : RunnerStore :=
  calls manager.runtime (manager.fenceFork fork.fence fork.request.commandId fork.operation fork.plan
    (calls manager.runtime fork.store fork.before)).state fork.after

/-- No stored conversation has the native reference of the destination. -/
def Independent : Prop :=
  ∀ key other, fork.confirming.data.nativeConversations.get? key = some other →
    other.nativeThreadId ≠ fork.target.nativeReference

def recording : RunnerStore × Option OperationFailure :=
  manager.recordFork fork.targetMoment fork.sourceMoment fork.request fork.operation fork.plan
    fork.result fork.confirming

/-- The operation returns, the destination is saved and the receipt is completed. -/
def Recorded : Prop :=
  fork.recording.2 = none ∧
  fork.recording.1.data.nativeConversations.get? fork.operation.continuationGroupKey =
    some (forkedConversation fork.plan.conversation fork.targetMoment.now fork.target
      fork.result.nativeFresh) ∧
  fork.recording.1.data.nativeConversations.get? fork.plan.key = some { fork.plan.conversation with
    fork := some (manager.forkReceipt fork.request.commandId fork.operation .completed fork.result) }

theorem stored : fork.store.data.nativeConversations.get? fork.plan.key =
    some fork.plan.conversation :=
  nativeConversationForSession_stored (Manager.admitConversation_admitted fork.admitted).bound

theorem valid : fork.plan.conversation.valid manager.runtime.schemas = true :=
  fork.reachable.sound.memory.conversations _ _ fork.stored

theorem fenced_source : fork.confirming.data.nativeConversations.get? fork.plan.key =
    some { fork.plan.conversation with
      fork := some (manager.forkReceipt fork.request.commandId fork.operation .pending none) } := by
  unfold confirming
  rw [calls_conversation fun call hmem => fork.undisturbed call (List.mem_append_right _ hmem)]
  unfold Manager.fenceFork
  rw [(RunnerStore.saveNativeConversation_saved fork.fenced).2, Dict.get?_set_self]

theorem fenced_valid : NativeConversation.valid manager.runtime.schemas { fork.plan.conversation with
    fork := some (manager.forkReceipt fork.request.commandId fork.operation .pending none) } = true := by
  have hfenced : Reachable manager.runtime (manager.fenceFork fork.fence fork.request.commandId
      fork.operation fork.plan (calls manager.runtime fork.store fork.before)).state :=
    (reachable_calls fork.reachable fork.before).perform fork.fence (.saveNativeConversation fork.plan.key _)
  exact (reachable_calls hfenced fork.after).sound.memory.conversations _ _ fork.fenced_source

theorem target_named : fork.target.nativeReference ≠ "" := by
  have hvalid := (Manager.resultProblem_none fork.wellTargeted).1
  unfold ConversationResult.valid at hvalid
  simp only [Bool.and_eq_true] at hvalid
  have htarget : optionally ConversationFork.valid fork.result.fork = true := hvalid.1.1.2
  rw [fork.confirmed] at htarget
  change fork.target.valid = true at htarget
  unfold ConversationFork.valid at htarget
  simp only [Bool.and_eq_true, bne_iff_ne] at htarget
  exact htarget.2

theorem recording_eq (hindependent : fork.Independent)
    (hportable : manager.portableMissing fork.plan.conversation fork.result = false) :
    fork.recording = thenSave
      (fork.confirming.saveNativeConversation manager.runtime fork.targetMoment
        fork.target.continuationGroupKey (forkedConversation fork.plan.conversation
          fork.targetMoment.now fork.target fork.result.nativeFresh))
      fun saved => saved.saveNativeConversation manager.runtime fork.sourceMoment fork.plan.key
        { fork.plan.conversation with
          fork := some (manager.forkReceipt fork.request.commandId fork.operation .completed
            fork.result) } := by
  have hthread := hindependent _ _ fork.fenced_source
  unfold recording Manager.recordFork
  rw [fork.wellTargeted, fork.confirmed, hportable]
  dsimp only
  rw [if_neg Bool.false_ne_true, Option.filter_some, if_pos]
  simp only [Bool.and_eq_true, beq_iff_eq, bne_iff_ne]
  exact ⟨fork.requested, Ne.symm hthread⟩

theorem recorded_iff (hindependent : fork.Independent) :
    fork.Recorded ↔
      manager.portableMissing fork.plan.conversation fork.result = false ∧
        fork.confirming.data.nativeConversations.get? fork.operation.continuationGroupKey = none ∧
        fork.plan.conversation.policyControls = [] ∧
        fork.confirming.data.nativeConversations.size < 1024 := by
  by_cases hmissing : manager.portableMissing fork.plan.conversation fork.result = true
  · rw [hmissing]
    constructor
    · rintro ⟨hreturns, -⟩
      unfold recording Manager.recordFork at hreturns
      rw [fork.wellTargeted, hmissing] at hreturns
      cases hreturns
    · rintro ⟨hportable, -⟩
      cases hportable
  rw [Bool.not_eq_true] at hmissing
  rw [hmissing, eq_self, true_and]
  have hkey := fork.requested.2
  rcases saveDestination fork.valid fork.written.1 (hkey ▸ fork.wellFormed) fork.target_named
    (hindependent fork.target.continuationGroupKey) with ⟨hreturns, hdata⟩
  rw [← hkey, ← hreturns]
  unfold Recorded
  rw [fork.recording_eq hindependent hmissing, ← hkey]
  unfold thenSave
  generalize hfirst : fork.confirming.saveNativeConversation manager.runtime fork.targetMoment
    fork.target.continuationGroupKey (forkedConversation fork.plan.conversation
      fork.targetMoment.now fork.target fork.result.nativeFresh) = first
  rw [hfirst] at hdata hreturns
  rcases first with ⟨saved, failure⟩
  cases failure with
  | some failure => exact ⟨fun h => (nomatch h.1), fun h => (nomatch h)⟩
  | none =>
    refine ⟨fun _ => rfl, fun _ => ?_⟩
    have hfree := (hreturns.mp rfl).1
    have hother : fork.plan.key ≠ fork.target.continuationGroupKey := by
      intro heq
      rw [← heq, fork.fenced_source] at hfree
      cases hfree
    have hsource : saved.data.nativeConversations.get? fork.plan.key = _ :=
      (congrArg (fun data => data.nativeConversations.get? fork.plan.key) (hdata rfl)).trans
        ((Dict.get?_set_of_ne _ _ hother).trans fork.fenced_source)
    have hvalid : NativeConversation.valid manager.runtime.schemas { fork.plan.conversation with
        fork := some (manager.forkReceipt fork.request.commandId fork.operation .completed
          fork.result) } = true :=
      valid_of_fork fork.valid
        (forkReceipt_valid (Manager.resultProblem_none fork.wellTargeted).1)
    rcases saved.saveNativeConversation_eq (RunnerStore.saveNativeConversation_key fork.fenced)
      hvalid fork.written.2
      (hsource ▸ saveNativeConversationProblem_self fork.fenced_valid _ _) with ⟨hlast, hfinal⟩
    have hconversations := congrArg RunnerStateData.nativeConversations hfinal
    refine ⟨congrArg (Option.map OperationFailure.store) hlast, ?_, ?_⟩
    · refine (congrArg (Dict.get? · fork.target.continuationGroupKey) hconversations).trans ?_
      refine (Dict.get?_set_of_ne _ _ (Ne.symm hother)).trans ?_
      have htarget := congrArg RunnerStateData.nativeConversations (hdata rfl)
      refine (congrArg (Dict.get? · fork.target.continuationGroupKey) htarget).trans ?_
      exact Dict.get?_set_self _ _ _
    · refine (congrArg (Dict.get? · fork.plan.key) hconversations).trans ?_
      exact Dict.get?_set_self _ _ _

end ConfirmedFork

/-! ## Child forks -/

/-- A call by others keeps the fork receipts of the session's work. -/
def keepsForks (sessionId : String) (store : RunnerStore) (call : Moment × StoreAction) : Prop :=
  match call.2 with
  | .saveNativeWorkState id state _ =>
    id = sessionId → ∀ current, store.data.nativeWork.get? id = some current →
      state.forks = current.forks
  | _ => True

/-- A step of `calls`. -/
def performed (runtime : Runtime) (store : RunnerStore) (call : Moment × StoreAction) :
    RunnerStore := (store.perform runtime call.1 call.2).state

theorem perform_forks {sessionId : String}
    {before : NativeWorkState} {call : Moment × StoreAction} (hkeeps : keepsForks sessionId store call)
    (hbefore : store.data.nativeWork.get? sessionId = some before) (hforks : before.forks ≠ []) :
    ∃ after, (performed runtime store call).data.nativeWork.get? sessionId = some after ∧
      after.forks = before.forks := by
  rcases call with ⟨moment, action⟩
  have hrecords : RecordsAfter runtime moment store action _ := store.perform_records action
  unfold performed
  generalize store.perform runtime moment action = attempt at hrecords
  have unchanged : attempt.state.data.nativeWork.get? sessionId =
      store.data.nativeWork.get? sessionId → ∃ after,
        attempt.state.data.nativeWork.get? sessionId = some after ∧ after.forks = before.forks :=
    fun hsame => ⟨before, hsame.trans hbefore, rfl⟩
  rcases hrecords with ⟨hsame, -⟩ | ⟨-, hsaved⟩
  · exact unchanged (hsame.work sessionId)
  · cases hsaved with
    | review parsed admitted reviews conversations work => exact unchanged (by rw [work])
    | cleared matched reviews conversations work => exact unchanged (by rw [work])
    | conversation valid admitted reviews conversations work => exact unchanged (by rw [work])
    | retired reviews conversations work => exact unchanged (by rw [work])
    | controlBegun stored owner phase owned settled valid reviews conversations sameWork =>
      exact unchanged (by rw [sameWork])
    | @work savedId input state event parsed admitted reviews conversations work =>
      by_cases heq : sessionId = savedId
      · subst heq
        refine ⟨state, by rw [work, Dict.get?_set_self], ?_⟩
        rw [(Schema.normalized_parse parsed).1]
        exact hkeeps rfl before hbefore
      · exact unchanged (by rw [work, Dict.get?_set_of_ne _ _ heq])
    | @workRemoved removedId previous stored removable reviews conversations work =>
      by_cases heq : sessionId = removedId
      · subst heq
        rw [hbefore] at stored
        cases stored
        unfold NativeWorkState.removable at removable
        simp only [Bool.and_eq_true, List.isEmpty_iff] at removable
        exact absurd removable.1.1.2 hforks
      · exact unchanged (by rw [work, Dict.get?_erase_of_ne _ heq])
    | @controlCompleted key completedId commandId result event previous owner receipt stored hwork
      confirmable valid validWork reviews conversations nextWork =>
      by_cases heq : sessionId = completedId
      · subst heq
        rw [hbefore] at hwork
        cases hwork
        exact ⟨before.rebound receipt.targetBindingHash, by rw [nextWork, Dict.get?_set_self], rfl⟩
      · exact unchanged (by rw [nextWork, Dict.get?_set_of_ne _ _ heq])

theorem calls_forks {sessionId : String}
    {before : NativeWorkState} {list : List (Moment × StoreAction)}
    (hkeeps : Meets (performed runtime) (keepsForks sessionId) store list)
    (hbefore : store.data.nativeWork.get? sessionId = some before) (hforks : before.forks ≠ []) :
    ∃ after, (calls runtime store list).data.nativeWork.get? sessionId = some after ∧
      after.forks = before.forks := by
  induction list generalizing store before with
  | nil => exact ⟨before, hbefore, rfl⟩
  | cons call rest ih =>
    rcases perform_forks hkeeps.1 hbefore hforks with ⟨next, hnext, hsame⟩
    rcases ih hkeeps.2 hnext (hsame ▸ hforks) with ⟨after, hafter, hkept⟩
    exact ⟨after, hafter, hkept.trans hsame⟩

def completeFork (commandId : String) (response : ConversationResult)
    (forks : List ChildForkReceipt) : List ChildForkReceipt :=
  forks.map fun receipt =>
    if receipt.commandId = commandId then
      { receipt with phase := .completed, result := some response }
    else receipt

theorem completeFork_keys (commandId : String) (response : ConversationResult)
    (forks : List ChildForkReceipt) :
    (completeFork commandId response forks).map ChildForkReceipt.commandId =
      forks.map ChildForkReceipt.commandId := by
  unfold completeFork
  rw [List.map_map]
  apply List.map_congr_left
  intro receipt _
  change ChildForkReceipt.commandId (if _ then _ else _) = receipt.commandId
  split <;> rfl

variable {state : NativeWorkState}

theorem completeFork_kept {commandId : String}
    {response : ConversationResult}
    (hunique : uniqueBy ChildForkReceipt.commandId state.forks = true)
    (hpending : ∀ receipt ∈ state.forks, receipt.commandId = commandId → receipt.phase = .pending) :
    ∀ receipt ∈ state.forks,
      forkKept { state with forks := completeFork commandId response state.forks } receipt = true := by
  intro receipt hmem
  have hnext : uniqueBy ChildForkReceipt.commandId
      (completeFork commandId response state.forks) = true := by
    unfold uniqueBy at hunique ⊢
    rw [completeFork_keys]
    exact hunique
  unfold forkKept
  by_cases heq : receipt.commandId = commandId
  · have hcompleted : { receipt with phase := .completed, result := some response } ∈
        completeFork commandId response state.forks :=
      List.mem_map.mpr ⟨receipt, hmem, if_pos heq⟩
    rw [find?_of_unique hnext hcompleted rfl, Option.any_some, hpending receipt hmem heq]
    simp
  · have hsame : receipt ∈ completeFork commandId response state.forks :=
      List.mem_map.mpr ⟨receipt, hmem, if_neg heq⟩
    rw [find?_of_unique hnext hsame rfl, Option.any_some]
    simp

theorem completeFork_valid {commandId : String}
    {response : ConversationResult} (h : state.valid schemas = true)
    (hresponse : response.valid schemas = true)
    (hconfirms : ∀ receipt ∈ state.forks, receipt.commandId = commandId →
      receipt.confirmedBy response = true) :
    NativeWorkState.valid schemas
      { state with forks := completeFork commandId response state.forks } = true := by
  unfold NativeWorkState.valid at h ⊢
  rw [Bool.and_eq_true] at h ⊢
  refine ⟨h.1, ?_⟩
  have hforks := h.2
  unfold receiptList uniqueBy at hforks ⊢
  simp only [Bool.and_eq_true, decide_eq_true_eq, List.all_eq_true] at hforks ⊢
  rcases hforks with ⟨⟨hlength, hall⟩, hnodup⟩
  refine ⟨⟨?_, fun receipt hmem => ?_⟩, ?_⟩
  · unfold completeFork
    rwa [List.length_map]
  · rcases List.mem_map.mp hmem with ⟨old, hold, rfl⟩
    have hvalid := hall old hold
    split
    · rename_i heq
      unfold ChildForkReceipt.valid at hvalid ⊢
      simp only [Bool.and_eq_true] at hvalid ⊢
      exact ⟨⟨hvalid.1.1, hresponse⟩, hconfirms old hold heq⟩
    · exact hvalid
  · rwa [completeFork_keys]

/-- A child fork that passed the checks, was dispatched and was confirmed. -/
structure ConfirmedChildFork (manager : Manager) where
  store : RunnerStore
  reachable : Reachable manager.runtime store
  commandId : String
  sessionId : String
  operation : ChildForkOperation
  wellFormed : identity operation.continuationGroupKey = true
  plan : ChildForkPlan
  admitted : manager.admitChildFork store commandId sessionId operation = .admitted plan
  /-- What other sessions, and the session's own turns, do before and after the dispatch. -/
  before : List (Moment × StoreAction)
  after : List (Moment × StoreAction)
  fence : Moment
  fenced : (manager.fenceChildFork fence commandId operation plan
    (calls manager.runtime store before)).2 = none
  /-- The operations on native work are serialized. -/
  undisturbed : Meets (performed manager.runtime) (keepsForks plan.sessionId)
    (manager.fenceChildFork fence commandId operation plan
      (calls manager.runtime store before)).1 after
  nativeReference : String
  wellTargeted : (plan.response commandId nativeReference operation).valid
    manager.runtime.schemas = true
  targetMoment : Moment
  sourceMoment : Moment
  written : targetMoment.written = true ∧ sourceMoment.written = true

namespace ConfirmedChildFork

variable {manager : Manager} (fork : ConfirmedChildFork manager)

def confirming : RunnerStore :=
  calls manager.runtime (manager.fenceChildFork fork.fence fork.commandId fork.operation fork.plan
    (calls manager.runtime fork.store fork.before)).1 fork.after

/-- Neither the child nor any stored conversation has the native reference of the destination. -/
structure Independent : Prop where
  child : fork.nativeReference ≠ fork.plan.work.nativeReference
  source : fork.nativeReference ≠ fork.plan.conversation.nativeThreadId
  others : ∀ key other, fork.confirming.data.nativeConversations.get? key = some other →
    other.nativeThreadId ≠ fork.nativeReference

def target : ConversationFork :=
  ⟨fork.operation.targetSessionId, fork.operation.continuationGroupKey, fork.nativeReference⟩

def response : ConversationResult :=
  fork.plan.response fork.commandId fork.nativeReference fork.operation

def recording : RunnerStore × Option OperationFailure :=
  manager.recordChildFork fork.targetMoment fork.sourceMoment fork.commandId fork.operation fork.plan
    fork.nativeReference fork.confirming

/-- The operation returns, the destination is saved and the receipt is completed. -/
def Recorded : Prop :=
  fork.recording.2 = none ∧
  fork.recording.1.data.nativeConversations.get? fork.operation.continuationGroupKey =
    some (childConversation fork.plan.conversation fork.targetMoment.now fork.target) ∧
  ∃ state, fork.recording.1.data.nativeWork.get? fork.plan.sessionId = some state ∧
    ∃ receipt ∈ state.forks, receipt.commandId = fork.commandId ∧ receipt.phase = .completed ∧
      receipt.result = some fork.response

/-- The receipt that `beginMutation` saves. -/
def fenceReceipt : ChildForkReceipt :=
  ⟨fork.commandId, manager.hash fork.operation.toJson, fork.plan.work.workId, .pending, none⟩

theorem source_valid : fork.plan.conversation.valid manager.runtime.schemas = true := by
  rcases Manager.admitChildFork_admitted fork.admitted with ⟨-, state, -, -, hbinding, -⟩
  exact fork.reachable.sound.memory.conversations _ _ (sourceBinding_stored hbinding)

theorem confirming_reachable : Reachable manager.runtime fork.confirming := by
  apply reachable_calls
  have hbefore := reachable_calls fork.reachable fork.before
  unfold Manager.fenceChildFork
  split
  · exact hbefore
  · exact hbefore.perform fork.fence (.saveNativeWorkState fork.plan.sessionId _ none)

theorem fenced_work : ∃ state, fork.confirming.data.nativeWork.get? fork.plan.sessionId = some state ∧
    fork.fenceReceipt ∈ state.forks := by
  have hfenced := fork.fenced
  have hkeeps := fork.undisturbed
  unfold confirming
  unfold Manager.fenceChildFork at hfenced hkeeps ⊢
  cases hcurrent : fork.plan.current (calls manager.runtime fork.store fork.before) with
  | none =>
    rw [hcurrent] at hfenced
    cases hfenced
  | some current =>
    rw [hcurrent] at hfenced hkeeps
    dsimp only at hfenced hkeeps ⊢
    have hreturned := Option.map_eq_none_iff.mp hfenced
    have hsaved := (RunnerStore.saveNativeWorkState_saved hreturned).2
    have hstored := (congrArg (Dict.get? · fork.plan.sessionId) hsaved).trans
      (Dict.get?_set_self _ _ _)
    rcases calls_forks hkeeps hstored (by simp [NativeWorkState.kept]) with ⟨after, hafter, hforks⟩
    refine ⟨after, hafter, ?_⟩
    rw [hforks]
    exact List.mem_append_right _ (List.mem_singleton_self _)

theorem target_named : fork.nativeReference ≠ "" := by
  have hvalid := fork.wellTargeted
  unfold ConversationResult.valid at hvalid
  simp only [Bool.and_eq_true] at hvalid
  have hwork : WorkResult.valid manager.runtime.schemas (.fork fork.plan.work.workId
      fork.plan.work.revision fork.target) = true := hvalid.1.1.1.1.1.1.2
  unfold WorkResult.valid at hwork
  simp only [Bool.and_eq_true, bne_iff_ne] at hwork
  exact hwork.2

def saving : Attempt RunnerStore :=
  fork.confirming.saveNativeConversation manager.runtime fork.targetMoment
    fork.target.continuationGroupKey
    (childConversation fork.plan.conversation fork.targetMoment.now fork.target)

theorem saving_returns (hindependent : fork.Independent) :
    (fork.saving.failure = none ↔
      fork.confirming.data.nativeConversations.get? fork.target.continuationGroupKey = none ∧
        fork.plan.conversation.policyControls = [] ∧
        fork.confirming.data.nativeConversations.size < 1024) ∧
    (fork.saving.failure = none → fork.saving.state.data = { fork.confirming.data with
      nativeConversations := fork.confirming.data.nativeConversations.set
        fork.target.continuationGroupKey
        (childConversation fork.plan.conversation fork.targetMoment.now fork.target) }) := by
  have hsource : NativeConversation.valid manager.runtime.schemas
      { fork.plan.conversation with fresh := false } = true := fork.source_valid
  have hnamed : fork.target.nativeReference ≠ "" := fork.target_named
  have hkey : identity fork.target.continuationGroupKey = true := fork.wellFormed
  unfold saving childConversation
  exact saveDestination hsource fork.written.1 hkey hnamed
    (hindependent.others fork.target.continuationGroupKey)

theorem recording_eq (hindependent : fork.Independent) :
    fork.recording =
      match fork.plan.current fork.confirming with
      | none => (fork.confirming, some (.thrown ⟨"native_fork_unknown",
        "Child custody changed during native fork dispatch."⟩))
      | some current => thenSave fork.saving fun saved =>
        saved.saveNativeWorkState manager.runtime fork.sourceMoment fork.plan.sessionId
          { current with
            forks := completeFork fork.commandId fork.response current.forks } none := by
  unfold recording Manager.recordChildFork
  rw [if_neg (by
    rintro (h | h | h)
    · exact fork.target_named h
    · exact hindependent.child h
    · exact hindependent.source h)]
  cases fork.plan.current fork.confirming with
  | none => rfl
  | some current =>
    dsimp only
    rw [fork.wellTargeted]
    rfl

theorem receipt_completed
    (hstate : fork.confirming.data.nativeWork.get? fork.plan.sessionId = some state) (stored : Nat) :
    let completed := completeFork fork.commandId fork.response state.forks
    NativeWorkState.valid manager.runtime.schemas { state with forks := completed } = true ∧
      saveNativeWorkStateProblem stored (some state) { state with forks := completed } = none ∧
      ∃ receipt ∈ completed, receipt.commandId = fork.commandId ∧ receipt.phase = .completed ∧
        receipt.result = some fork.response := by
  intro completed
  have hconsistent := fork.confirming_reachable.sound.memory.work _ _ hstate
  have hunique := NativeWorkState.valid_unique hconsistent.valid
  rcases fork.fenced_work with ⟨found, hfound, hfence⟩
  rw [hstate] at hfound
  cases hfound
  have honly : ∀ receipt ∈ state.forks, receipt.commandId = fork.commandId →
      receipt = fork.fenceReceipt := by
    intro receipt hmem heq
    have hfirst := find?_of_unique hunique.forks hmem heq
    have hsecond := find?_of_unique hunique.forks hfence (Eq.refl fork.commandId)
    exact Option.some.inj (hfirst.symm.trans hsecond)
  refine ⟨?_, ?_, ?_⟩
  · refine completeFork_valid hconsistent.valid fork.wellTargeted fun receipt hmem heq => ?_
    rw [honly receipt hmem heq]
    unfold ChildForkReceipt.confirmedBy
    simp [response, ChildForkPlan.response, fenceReceipt]
  · refine saveNativeWorkStateProblem_self hconsistent completed (completeFork_kept hunique.forks ?_)
    intro receipt hmem heq
    rw [honly receipt hmem heq]
    rfl
  · exact ⟨_, List.mem_map.mpr ⟨_, hfence, if_pos rfl⟩, rfl, rfl, rfl⟩

theorem recorded_iff (hindependent : fork.Independent) :
    fork.Recorded ↔
      (fork.plan.current fork.confirming).isSome = true ∧
        fork.confirming.data.nativeConversations.get? fork.operation.continuationGroupKey = none ∧
        fork.plan.conversation.policyControls = [] ∧
        fork.confirming.data.nativeConversations.size < 1024 := by
  rcases fork.saving_returns hindependent with ⟨hreturns, hdata⟩
  change _ ↔ _ ∧ fork.confirming.data.nativeConversations.get?
    fork.target.continuationGroupKey = none ∧ _
  rw [← hreturns]
  unfold Recorded
  rw [fork.recording_eq hindependent]
  cases hcurrent : fork.plan.current fork.confirming with
  | none => exact ⟨fun h => (nomatch h.1), fun h => (nomatch h.1)⟩
  | some state =>
    have hstate := (Option.filter_eq_some_iff.mp hcurrent).1
    dsimp only
    cases hfailure : fork.saving.failure with
    | some failure =>
      unfold thenSave
      rw [hfailure]
      exact ⟨fun h => (nomatch h.1), fun h => (nomatch h.2)⟩
    | none =>
      refine ⟨fun _ => ⟨rfl, rfl⟩, fun _ => ?_⟩
      unfold thenSave
      rw [hfailure]
      dsimp only
      have hsaved := hdata hfailure
      generalize fork.saving.state = saved at hsaved
      have hwork : saved.data.nativeWork.get? fork.plan.sessionId = some state :=
        (congrArg (fun data => data.nativeWork.get? fork.plan.sessionId) hsaved).trans hstate
      have hdestination := (congrArg (fun data => data.nativeConversations.get?
        fork.operation.continuationGroupKey) hsaved).trans (Dict.get?_set_self _ _ _)
      rcases fork.receipt_completed hstate saved.data.nativeWork.size with
        ⟨hvalid, hadmitted, hreceipt⟩
      have hkept := (fork.confirming_reachable.sound.memory.work _ _ hstate).kept
      rcases saved.saveNativeWorkState_eq
        (congrArg (fun kept : NativeWorkState =>
          { kept with forks := completeFork fork.commandId fork.response state.forks }) hkept)
        hvalid fork.written.2 (hwork ▸ hadmitted) with ⟨hlast, hfinal⟩
      refine ⟨congrArg (Option.map OperationFailure.store) hlast, ?_, ?_⟩
      · exact (congrArg (fun data => data.nativeConversations.get?
          fork.operation.continuationGroupKey) hfinal).trans hdestination
      · exact ⟨_, (congrArg (fun data => data.nativeWork.get? fork.plan.sessionId)
          hfinal).trans (Dict.get?_set_self _ _ _), hreceipt⟩

end ConfirmedChildFork

/-! ## Both kinds of forks -/

def plainForkText : String :=
  "\x7b\"continuation_group_key\":\"key-2\",\"expected_history_hash\":\"" ++ emptyHash ++
    "\",\"kind\":\"fork\",\"target_session_id\":\"session-2\"\x7d"

def plainForkHash : String := "5a69d97c74eb743504ee2ebc7aa368536102e7a77fcbd1e6ae230f152fd4fbcc"

def plainChildText : String :=
  "\x7b\"action\":\"fork\",\"continuation_group_key\":\"key-2\",\"expected_history_hash\":\"" ++
    emptyHash ++ "\",\"expected_revision\":1,\"kind\":\"work\"," ++
    "\"target_session_id\":\"session-2\",\"work_id\":\"work-1\"\x7d"

def plainChildHash : String := "e80fc5ba1bea79fdfc4f1d9c96eb6f61518acdbad84cff10ae501c4adb0b665d"

/-- A fork's request has the given text; the other text is that of a work state without work. -/
def forkHost (text digest : String) (hdigest : sha256Hex digest = true) : Host where
  sha256 input := if input = text then digest else plainWorkHash
  sha256_hex input := by
    split
    · exact hdigest
    · decide
  parseJson _ := none
  stringify _ := text
  workText _ := plainWorkText
  parseTime _ := none
  localeLe left right := decide (left ≤ right)

def forkAdapter : Adapter where
  conversationOperations := [.fork]
  liveHistoryRead := false
  executionProfiles := [⟨"profile-1", true, false, none, true, false, false, false, false, false, false⟩]
  forkNativeWork := true
  cancelNativeWork := false
  controlNativeGoal := false
  submitNativeFeedback := false
  updateNativePolicy := true

/-- No session is live, and the workspace contains every directory. -/
def forkManager (host : Host) : Manager where
  runtime := { plainRuntime with host }
  workspaces := [⟨"workspace-1", "/workspace"⟩]
  inside _ _ := .ok true
  providers := [⟨"provider-1", "driver", true, emptyHash⟩]
  adapter? _ := some forkAdapter
  sessions := Dict.empty

def plainManager : Manager := forkManager (forkHost plainForkText plainForkHash (by decide))

def plainOperation : ForkOperation := ⟨"session-2", "key-2", emptyHash, none⟩

def plainResult : ConversationResult where
  commandId := "command-1"
  sessionId := "session-1"
  operation := .fork
  fork := some ⟨"session-2", "key-2", "thread-2"⟩

theorem plainResult_targeted : plainManager.resultProblem
    ⟨"command-1", "session-1", .fork plainOperation⟩ plainResult = none := by
  decide +kernel

/-- The conversation of the first session is forked into one of the second. -/
def plainFork {store : RunnerStore} (reachable : Reachable plainManager.runtime store)
    (conversation : NativeConversation)
    (admitted : plainManager.admitConversation store
      ⟨"command-1", "session-1", .fork plainOperation⟩ = .admitted ⟨"key-1", conversation⟩)
    (fenced : (plainManager.fenceFork ⟨5, true⟩ "command-1" plainOperation ⟨"key-1", conversation⟩
      store).failure = none) : ConfirmedFork plainManager where
  store
  reachable
  request := ⟨"command-1", "session-1", .fork plainOperation⟩
  operation := plainOperation
  isFork := rfl
  wellFormed := by decide
  plan := ⟨"key-1", conversation⟩
  admitted
  before := []
  after := []
  undisturbed _ hmem := absurd hmem List.not_mem_nil
  fence := ⟨5, true⟩
  fenced
  result := plainResult
  wellTargeted := plainResult_targeted
  target := ⟨"session-2", "key-2", "thread-2"⟩
  confirmed := rfl
  requested := ⟨rfl, rfl⟩
  targetMoment := ⟨6, true⟩
  sourceMoment := ⟨7, true⟩
  written := ⟨rfl, rfl⟩

/-- The store with nothing but the source. -/
def openData : RunnerStateData :=
  { emptyRunnerState with
    nativeConversations := Dict.empty.set "key-1" plainConversation }

theorem openStore_reachable : Reachable plainManager.runtime ⟨openData, some openData⟩ :=
  ⟨[.call ⟨0, true⟩ (.saveNativeConversation "key-1" plainConversation)], by decide +kernel⟩

def openFork : ConfirmedFork plainManager :=
  plainFork openStore_reachable plainConversation (by decide +kernel) (by decide +kernel)

def controlSteps : List StoreStep :=
  [.call ⟨0, true⟩ (.saveNativeConversation "key-1" plainConversation),
    .call ⟨1, true⟩ (.saveNativeWorkState "session-1" { scope := plainScope } none),
    .call ⟨2, true⟩ (.beginNativePolicyControl "key-1" plainControl),
    .call ⟨3, true⟩ (.completeNativePolicyControl "key-1" "session-1" "command-0"
      plainConfirmation none)]

def controlledConversation : NativeConversation :=
  { plainConversation with
    bindingHash := otherHash
    approvalPolicy := some .ask
    approvalReviewer := some .user
    updatedAt := 3
    policyControls := [{ plainControl with
      executionInventoryHash := some plainWorkHash, phase := .completed,
      result := some plainConfirmation }] }

def controlledData : RunnerStateData :=
  { emptyRunnerState with
    nativeConversations := Dict.empty.set "key-1" controlledConversation
    nativeWork := Dict.empty.set "session-1"
      { scope := { plainScope with executionBindingHash := otherHash } } }

def pendingData : RunnerStateData :=
  { emptyRunnerState with
    nativeConversations := Dict.empty.set "key-1" { plainConversation with
      policyControls := [{ plainControl with executionInventoryHash := some plainWorkHash }] }
    nativeWork := Dict.empty.set "session-1" { scope := plainScope } }

theorem controlledStore_reachable :
    Reachable plainManager.runtime ⟨controlledData, some controlledData⟩ := by
  have hpending : Reachable plainManager.runtime ⟨pendingData, some pendingData⟩ :=
    ⟨controlSteps.take 3, by decide +kernel⟩
  have hlast := hpending.perform ⟨3, true⟩
    (.completeNativePolicyControl "key-1" "session-1" "command-0" plainConfirmation none)
  rwa [show (RunnerStore.perform _ _ _ _).state = ⟨controlledData, some controlledData⟩ by
    decide +kernel] at hlast

def controlledFork : ConfirmedFork plainManager :=
  plainFork controlledStore_reachable controlledConversation (by decide +kernel) (by decide +kernel)

theorem independent_of_all {conversations : Dict String NativeConversation}
    {nativeReference : String} (h : conversations.entries.all
      (fun entry => entry.2.nativeThreadId != nativeReference) = true) :
    ∀ key other, conversations.get? key = some other →
      other.nativeThreadId ≠ nativeReference := by
  intro key other hother
  have hentry := List.all_eq_true.mp h _ (Dict.get?_eq_some_iff.mp hother)
  exact bne_iff_ne.mp hentry

def plainCustody : NativeWorkCustody where
  source := "source"
  workId := "work-1"
  nativeReference := "thread-3"
  originTurnId := "turn-1"
  parentWorkId := none
  rootNativeReference := "thread-1"
  parentNativeReference := "thread-1"
  launchNativeReference := "call-1"
  nativeExecutionReference := none

def childState : NativeWorkState where
  scope := plainScope
  items := Dict.empty.set "work-1" plainWork
  custody := Dict.empty.set "work-1" plainCustody

def childManager : Manager := forkManager (forkHost plainChildText plainChildHash (by decide))

def childData : RunnerStateData :=
  { openData with nativeWork := Dict.empty.set "session-1" childState }

theorem childStore_reachable :
    Reachable childManager.runtime ⟨childData, some childData⟩ :=
  ⟨[.call ⟨0, true⟩ (.saveNativeConversation "key-1" plainConversation),
    .call ⟨1, true⟩ (.saveNativeWorkState "session-1" childState none)], by decide +kernel⟩

def openChildFork : ConfirmedChildFork childManager where
  store := ⟨childData, some childData⟩
  reachable := childStore_reachable
  commandId := "command-1"
  sessionId := "session-1"
  operation := ⟨"work-1", 1, emptyHash, "session-2", "key-2", none⟩
  wellFormed := by decide
  plan := ⟨"session-1", plainWork, plainCustody, "key-1", plainConversation⟩
  admitted := by decide +kernel
  before := []
  after := []
  fence := ⟨5, true⟩
  fenced := by decide +kernel
  undisturbed := trivial
  nativeReference := "thread-2"
  wellTargeted := by decide +kernel
  targetMoment := ⟨6, true⟩
  sourceMoment := ⟨7, true⟩
  written := ⟨rfl, rfl⟩

end HarnessControl.Harnesses
