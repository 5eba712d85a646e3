import HarnessControl.Harnesses.Conversations
import HarnessControl.State.Resaved

/-!
# Context injections

An injection is dispatched behind a receipt that the runner saves first.  Between any two of the
steps the adapter may fail, and the runner may be restarted.
-/

namespace HarnessControl.Harnesses

open HarnessControl.Library HarnessControl.Protocol HarnessControl.State

/-- An admitted injection, in the callback that `#serializeWorkspace` runs. -/
structure ActiveInjection where
  request : ConversationRequest
  operation : InjectOperation
  plan : ConversationPlan
  /-- `injectionStarted`. -/
  started : Bool

structure InjectionRun where
  store : RunnerStore
  active : Option ActiveInjection
  /-- The mutations past their fence: the key of the conversation, and the command. -/
  dispatched : List (String × String)

inductive InjectionAction where
  | request (request : ConversationRequest)
  | beginMutation (moment : Moment)
  | confirm (moment : Moment) (result : ConversationResult)
  /-- The adapter fails, or the runner is restarted. -/
  | abandon
  /-- Another writer of the store. -/
  | other (after : RunnerStore)

/-- Every conversation keeps its receipts of injections, as in all operations but `retire`. -/
def keepsInjections (before after : RunnerStore) : Bool :=
  before.data.nativeConversations.entries.all fun entry =>
    (after.data.nativeConversations.get? entry.1).any (·.injections == entry.2.injections)

def InjectionRun.step (manager : Manager) (run : InjectionRun) : InjectionAction → InjectionRun
  | .request request =>
    match run.active, request.operation, manager.admitConversation run.store request with
    | none, .inject operation, .admitted plan =>
      { run with active := some ⟨request, operation, plan, false⟩ }
    | _, _, _ => run
  | .beginMutation moment =>
    match run.active with
    | some ⟨request, operation, plan, false⟩ =>
      let attempt := manager.fenceInjection moment request.commandId
        (manager.hash (operation.toJson request.sessionId)) plan run.store
      { store := attempt.state
        active := some ⟨request, operation, plan, true⟩
        dispatched := if attempt.failure.isNone
          then run.dispatched ++ [(plan.key, request.commandId)] else run.dispatched }
    | _ => run
  | .confirm moment result =>
    match run.active with
    | some ⟨request, operation, plan, true⟩ =>
      { run with
        store := (manager.recordInjection moment request operation plan result run.store).1
        active := none }
    | _ => { run with active := none }
  | .abandon => { run with active := none }
  | .other after => if keepsInjections run.store after then { run with store := after } else run

/-! ## Receipts -/

def injectionIds (conversation : NativeConversation) : List String :=
  conversation.injections.map (·.commandId)

/-- The record of the plan with a further receipt, as both saves of an injection write it. -/
def withReceipt (plan : ConversationPlan) (receipt : InjectionReceipt) : NativeConversation :=
  { plan.conversation with injections := plan.conversation.injections ++ [receipt] }

def HoldsReceipt (store : RunnerStore) (entry : String × String) : Prop :=
  ∃ conversation, store.data.nativeConversations.get? entry.1 = some conversation ∧
    entry.2 ∈ injectionIds conversation

/-- A dispatched command has its receipt, in the store and in the record that is saved next. -/
structure InjectionRun.Fenced (run : InjectionRun) : Prop where
  once : run.dispatched.Nodup
  held : ∀ entry ∈ run.dispatched, HoldsReceipt run.store entry
  planned : ∀ active ∈ run.active, ∀ entry ∈ run.dispatched, entry.1 = active.plan.key →
    entry.2 ∈ injectionIds active.plan.conversation ∨
      active.started = true ∧ entry.2 = active.request.commandId

theorem InjectionRun.Fenced.save {run : InjectionRun} (h : run.Fenced) {active : ActiveInjection}
    (hactive : run.active = some active) (receipt : InjectionReceipt)
    (hreceipt : receipt.commandId = active.request.commandId) (runtime : Runtime)
    (moment : Moment) :
    let record := withReceipt active.plan receipt
    let attempt := run.store.saveNativeConversation runtime moment active.plan.key record
    (∀ entry ∈ run.dispatched, HoldsReceipt attempt.state entry) ∧
      (attempt.failure = none → record.valid runtime.schemas = true ∧
        HoldsReceipt attempt.state (active.plan.key, active.request.commandId)) := by
  intro record attempt
  have hrecords : RecordsAfter runtime moment run.store
      (.saveNativeConversation active.plan.key record) attempt :=
    run.store.saveNativeConversation_records active.plan.key record
  have hids : injectionIds record =
      injectionIds active.plan.conversation ++ [active.request.commandId] := by
    rw [← hreceipt]
    exact List.map_append
  rcases hrecords with ⟨hsame, hsilent⟩ | ⟨-, hsaved⟩
  · constructor
    · intro entry hin
      obtain ⟨conversation, hfound, hid⟩ := h.held entry hin
      exact ⟨conversation, (hsame.conversations entry.1).trans hfound, hid⟩
    · intro hreturned
      cases hsilent hreturned
  · cases hsaved with
    | conversation valid admitted reviews conversations work =>
      have hheld : ∀ id ∈ injectionIds record,
          HoldsReceipt attempt.state (active.plan.key, id) := by
        intro id hid
        refine ⟨record, ?_, hid⟩
        rw [conversations, Dict.get?_set_self]
      rw [hids] at hheld
      refine ⟨?_, fun _ => ⟨valid, hheld _ (List.mem_append_right _ List.mem_cons_self)⟩⟩
      rintro ⟨key, id⟩ hin
      by_cases hkey : key = active.plan.key
      · subst hkey
        apply hheld
        rcases h.planned active hactive _ hin rfl with hplanned | ⟨-, rfl⟩
        · exact List.mem_append_left _ hplanned
        · exact List.mem_append_right _ List.mem_cons_self
      · obtain ⟨conversation, hfound, hid⟩ := h.held _ hin
        refine ⟨conversation, ?_, hid⟩
        rw [conversations, Dict.get?_set_of_ne _ _ hkey, hfound]

theorem InjectionRun.Fenced.step {run : InjectionRun} (h : run.Fenced) (manager : Manager)
    (action : InjectionAction) : (run.step manager action).Fenced := by
  cases action with
  | request request =>
    unfold InjectionRun.step
    dsimp only
    split
    · rename_i plan hidle hoperation hadmitted
      refine ⟨h.once, h.held, ?_⟩
      rintro active ⟨⟩ entry hin hkey
      obtain ⟨conversation, hfound, hid⟩ := h.held entry hin
      have hbound := nativeConversationForSession_stored
        (Manager.admitConversation_admitted hadmitted).bound
      rw [hkey, hbound] at hfound
      obtain rfl := Option.some.inj hfound
      exact Or.inl hid
    · exact h
  | beginMutation moment =>
    unfold InjectionRun.step
    dsimp only
    split
    · rename_i request operation plan hactive
      obtain ⟨hheld, hsaved⟩ := h.save hactive ⟨request.commandId,
        manager.hash (operation.toJson request.sessionId), .pending, none⟩ rfl manager.runtime
          moment
      have hplanned := h.planned _ hactive
      split
      · rename_i hnone
        obtain ⟨hvalid, hnew⟩ := hsaved (Option.isNone_iff_eq_none.mp hnone)
        have hfresh : (plan.key, request.commandId) ∉ run.dispatched := by
          intro hin
          -- the receipt would stand twice in the record
          have hunique := of_decide_eq_true (NativeConversation.valid_unique hvalid).injections
          unfold withReceipt at hunique
          rw [List.map_append, List.nodup_append] at hunique
          rcases hplanned _ hin rfl with hold | ⟨hstarted, -⟩
          · exact hunique.2.2 _ hold _ List.mem_cons_self rfl
          · cases hstarted
        constructor
        · exact h.once.append (List.nodup_singleton _) (List.disjoint_singleton.mpr hfresh)
        · exact List.forall_mem_append.mpr ⟨hheld, List.forall_mem_singleton.mpr hnew⟩
        · rintro active ⟨⟩ entry hin hkey
          rcases List.mem_append.mp hin with hold | hlast
          · exact (hplanned entry hold hkey).imp_right fun hstarted => ⟨rfl, hstarted.2⟩
          · exact Or.inr ⟨rfl, congrArg Prod.snd (List.mem_singleton.mp hlast)⟩
      · refine ⟨h.once, hheld, ?_⟩
        rintro active ⟨⟩ entry hin hkey
        exact (hplanned entry hin hkey).imp_right fun hstarted => ⟨rfl, hstarted.2⟩
    · exact h
  | confirm moment result =>
    unfold InjectionRun.step
    dsimp only
    split
    · rename_i request operation plan hactive
      refine ⟨h.once, ?_, fun _ hnone => by cases hnone⟩
      unfold Manager.recordInjection
      dsimp only
      split
      · exact h.held
      · split
        · exact h.held
        · exact (h.save hactive _ rfl manager.runtime moment).1
    · exact ⟨h.once, h.held, fun _ hnone => by cases hnone⟩
  | abandon => exact ⟨h.once, h.held, fun _ hnone => by cases hnone⟩
  | other after =>
    unfold InjectionRun.step
    dsimp only
    split
    · rename_i hkeeps
      refine ⟨h.once, ?_, h.planned⟩
      intro entry hin
      obtain ⟨conversation, hfound, hid⟩ := h.held entry hin
      have hentry := List.all_eq_true.mp hkeeps _ (Dict.get?_eq_some_iff.mp hfound)
      obtain ⟨next, hnext, hsame⟩ := (Option.any_eq_true _ _).mp hentry
      refine ⟨next, hnext, ?_⟩
      unfold injectionIds at hid ⊢
      rwa [beq_iff_eq.mp hsame]
    · exact h

/-- However requests, restarts and other operations come, an injection is dispatched once, and its
receipt stays with the conversation. -/
theorem injections_dispatched_once (manager : Manager) (store : RunnerStore)
    (actions : List InjectionAction) :
    let run := actions.foldl (InjectionRun.step manager) ⟨store, none, []⟩
    run.dispatched.Nodup ∧ ∀ entry ∈ run.dispatched, HoldsReceipt run.store entry := by
  have hrun : (actions.foldl (InjectionRun.step manager) ⟨store, none, []⟩).Fenced := by
    apply List.foldlRecOn (motive := InjectionRun.Fenced)
    · constructor
      · exact List.nodup_nil
      · exact fun _ hin => absurd hin List.not_mem_nil
      · exact fun _ hnone => by cases hnone
    · exact fun run h action _ => h.step manager action
  exact ⟨hrun.once, hrun.held⟩

end HarnessControl.Harnesses
