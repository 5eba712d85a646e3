import HarnessControl.State.Store

/-!
# Native conversations

`saveNativeConversation` replaces the record at a key after it has compared the dispatch evidence,
the configuration and the identity of the new record with the stored one.
-/

namespace HarnessControl.State

open HarnessControl.Library HarnessControl.Protocol

/-- The first problem that an earlier receipt finds in its successor. -/
def evidenceProblem {α : Type} (key : α → String) (problem : α → Option α → Option String)
    (previous next : List α) : Option String :=
  previous.findSome? fun receipt =>
    problem receipt (next.find? fun other => key other == key receipt)

theorem evidenceProblem_eq_none {α : Type} {key : α → String}
    {problem : α → Option α → Option String} {previous next : List α} :
    evidenceProblem key problem previous next = none ↔
      ∀ receipt ∈ previous,
        problem receipt (next.find? fun other => key other == key receipt) = none := by
  unfold evidenceProblem
  rw [List.findSome?_eq_none_iff]

/-- Some completed receipt of `next` has no receipt of its identity in `previous`. -/
def completedUnfenced {α : Type} (key : α → String) (phase : α → Phase)
    (previous next : List α) : Bool :=
  next.any fun receipt =>
    phase receipt == .completed && !(previous.any fun prior => key prior == key receipt)

/-! ## Evidence -/

def goalControlProblem (receipt : GoalControlReceipt) (next : Option GoalControlReceipt) :
    Option String :=
  let kept := next.any fun next =>
    { next with phase := receipt.phase, result := receipt.result } == receipt &&
    (receipt.phase == .pending || next == receipt)
  if kept then none
  else some "Native goal control dispatch evidence cannot be removed or rewritten."

def feedbackProblem (receipt : FeedbackReceipt) : Option FeedbackReceipt → Option String
  | none => some "Native feedback dispatch evidence cannot be erased."
  | some next =>
    if { next with phase := receipt.phase, result := receipt.result } == receipt &&
        (receipt.phase == .pending || next == receipt) then none
    else some "Native feedback dispatch evidence cannot be rewritten."

def transitionProblem (proven : Bool) (receipt : ConfigurationTransition)
    (next : Option ConfigurationTransition) : Option String :=
  let kept := next.any fun next =>
    { next with phase := receipt.phase } == receipt &&
    !(receipt.phase == .completed && next.phase == .pending) &&
    !(receipt.phase == .pending && next.phase == .completed && !proven)
  if kept then none
  else some "Native configuration transition evidence cannot be erased or rewritten."

/-- The new record installs the replacement thread of a completed rollback. -/
def provenReplacement (previous : Option NativeConversation) (conversation : NativeConversation) :
    Bool :=
  previous.any fun old => old.rollback.any fun rollback =>
    rollback.phase == .completed &&
    rollback.replacementNativeThreadId == some conversation.nativeThreadId &&
    conversation.rollback == some rollback && rollback.nativeFresh == conversation.fresh

/-- The new record installs the target of a transition that it completes. -/
def ConfigurationTransition.provenBy (receipt : ConfigurationTransition)
    (old conversation : NativeConversation) : Bool :=
  receipt.phase == .pending && receipt.sourceBindingHash == old.bindingHash &&
  (old.configurationBaseHash == conversation.configurationBaseHash ||
    receipt.change == some .mcpCatalog && old.configurationAuthorityHash.isSome &&
      old.configurationAuthorityHash == conversation.configurationAuthorityHash) &&
  receipt.targetBindingHash == conversation.bindingHash &&
  receipt.targetSessionId == conversation.lastSessionId &&
  conversation.configurationTransitions.any fun next =>
    next.phase == .completed && { next with phase := .pending } == receipt

def provenTransition (previous : Option NativeConversation) (conversation : NativeConversation) :
    Bool :=
  previous.any fun old => old.configurationBaseHash.isSome &&
    old.configurationTransitions.any fun receipt => receipt.provenBy old conversation

/-- The identity or the scope of a stored conversation differs in its new record. -/
def scopeChanged (old conversation : NativeConversation) (transition replacement : Bool) : Bool :=
  (!transition && old.bindingHash != conversation.bindingHash) ||
  old.providerBindingHash != conversation.providerBindingHash ||
  old.providerInstanceId != conversation.providerInstanceId ||
  old.workspaceId != conversation.workspaceId || old.cwd != conversation.cwd ||
  (!transition && old.approvalPolicy.isSome &&
    old.approvalPolicy != conversation.approvalPolicy) ||
  (!transition && old.approvalReviewer.getD .user != conversation.approvalReviewer.getD .user) ||
  (old.nativeThreadId != conversation.nativeThreadId && !replacement)

def previousReceipts {α : Type} (field : NativeConversation → List α)
    (previous : Option NativeConversation) : List α :=
  previous.elim [] field

/-- Why `saveNativeConversation` refuses a parsed record. -/
def saveNativeConversationProblem (stored : Nat) (previous : Option NativeConversation)
    (conversation : NativeConversation) : Option String :=
  let proven := provenTransition previous conversation
  let replaced := provenReplacement previous conversation
  firstProblem [
    refuseIf (previousReceipts (·.policyControls) previous != conversation.policyControls)
      "Native policy control evidence requires its dedicated atomic dispatch and confirmation path.",
    evidenceProblem GoalControlReceipt.commandId goalControlProblem
      (previousReceipts (·.goalControls) previous) conversation.goalControls,
    refuseIf (completedUnfenced GoalControlReceipt.commandId GoalControlReceipt.phase
        (previousReceipts (·.goalControls) previous) conversation.goalControls)
      "Native goal control completion requires its prior durable dispatch fence.",
    evidenceProblem FeedbackReceipt.commandId feedbackProblem
      (previousReceipts (·.feedbackSubmissions) previous) conversation.feedbackSubmissions,
    refuseIf (completedUnfenced FeedbackReceipt.commandId FeedbackReceipt.phase
        (previousReceipts (·.feedbackSubmissions) previous) conversation.feedbackSubmissions)
      "Native feedback completion requires its prior durable dispatch fence.",
    refuseIf ((previous.any fun old => old.configurationBaseHash.isSome &&
        old.configurationBaseHash != conversation.configurationBaseHash) && !proven)
      "Native conversation configuration base changed.",
    refuseIf (previous.any fun old => old.configurationAuthorityHash.isSome &&
        old.configurationAuthorityHash != conversation.configurationAuthorityHash)
      "Native conversation authority cannot change through catalog replacement.",
    evidenceProblem ConfigurationTransition.transitionId (transitionProblem proven)
      (previousReceipts (·.configurationTransitions) previous)
      conversation.configurationTransitions,
    -- a new record is not asked for the fences of its transitions
    refuseIf (previous.any fun old =>
        completedUnfenced ConfigurationTransition.transitionId ConfigurationTransition.phase
          old.configurationTransitions conversation.configurationTransitions)
      "Native configuration completion requires its prior durable dispatch fence.",
    refuseIf (previous.any fun old => scopeChanged old conversation proven replaced)
      "Native conversation identity or execution scope changed.",
    refuseIf (previous.isNone && decide (1024 ≤ stored))
      "Native conversation capacity exceeded; retire old runner conversations before starting another."]

/-- `if (previous) conversations[key] = previous; else delete conversations[key];` -/
def restoreConversation (key : String) (previous : Option NativeConversation)
    (data : RunnerStateData) : RunnerStateData :=
  { data with nativeConversations := data.nativeConversations.restore key previous }

def RunnerStore.saveNativeConversation (runtime : Runtime) (moment : Moment) (key : String)
    (input : NativeConversation) (store : RunnerStore) : Attempt RunnerStore :=
  if key = "" ∨ 512 < utf16Length key then
    store.refuse (.refused "Invalid native conversation key.")
  else
    match (nativeConversationSchema runtime.schemas).parse input with
    | none => store.refuse .invalid
    | some conversation =>
      let previous := store.data.nativeConversations.get? key
      match saveNativeConversationProblem store.data.nativeConversations.size previous
          conversation with
      | some message => store.refuse (.refused message)
      | none =>
        store.attempt moment.written
          ({ store.data with
              nativeConversations := store.data.nativeConversations.set key conversation }, none)
          (restoreConversation key previous)

/-- The first conversation whose last session is the given one, with its key. -/
def RunnerStore.nativeConversationForSession (store : RunnerStore) (sessionId : String) :
    Option (String × NativeConversation) :=
  store.data.nativeConversations.entries.find? fun entry => entry.2.lastSessionId == sessionId

def RunnerStore.retireNativeConversation (moment : Moment) (key : String) (store : RunnerStore) :
    Attempt RunnerStore :=
  let prior := store.data.nativeConversations.get? key
  if prior.any fun old => old.policyControls.any fun receipt => receipt.phase == .pending then
    store.refuse (.refused "An uncertain native policy dispatch cannot be erased by retirement.")
  else
    store.attempt moment.written
      ({ store.data with nativeConversations := store.data.nativeConversations.erase key }, none)
      -- nothing was there to put back
      fun data => match prior with
        | some _ => restoreConversation key prior data
        | none => data

/-! ## A record for runs on given inputs -/

def plainConversation : NativeConversation where
  nativeThreadId := "thread-1"
  bindingHash := emptyHash
  updatedAt := 0
  lastSessionId := "session-1"
  providerInstanceId := "provider-1"
  providerBindingHash := emptyHash
  workspaceId := "workspace-1"
  cwd := "/workspace"

end HarnessControl.State
