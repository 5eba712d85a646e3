import HarnessControl.State.McpHistory

/-!
# Runs of the store with their histories

Any calls in any order; for every session the run keeps the saves of its current review, and every
list of saves is a chain of edges.
-/

namespace HarnessControl.State

open HarnessControl.Library HarnessControl.Protocol

def StoreAction.reviewEvent : StoreAction → Option HarnessEvent
  | .saveMcpReview _ event => event
  | _ => none

/-- A store with the events it has committed and, for each session, the saves of its review. -/
structure ReviewRun extends StoreRun where
  saves : String → List ReviewSave

def ReviewRun.fresh : ReviewRun := ⟨StoreRun.fresh, fun _ => []⟩

/-- The saves since the review was created, without the repeated ones. -/
def savesAfter (saves : List ReviewSave) (before after : Option McpReview)
    (event : Option HarnessEvent) : List ReviewSave :=
  match after with
  | none => []
  | some review => if before = some review then saves else saves ++ [⟨review, event⟩]

def ReviewRun.step (runtime : Runtime) (run : ReviewRun) (call : Moment × StoreAction) : ReviewRun :=
  let next := run.toStoreRun.step runtime (.call call.1 call.2)
  { next with
    saves := fun sessionId => savesAfter (run.saves sessionId)
      (run.store.data.mcpReviews.get? sessionId) (next.store.data.mcpReviews.get? sessionId)
      call.2.reviewEvent }

/-- Every review has the history it should have, and its events are committed in their order. -/
def ReviewRun.Lawful (run : ReviewRun) : Prop :=
  ∀ sessionId, ReviewHistory (run.saves sessionId) ∧
    (savedEvents (run.saves sessionId)).Sublist run.committed

/-- A round that an accepted save opens has an id of its own. -/
def ReviewRun.freshens (runtime : Runtime) (run : ReviewRun) (call : Moment × StoreAction) : Prop :=
  match call.2 with
  | .saveMcpReview review event =>
    (run.store.perform runtime call.1 (.saveMcpReview review event)).returned = true →
      run.store.data.mcpReviews.get? review.start.sessionId ≠ some review.kept →
        FreshRound (run.saves review.start.sessionId) ⟨review, event⟩
  | _ => True

instance (runtime : Runtime) (run : ReviewRun) :
    (call : Moment × StoreAction) → Decidable (run.freshens runtime call)
  | (_, .saveMcpReview review event) =>
    inferInstanceAs (Decidable (_ → _ →
      FreshRound (run.saves review.start.sessionId) ⟨review, event⟩))
  | (_, .appendEvent _) | (_, .clearMcpReview _ _ _) | (_, .saveNativeConversation _ _)
  | (_, .retireNativeConversation _) | (_, .saveNativeWorkState _ _ _)
  | (_, .removeEmptyNativeWorkState _) | (_, .beginNativePolicyControl _ _)
  | (_, .completeNativePolicyControl _ _ _ _ _) | (_, .getReceipt) | (_, .setCommandReceipt _ _)
  | (_, .setLocalActionReceipt _ _) => isTrue trivial

/-- The saves of a session are the chain that has led to its review. -/
def Chained (host : Host) (schemas : PayloadSchemas) (saves : List ReviewSave) :
    Option McpReview → Prop
  | none => saves = []
  | some review => ∃ last, ReviewChain host schemas saves last ∧ last.review = review

/-- What a run keeps about the review of one session. -/
structure Tracked (runtime : Runtime) (committed : List HarnessEvent) (saves : List ReviewSave)
    (review : Option McpReview) : Prop where
  chained : Chained runtime.host runtime.schemas saves review
  fresh : Throughout FreshRound saves
  committed : (savedEvents saves).Sublist committed

def ReviewRun.Tracks (runtime : Runtime) (run : ReviewRun) : Prop :=
  ∀ sessionId, Tracked runtime run.committed (run.saves sessionId)
    (run.store.data.mcpReviews.get? sessionId)

section Tracking

variable {runtime : Runtime} {run : ReviewRun}

theorem ReviewRun.Tracks.initial : ReviewRun.fresh.Tracks runtime :=
  fun _ => ⟨rfl, Throughout.nil _, List.nil_sublist _⟩

variable {committed : List HarnessEvent} {saves : List ReviewSave}

theorem Tracked.lawful {review : Option McpReview} (h : Tracked runtime committed saves review) :
    ReviewHistory saves := by
  have hchained := h.chained
  cases review with
  | none =>
    change saves = [] at hchained
    rw [hchained]
    exact ReviewHistory.nil
  | some review =>
    rcases hchained with ⟨last, hchain, -⟩
    exact hchain.history h.fresh

theorem ReviewRun.Tracks.lawful (h : run.Tracks runtime) : run.Lawful :=
  fun sessionId => ⟨(h sessionId).lawful, (h sessionId).committed⟩

/-! ## The step -/

theorem savesAfter_same {host : Host} {schemas : PayloadSchemas}
    {review : Option McpReview} (h : Chained host schemas saves review)
    (event : Option HarnessEvent) : savesAfter saves review review event = saves := by
  cases review with
  | none => exact h.symm
  | some review => exact if_pos rfl

variable {before : Option McpReview}

theorem savesAfter_new {review : McpReview}
    (h : before ≠ some review) (event : Option HarnessEvent) :
    savesAfter saves before (some review) event = saves ++ [⟨review, event⟩] := if_neg h

variable {event : Option HarnessEvent}

theorem Chained.accepted {host : Host} {schemas : PayloadSchemas} {now : Int} {previous : Option McpReview} {review : McpReview} (h : Chained host schemas saves previous)
    (hvalid : review.valid host schemas = true)
    (haccepted : Accepted host now review previous event) :
    previous = some review ∧ event = none ∨
      previous ≠ some review ∧ ReviewChain host schemas (saves ++ [⟨review, event⟩]) ⟨review, event⟩ := by
  have houtcome : review.outcome.valid host schemas = true := by
    unfold McpReview.valid at hvalid
    rw [Bool.and_eq_true] at hvalid
    exact hvalid.2
  cases haccepted with
  | created initial announced =>
    change saves = [] at h
    rw [h]
    exact Or.inr ⟨nofun, .created houtcome initial announced⟩
  | repeated => exact Or.inl ⟨rfl, rfl⟩
  | @advanced old _ binding edge announced =>
    right
    rcases h with ⟨last, hchain, rfl⟩
    have hedge := edge_of_advances edge
    refine ⟨fun heq => ?_, .advanced hchain houtcome binding hedge announced⟩
    have hlt : last.outcome.rank < review.outcome.rank := hedge.rank_lt hchain.valid_last
    rw [ReviewSave.outcome, Option.some.inj heq] at hlt
    exact Nat.lt_irrefl _ hlt


theorem opens_kept (outcome : McpOutcome) : outcome.kept.opens = outcome.opens := by
  cases outcome <;> rfl

theorem StoreRun.step_committed (run : StoreRun) (moment : Moment) (action : StoreAction) :
    run.committed.Sublist (run.step runtime (.call moment action)).committed := by
  change run.committed.Sublist (if _ then _ else _)
  split
  · exact List.sublist_append_left _ _
  · exact List.Sublist.refl _

theorem Tracked.same {committed later : List HarnessEvent}
    {before after : Option McpReview}
    (h : Tracked runtime committed saves before) (hlater : committed.Sublist later)
    (hafter : after = before) :
    Tracked runtime later (savesAfter saves before after event) after := by
  subst hafter
  rw [savesAfter_same h.chained]
  exact ⟨h.chained, h.fresh, h.committed.trans hlater⟩

theorem Tracked.absent :
    Tracked runtime committed (savesAfter saves before none event) none :=
  ⟨rfl, Throughout.nil _, List.nil_sublist _⟩

theorem Tracked.saved {review : McpReview} {now : Int}
    (h : Tracked runtime committed saves before)
    (hvalid : review.valid runtime.host runtime.schemas = true)
    (haccepted : Accepted runtime.host now review before event)
    (hfresh : before ≠ some review → FreshRound saves ⟨review, event⟩) :
    Tracked runtime (committed ++ event.toList) (savesAfter saves before (some review) event)
      (some review) := by
  rcases h.chained.accepted hvalid haccepted with ⟨hsame, rfl⟩ | ⟨hne, hchain⟩
  · exact h.same (List.sublist_append_left _ _) hsame.symm
  · rw [savesAfter_new hne]
    refine ⟨⟨_, hchain, rfl⟩, throughout_concat.mpr ⟨h.fresh, hfresh hne⟩, ?_⟩
    have hevents : savedEvents (saves ++ [⟨review, event⟩]) = savedEvents saves ++ event.toList := by
      unfold savedEvents
      rw [List.filterMap_append]
      cases event <;> rfl
    rw [hevents]
    exact h.committed.append (List.Sublist.refl _)

inductive ReviewAfter (runtime : Runtime) (moment : Moment) (returned : Bool)
    (before : Option McpReview) (sessionId : String) : StoreAction → Option McpReview → Prop
  | same {action : StoreAction} : ReviewAfter runtime moment returned before sessionId action before
  | absent {action : StoreAction} : ReviewAfter runtime moment returned before sessionId action none
  | saved {input : McpReview} {event : Option HarnessEvent} (success : returned = true)
    (named : input.start.sessionId = sessionId)
    (valid : input.kept.valid runtime.host runtime.schemas = true)
    (accepted : Accepted runtime.host moment.now input.kept before event) :
    ReviewAfter runtime moment returned before sessionId (.saveMcpReview input event)
      (some input.kept)

theorem RunnerStore.perform_review (store : RunnerStore) (moment : Moment) (action : StoreAction)
    (sessionId : String) :
    ReviewAfter runtime moment (store.perform runtime moment action).returned
      (store.data.mcpReviews.get? sessionId) sessionId action
      ((store.perform runtime moment action).state.data.mcpReviews.get? sessionId) := by
  have hrecords : RecordsAfter runtime moment store action _ := store.perform_records action
  generalize store.perform runtime moment action = attempt at hrecords
  rcases attempt with ⟨after, failure⟩
  have unchanged : after.data.mcpReviews = store.data.mcpReviews →
      ReviewAfter runtime moment failure.isNone (store.data.mcpReviews.get? sessionId) sessionId
        action (after.data.mcpReviews.get? sessionId) := by
    intro hreviews
    rw [hreviews]
    exact .same
  rcases hrecords with ⟨hsame, -⟩ | ⟨hreturned, hsaved⟩
  · rw [hsame.reviews sessionId]
    exact .same
  · cases hsaved with
    | @review input review event parsed admitted reviews conversations work =>
      rcases Schema.normalized_parse parsed with ⟨rfl, hvalid⟩
      have hnamed : input.kept.start.sessionId = input.start.sessionId := rfl
      rw [reviews, hnamed]
      by_cases heq : sessionId = input.start.sessionId
      · subst heq
        rw [Dict.get?_set_self]
        exact .saved (Option.isNone_iff_eq_none.mpr hreturned) rfl hvalid
          (accepted_of_saveMcpReview admitted)
      · rw [Dict.get?_set_of_ne _ _ heq]
        exact .same
    | @cleared clearedId requestId events matched reviews conversations work =>
      rw [reviews]
      by_cases heq : sessionId = clearedId
      · rw [heq, Dict.get?_erase_self]
        exact .absent
      · rw [Dict.get?_erase_of_ne _ heq]
        exact .same
    | conversation valid admitted reviews conversations work => exact unchanged reviews
    | retired reviews conversations work => exact unchanged reviews
    | work parsed admitted reviews conversations work => exact unchanged reviews
    | workRemoved stored removable reviews conversations work => exact unchanged reviews
    | controlBegun stored owner phase owned settled valid reviews conversations sameWork =>
      exact unchanged reviews
    | controlCompleted stored owner confirmable valid validWork reviews conversations nextWork =>
      exact unchanged reviews

theorem ReviewRun.Tracks.step (h : run.Tracks runtime) (call : Moment × StoreAction)
    (hfresh : run.freshens runtime call) : (run.step runtime call).Tracks runtime := by
  rcases call with ⟨moment, action⟩
  intro sessionId
  have hbefore := h sessionId
  have hlater : run.committed.Sublist (run.step runtime (moment, action)).committed :=
    run.toStoreRun.step_committed moment action
  have hreview : ReviewAfter runtime moment _ _ sessionId action
      ((run.step runtime (moment, action)).store.data.mcpReviews.get? sessionId) :=
    run.store.perform_review moment action sessionId
  change Tracked runtime _ (savesAfter (run.saves sessionId)
    (run.store.data.mcpReviews.get? sessionId)
    ((run.step runtime (moment, action)).store.data.mcpReviews.get? sessionId)
    action.reviewEvent) _
  generalize (run.step runtime (moment, action)).store.data.mcpReviews.get? sessionId = after
    at hreview ⊢
  cases hreview with
  | same => exact hbefore.same hlater rfl
  | absent => exact Tracked.absent
  | @saved input event success named valid accepted =>
    have hcommitted : (run.step runtime (moment, .saveMcpReview input event)).committed =
        run.committed ++ event.toList := if_pos success
    rw [hcommitted]
    apply hbefore.saved valid accepted
    intro hne round hopens
    rw [← named] at hne ⊢
    exact hfresh success hne round ((opens_kept input.outcome).symm.trans hopens)

end Tracking

/-- Where no round is opened under the id of a resolved request, every review of every session has
the history it should have. -/
theorem review_history (runtime : Runtime) (calls : List (Moment × StoreAction))
    (hfresh : Meets (ReviewRun.step runtime) (ReviewRun.freshens runtime) ReviewRun.fresh calls) :
    Always (ReviewRun.step runtime) ReviewRun.Lawful ReviewRun.fresh calls := by
  have htracks := always_of_meets (I := ReviewRun.Tracks runtime)
    (fun run call h hcall => h.step call hcall) ReviewRun.Tracks.initial hfresh
  exact htracks.mono fun run h => h.lawful

/-! ## Two histories -/

/-- The action of a tool call without arguments, as a reviewer is shown it. -/
def plainActionText : String :=
  "\x7b\"kind\":\"mcp_tool\",\"attachment_name\":\"a\",\"tool_name\":\"t\",\"arguments\":\x7b\x7d\x7d"

def plainActionHash : String := "151312cb89637a943b13fd588a19d4676f27a89a8a39e04ed4654f7e9a636801"

/-- Only the action's text is parsed and hashed with it. -/
def reviewHost : Host where
  sha256 _ := plainActionHash
  sha256_hex _ := by decide
  parseJson _ := some (.obj (JsonFields.ofList [("kind", .str "mcp_tool"),
    ("attachment_name", .str "a"), ("tool_name", .str "t"), ("arguments", .obj .nil)]))
  stringify _ := ""
  workText _ := ""
  parseTime _ := none
  localeLe left right := decide (left ≤ right)

def reviewRuntime : Runtime := { plainRuntime with host := reviewHost }

def plainStart : SessionStartPayload where
  sessionId := "session-1"
  workspaceId := "workspace-1"
  providerInstanceId := "provider-1"
  driverKind := "driver"
  continuationGroupKey := none
  cwd := "/"
  continueSession := false
  conversationTransition := none
  expectedNativeReference := none
  policyControlAuthority := none
  executionProfile := none
  approvalPolicy := .ask
  approvalReviewer := none
  approvalOptions := none
  firstTurn := none
  settings := .obj .nil

def plainReview : McpReview where
  start := plainStart
  turn := ⟨"session-1", "turn-1", .obj .nil⟩
  nativeThreadId := "thread-1"
  nativeTurnId := "native-turn-1"
  nativeCallId := "call-1"
  nativeWorkId := none
  nativeRequest := none
  requestId := "request-1"
  action := ⟨plainActionText, plainActionHash⟩
  expiresAt := 1000
  outcome := .waiting

def plainPending : PendingInput := ⟨Dict.empty, some "state-1", none⟩

def inRound (requestId : String) (outcome : InputRound → McpOutcome) : McpReview :=
  { plainReview with outcome := outcome ⟨requestId, 1, some "actor-1"⟩ }

def plainEvent (sequence : Nat) (eventType requestId : String) (fields : List (String × Json)) :
    HarnessEvent where
  sessionId := "session-1"
  turnId := some "turn-1"
  sequence := sequence
  eventType := eventType
  createdAt := 0
  data := .obj (JsonFields.ofList ([("request_id", .str requestId), ("session_id", .str "session-1"),
    ("turn_id", .str "turn-1")] ++ fields))

/-- An approval is accepted, and the tool asks for an input under the given request id. -/
def plainCalls (requestId : String) : List (Moment × StoreAction) :=
  [(⟨0, true⟩, .saveMcpReview plainReview (plainEvent 1 "approval.requested" "request-1"
      [("action_hash", .str plainActionHash), ("action", .str plainActionText)])),
    (⟨1, true⟩, .saveMcpReview { plainReview with outcome := .dispatching "actor-1" }
      (plainEvent 2 "approval.resolved" "request-1" [("action_hash", .str plainActionHash),
        ("actor_id", .str "actor-1"), ("decision", .str "accept")])),
    (⟨2, true⟩, .saveMcpReview (inRound requestId fun round => .inputWaiting round plainPending)
      (plainEvent 3 "input.requested" requestId [])),
    (⟨3, true⟩, .saveMcpReview
      (inRound requestId fun round => .inputResuming round ⟨plainPending, Dict.empty⟩ "actor-2")
      (plainEvent 4 "input.resolved" requestId [("actor_id", .str "actor-2")]))]

/-- With an id of its own for the round, the history is as it should be. -/
theorem review_history_answered :
    Always (ReviewRun.step reviewRuntime) ReviewRun.Lawful ReviewRun.fresh
      (plainCalls "request-2") :=
  review_history reviewRuntime (plainCalls "request-2") (by decide +kernel)

/-- The first round may take the request id of the approval, which is then resolved twice. -/
theorem request_resolved_twice :
    ¬Always (ReviewRun.step reviewRuntime) ReviewRun.Lawful ReviewRun.fresh
      (plainCalls "request-1") := by
  intro h
  have honce := (h.last "session-1").1.once "request-1" 0
  have hevents : savedEvents
      ((run (ReviewRun.step reviewRuntime) ReviewRun.fresh (plainCalls "request-1")).saves
        "session-1") = (plainCalls "request-1").filterMap fun call => call.2.reviewEvent := by
    decide +kernel
  rw [hevents] at honce
  exact absurd (honce _ rfl (by decide)) (by decide)

end HarnessControl.State
