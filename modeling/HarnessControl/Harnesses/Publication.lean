import HarnessControl.Harnesses.Replay
import HarnessControl.Library.Broadcast
import HarnessControl.State.McpRuns

/-!
# Publication of committed events

`#event` commits an event and publishes it at once.  A policy control commits inside the adapter's
call and publishes after it, the reviews of native work publish through the same queue, and those of
a turn through the turn's own callback.  Events, operations and callbacks come in any order.
-/

namespace HarnessControl.Harnesses

open HarnessControl.Library HarnessControl.Protocol HarnessControl.State

/-- `terminalTurnEvents`. -/
def terminalTurnEvents : List String :=
  ["turn.completed", "turn.failed", "turn.cancelled", "turn.aborted"]

/-- A manager's store and its subscribers. -/
structure EventHost where
  run : StoreRun
  /-- A subscriber remembers what was committed when it was registered. -/
  broadcast : Broadcast HarnessEvent (List HarnessEvent)
  /-- The events of policy controls that are committed while the adapter's call is under way. -/
  policies : List HarnessEvent

/-- A manager opened on a store. -/
def EventHost.start (run : StoreRun) : EventHost := ⟨run, Broadcast.opened run.committed, []⟩

inductive EventAction where
  /-- `#event`, with the work state that it saves. -/
  | event (moment : Moment) (sessionId : String) (turnId : Option String) (eventType : String)
    (data : Json) (work : Option NativeWorkState)
  /-- A save of a review; `aborted` if its signal is when the request would be published. -/
  | review (moment : Moment) (review : McpReview) (event : Option HarnessEvent) (aborted : Bool)
  /-- `#retireSavedReview`. -/
  | retire (moment : Moment) (sessionId requestId : String) (events : List HarnessEvent)
  /-- The `commit` of a policy control. -/
  | policyCommitted (moment : Moment) (key sessionId commandId : String)
    (result : ConversationResult) (event : HarnessEvent)
  | policyReturned (sessionId : String)
  | policyFailed (sessionId : String)
  /-- A call that commits no event. -/
  | silent (moment : Moment) (action : StoreAction)
  | subscribe
  | unsubscribe (id : Nat)
  /-- The next step of the publication loop. -/
  | advance (throws : Bool)

/-- The bound on `#publicationAdmissions`. -/
def publicationLimit : Nat := 128

def EventHost.full (host : EventHost) : Bool := host.broadcast.full publicationLimit

def EventHost.accepts (runtime : Runtime) (host : EventHost) (moment : Moment)
    (action : StoreAction) : Bool := (host.run.store.perform runtime moment action).returned

def EventHost.call (runtime : Runtime) (host : EventHost) (moment : Moment) (action : StoreAction) :
    EventHost := { host with run := host.run.step runtime (.call moment action) }

/-- `#publishPersistedEvent`. -/
def EventHost.publishPersistedEvent (runtime : Runtime) (event : HarnessEvent) (host : EventHost) :
    EventHost :=
  if event.valid runtime.schemas = true ∧ host.full = false then
    { host with broadcast := host.broadcast.publish event }
  else host

/-- The event that `#event` commits; an empty turn id is none. -/
def EventHost.payload (host : EventHost) (moment : Moment) (sessionId : String)
    (turnId : Option String) (eventType : String) (data : Json) : HarnessEvent where
  sessionId
  turnId := turnId.filter fun id => id != ""
  sequence := host.run.store.data.nextEventSequence sessionId
  eventType
  createdAt := moment.now
  data

/-- The call by which `#event` commits its event. -/
def EventHost.eventCall (host : EventHost) (payload : HarnessEvent) :
    Option NativeWorkState → StoreAction
  | some state => .saveNativeWorkState payload.sessionId state (some payload)
  | none =>
    match host.run.store.data.mcpReviews.get? payload.sessionId with
    | none => .appendEvent payload
    | some review =>
      if terminalTurnEvents.contains payload.eventType &&
          some review.turn.turnId == payload.turnId && review.nativeWorkId.isNone then
        .clearMcpReview payload.sessionId review.requestId [payload]
      else .appendEvent payload

def EventHost.event (runtime : Runtime) (host : EventHost) (moment : Moment)
    (payload : HarnessEvent) (work : Option NativeWorkState) : EventHost :=
  if host.full then host
  else
    let action := host.eventCall payload work
    let next := host.call runtime moment action
    if host.accepts runtime moment action then next.publishPersistedEvent runtime payload else next

/-- The reviews of native work publish through the manager, those of a turn do not. -/
def EventHost.saveReview (runtime : Runtime) (host : EventHost) (moment : Moment)
    (review : McpReview) (event : Option HarnessEvent) (aborted : Bool) : EventHost :=
  let action := StoreAction.saveMcpReview review event
  let next := host.call runtime moment action
  match event with
  | none => next
  | some event =>
    if host.accepts runtime moment action && review.nativeWorkId.isSome && !aborted then
      next.publishPersistedEvent runtime event
    else next

/-- The policy control of a session is over; another one of the session cannot have begun. -/
def EventHost.settlePolicy (host : EventHost) (sessionId : String) : EventHost :=
  { host with policies := host.policies.filter fun event => event.sessionId != sessionId }

def EventHost.step (runtime : Runtime) (host : EventHost) : EventAction → EventHost
  | .event moment sessionId turnId eventType data work =>
    host.event runtime moment (host.payload moment sessionId turnId eventType data) work
  | .review moment review event aborted => host.saveReview runtime moment review event aborted
  | .retire moment sessionId requestId events =>
    host.call runtime moment (.clearMcpReview sessionId requestId events)
  | .policyCommitted moment key sessionId commandId result event =>
    let action := StoreAction.completeNativePolicyControl key sessionId commandId result event
    let next := host.call runtime moment action
    if host.accepts runtime moment action then
      { next with policies := next.policies ++ [event] }
    else next
  | .policyReturned sessionId =>
    match sessionLog host.policies sessionId with
    | [] => host
    | event :: _ => (host.settlePolicy sessionId).publishPersistedEvent runtime event
  | .policyFailed sessionId => host.settlePolicy sessionId
  | .silent moment action =>
    if action.events.isEmpty then host.call runtime moment action else host
  | .subscribe => { host with broadcast := host.broadcast.subscribe host.run.committed }
  | .unsubscribe id => { host with broadcast := host.broadcast.unsubscribe id }
  | .advance throws => { host with broadcast := host.broadcast.advance throws }

/-! ## What subscribers are promised -/

/-- Every attached listener has received a part of each session's log without a gap, from some
event not after its registration on, and all of it when no publication is under way. -/
structure EventHost.Lawful (host : EventHost) : Prop where
  numbered : ∀ sessionId, Numbered HarnessEvent.sequence (sessionLog host.run.committed sessionId)
  received : ∀ listener ∈ host.broadcast.listeners, listener.attached = true → ∀ sessionId,
    ∃ k ≤ (sessionLog listener.tag sessionId).length,
      sessionLog listener.received sessionId <+:
        (sessionLog host.run.committed sessionId).drop k ∧
      (host.broadcast.publishing = false → sessionLog host.policies sessionId = [] →
        sessionLog listener.received sessionId =
          (sessionLog host.run.committed sessionId).drop k)

/-- An event can be published in its order: it satisfies its schema, and no event of a policy
control of its session is still to be published. -/
def EventHost.Admits (runtime : Runtime) (host : EventHost) (event : HarnessEvent) : Prop :=
  event.valid runtime.schemas = true ∧ sessionLog host.policies event.sessionId = []

/-- What the step commits is published, in the order of commitment. -/
def EventHost.Publishes (runtime : Runtime) (host : EventHost) : EventAction → Prop
  | .event moment sessionId turnId eventType data work =>
    let payload := host.payload moment sessionId turnId eventType data
    host.full = false → host.accepts runtime moment (host.eventCall payload work) = true →
      host.Admits runtime payload
  | .review moment review event aborted => ∀ e ∈ event,
    host.accepts runtime moment (.saveMcpReview review event) = true →
      review.nativeWorkId.isSome = true ∧ aborted = false ∧ host.full = false ∧
        host.Admits runtime e
  | .retire moment sessionId requestId events => ∀ e ∈ events,
    host.accepts runtime moment (.clearMcpReview sessionId requestId events) = false
  | .policyCommitted moment key sessionId commandId result event =>
    host.accepts runtime moment
        (.completeNativePolicyControl key sessionId commandId result event) = true →
      host.Admits runtime event
  | .policyReturned sessionId => host.full = true → sessionLog host.policies sessionId = []
  | .policyFailed sessionId => sessionLog host.policies sessionId = []
  | .silent _ _ | .subscribe | .unsubscribe _ | .advance _ => True

/-! ## The invariant -/

/-- What holds between the store, the queue and the listeners. -/
structure EventHost.Tracks (runtime : Runtime) (host : EventHost) : Prop where
  windowed : RunWindowed runtime.options host.run
  sound : host.broadcast.Sound
  valid : ∀ event ∈ host.policies, event.valid runtime.schemas = true
  single : ∀ sessionId, (sessionLog host.policies sessionId).length ≤ 1
  /-- What is committed is published, but for the events of policy controls under way. -/
  committed : ∀ sessionId, sessionLog host.run.committed sessionId =
    sessionLog host.broadcast.published sessionId ++ sessionLog host.policies sessionId
  registered : ∀ listener ∈ host.broadcast.listeners, ∀ sessionId,
    (sessionLog (host.broadcast.published.take listener.since) sessionId).length ≤
      (sessionLog listener.tag sessionId).length

section Invariant

variable {runtime : Runtime} {host : EventHost}

theorem EventHost.Tracks.start {run : StoreRun} (h : RunWindowed runtime.options run) :
    (EventHost.start run).Tracks runtime where
  windowed := h
  sound := Broadcast.Sound.opened run.committed
  valid _ hmem := absurd hmem List.not_mem_nil
  single _ := Nat.zero_le 1
  committed sessionId := (List.append_nil (sessionLog run.committed sessionId)).symm
  registered _ hmem := absurd hmem List.not_mem_nil

theorem sessionLog_drop (log : List HarnessEvent) (k : Nat) (sessionId : String) :
    sessionLog (log.drop k) sessionId =
      (sessionLog log sessionId).drop (sessionLog (log.take k) sessionId).length := by
  have hsplit : sessionLog log sessionId =
      sessionLog (log.take k) sessionId ++ sessionLog (log.drop k) sessionId := by
    rw [← sessionLog_append, List.take_append_drop]
  rw [hsplit, List.drop_left]

theorem sessionLog_length_mono (log : List HarnessEvent) {k n : Nat} (h : k ≤ n)
    (sessionId : String) :
    (sessionLog (log.take k) sessionId).length ≤ (sessionLog (log.take n) sessionId).length := by
  have hsub : (log.take k).Sublist (log.take n) := by
    rw [show log.take k = (log.take n).take k by rw [List.take_take, Nat.min_eq_left h]]
    exact List.take_sublist k _
  exact (hsub.filter _).length_le

theorem EventHost.Tracks.lawful (h : host.Tracks runtime) : host.Lawful where
  numbered := h.windowed.windowed.numbered
  received listener hmem hattached sessionId := by
    rcases h.sound.delivered listener hmem hattached with ⟨k, hk, hreceived⟩
    have hlog : sessionLog (listener.received ++ host.broadcast.pending listener) sessionId =
        sessionLog (host.broadcast.published.drop k) sessionId := by rw [hreceived]
    rw [sessionLog_append, sessionLog_drop] at hlog
    have hstart := sessionLog_length_mono host.broadcast.published hk sessionId
    have hle : (sessionLog (host.broadcast.published.take k) sessionId).length ≤
        (sessionLog host.broadcast.published sessionId).length :=
      ((List.take_sublist k host.broadcast.published).filter _).length_le
    refine ⟨(sessionLog (host.broadcast.published.take k) sessionId).length,
      Nat.le_trans hstart (h.registered listener hmem sessionId), ?_, fun hidle hsettled => ?_⟩
    · rw [h.committed sessionId, List.drop_append_of_le_length hle, ← hlog, List.append_assoc]
      exact List.prefix_append _ _
    · -- nothing is left to be delivered
      have hpending : host.broadcast.pending listener = [] := by
        unfold Broadcast.pending
        rw [(h.sound.idle hidle).1, (h.sound.idle hidle).2]
        rfl
      rw [hpending] at hlog
      rw [h.committed sessionId, hsettled, List.append_nil, ← hlog]
      exact (List.append_nil _).symm

/-! ## Calls of the store -/

theorem EventHost.windowed_call (h : RunWindowed runtime.options host.run) (moment : Moment)
    (action : StoreAction) :
    RunWindowed runtime.options (host.call runtime moment action).run := by
  have hkept : restartKeepsEvents host.run (.call moment action) := trivial
  exact h.step hkept

theorem EventHost.committed_call (host : EventHost) (moment : Moment) (action : StoreAction) :
    (host.call runtime moment action).run.committed =
      if host.accepts runtime moment action then host.run.committed ++ action.events
      else host.run.committed := rfl

theorem EventHost.Tracks.call (h : host.Tracks runtime) {moment : Moment} {action : StoreAction}
    (hnone : host.accepts runtime moment action = true → action.events = []) :
    (host.call runtime moment action).Tracks runtime where
  windowed := EventHost.windowed_call h.windowed moment action
  sound := h.sound
  valid := h.valid
  single := h.single
  committed sessionId := by
    have hcommitted : (host.call runtime moment action).run.committed = host.run.committed := by
      rw [EventHost.committed_call]
      by_cases haccepts : host.accepts runtime moment action = true
      · rw [if_pos haccepts, hnone haccepts, List.append_nil]
      · rw [if_neg haccepts]
    rw [hcommitted]
    exact h.committed sessionId
  registered := h.registered

theorem sessionLog_singleton_of_ne {event : HarnessEvent} {sessionId : String}
    (h : event.sessionId ≠ sessionId) : sessionLog [event] sessionId = [] := by
  unfold sessionLog
  rw [List.filter_singleton, beq_false_of_ne h]
  rfl

theorem sessionLog_policies {policies : List HarnessEvent} {event : HarnessEvent}
    (h : sessionLog policies event.sessionId = []) (sessionId : String) :
    sessionLog policies sessionId ++ sessionLog [event] sessionId =
      sessionLog [event] sessionId ++ sessionLog policies sessionId := by
  by_cases heq : event.sessionId = sessionId
  · rw [← heq, h, List.append_nil, List.nil_append]
  · rw [sessionLog_singleton_of_ne heq, List.append_nil, List.nil_append]

theorem EventHost.registered_publish {event : HarnessEvent}
    (hsince : ∀ listener ∈ host.broadcast.listeners,
      listener.since ≤ host.broadcast.published.length)
    (hregistered : ∀ listener ∈ host.broadcast.listeners, ∀ sessionId,
      (sessionLog (host.broadcast.published.take listener.since) sessionId).length ≤
        (sessionLog listener.tag sessionId).length) :
    ∀ listener ∈ host.broadcast.listeners, ∀ sessionId,
      (sessionLog ((host.broadcast.published ++ [event]).take listener.since) sessionId).length ≤
        (sessionLog listener.tag sessionId).length := by
  intro listener hmem sessionId
  rw [List.take_append_of_le_length (hsince listener hmem)]
  exact hregistered listener hmem sessionId

theorem EventHost.Tracks.publish {next : EventHost} {event : HarnessEvent}
    (h : host.Tracks runtime) (hadmits : host.Admits runtime event) (hroom : host.full = false)
    (hwindowed : RunWindowed runtime.options next.run)
    (hcommitted : next.run.committed = host.run.committed ++ [event])
    (hbroadcast : next.broadcast = host.broadcast) (hpolicies : next.policies = host.policies) :
    (next.publishPersistedEvent runtime event).Tracks runtime := by
  have hpublished : next.publishPersistedEvent runtime event =
      { next with broadcast := next.broadcast.publish event } := by
    refine if_pos ⟨hadmits.1, ?_⟩
    unfold EventHost.full
    rw [hbroadcast]
    exact hroom
  rw [hpublished]
  refine ⟨hwindowed, ?_, ?_, ?_, fun sessionId => ?_, ?_⟩
  · change (next.broadcast.publish event).Sound
    rw [hbroadcast]
    exact h.sound.publish event
  · change ∀ event ∈ next.policies, _
    rw [hpolicies]
    exact h.valid
  · change ∀ sessionId, (sessionLog next.policies sessionId).length ≤ 1
    rw [hpolicies]
    exact h.single
  · change sessionLog next.run.committed sessionId =
      sessionLog (next.broadcast.published ++ [event]) sessionId ++
        sessionLog next.policies sessionId
    rw [hcommitted, hbroadcast, hpolicies, sessionLog_append, sessionLog_append,
      h.committed sessionId, List.append_assoc, List.append_assoc,
      sessionLog_policies hadmits.2 sessionId]
  · change ∀ listener ∈ next.broadcast.listeners, ∀ sessionId,
      (sessionLog ((next.broadcast.published ++ [event]).take listener.since) sessionId).length ≤
        (sessionLog listener.tag sessionId).length
    rw [hbroadcast]
    exact EventHost.registered_publish h.sound.since h.registered

theorem EventHost.Tracks.commit (h : host.Tracks runtime) {moment : Moment} {action : StoreAction}
    {event : HarnessEvent} (hevents : action.events = [event])
    (haccepts : host.accepts runtime moment action = true)
    (hadmits : host.Admits runtime event) (hroom : host.full = false) :
    ((host.call runtime moment action).publishPersistedEvent runtime event).Tracks runtime := by
  apply h.publish hadmits hroom (EventHost.windowed_call h.windowed moment action) _ rfl rfl
  rw [EventHost.committed_call, if_pos haccepts, hevents]

theorem EventHost.eventCall_events (payload : HarnessEvent) (work : Option NativeWorkState) :
    (host.eventCall payload work).events = [payload] := by
  unfold EventHost.eventCall
  repeat' split
  all_goals rfl

/-! ## Policy controls -/

theorem sessionLog_settled (policies : List HarnessEvent) (sessionId other : String) :
    sessionLog (policies.filter fun event => event.sessionId != sessionId) other =
      if other = sessionId then [] else sessionLog policies other := by
  unfold sessionLog
  rw [List.filter_filter]
  by_cases heq : other = sessionId
  · rw [if_pos heq, List.filter_eq_nil_iff]
    intro event _
    simp [heq]
  · rw [if_neg heq]
    apply List.filter_congr
    intro event _
    by_cases hevent : event.sessionId = other
    · simp [hevent, heq]
    · simp [hevent]

theorem EventHost.Tracks.policyCommitted (h : host.Tracks runtime) {moment : Moment}
    {action : StoreAction} {event : HarnessEvent} (hevents : action.events = [event])
    (haccepts : host.accepts runtime moment action = true)
    (hadmits : host.Admits runtime event) :
    EventHost.Tracks runtime { host.call runtime moment action with
      policies := (host.call runtime moment action).policies ++ [event] } where
  windowed := EventHost.windowed_call h.windowed moment action
  sound := h.sound
  valid other hmem := by
    rcases List.mem_append.mp hmem with hold | hnew
    · exact h.valid other hold
    · rw [List.mem_singleton.mp hnew]
      exact hadmits.1
  single sessionId := by
    change (sessionLog (host.policies ++ [event]) sessionId).length ≤ 1
    rw [sessionLog_append]
    by_cases heq : event.sessionId = sessionId
    · rw [← heq, hadmits.2]
      exact List.length_filter_le _ _
    · rw [sessionLog_singleton_of_ne heq, List.append_nil]
      exact h.single sessionId
  committed sessionId := by
    change sessionLog (host.call runtime moment action).run.committed sessionId =
      sessionLog host.broadcast.published sessionId ++
        sessionLog (host.policies ++ [event]) sessionId
    rw [EventHost.committed_call, if_pos haccepts, hevents, sessionLog_append, sessionLog_append,
      h.committed sessionId, List.append_assoc]
  registered := h.registered

theorem EventHost.Tracks.policyReturned (h : host.Tracks runtime) {sessionId : String}
    {event : HarnessEvent} {rest : List HarnessEvent}
    (hlog : sessionLog host.policies sessionId = event :: rest) (hroom : host.full = false) :
    ((host.settlePolicy sessionId).publishPersistedEvent runtime event).Tracks runtime := by
  have hmem : event ∈ sessionLog host.policies sessionId := by
    rw [hlog]
    exact List.mem_cons_self
  have hpolicy : event ∈ host.policies := List.mem_of_mem_filter hmem
  have hsession : event.sessionId = sessionId := by
    have hbeq := (List.mem_filter.mp hmem).2
    exact eq_of_beq hbeq
  have hrest : rest = [] := by
    have hsingle := h.single sessionId
    rw [hlog, List.length_cons] at hsingle
    exact List.length_eq_zero_iff.mp (by omega)
  have hpublished : (host.settlePolicy sessionId).publishPersistedEvent runtime event =
      { host.settlePolicy sessionId with broadcast := host.broadcast.publish event } :=
    if_pos ⟨h.valid event hpolicy, hroom⟩
  rw [hpublished]
  refine ⟨h.windowed, h.sound.publish event,
    fun other hother => h.valid other (List.mem_of_mem_filter hother), fun other => ?_,
    fun other => ?_, EventHost.registered_publish h.sound.since h.registered⟩
  · change (sessionLog (host.policies.filter _) other).length ≤ 1
    rw [sessionLog_settled]
    split
    · exact Nat.zero_le 1
    · exact h.single other
  · change sessionLog host.run.committed other =
      sessionLog (host.broadcast.published ++ [event]) other ++
        sessionLog (host.policies.filter _) other
    rw [sessionLog_settled, sessionLog_append, h.committed other]
    by_cases heq : other = sessionId
    · rw [if_pos heq, heq, hlog, hrest, List.append_nil]
      have hown : sessionLog [event] sessionId = [event] := by
        rw [← hsession]
        simp [sessionLog]
      rw [hown]
    · have hne : event.sessionId ≠ other := fun h => heq (h.symm.trans hsession)
      rw [if_neg heq, sessionLog_singleton_of_ne hne, List.append_nil]

/-! ## The step -/

theorem EventHost.Tracks.event (h : host.Tracks runtime) {moment : Moment} {payload : HarnessEvent}
    {work : Option NativeWorkState}
    (hadmits : host.full = false →
      host.accepts runtime moment (host.eventCall payload work) = true →
        host.Admits runtime payload) :
    (host.event runtime moment payload work).Tracks runtime := by
  unfold EventHost.event
  by_cases hfull : host.full = true
  · rw [if_pos hfull]
    exact h
  · have hroom := eq_false_of_ne_true hfull
    rw [if_neg hfull]
    dsimp only
    by_cases haccepts : host.accepts runtime moment (host.eventCall payload work) = true
    · rw [if_pos haccepts]
      exact h.commit (EventHost.eventCall_events payload work) haccepts (hadmits hroom haccepts)
        hroom
    · rw [if_neg haccepts]
      exact h.call fun h => absurd h haccepts

theorem EventHost.Tracks.review (h : host.Tracks runtime) {moment : Moment} {review : McpReview}
    {event : Option HarnessEvent} {aborted : Bool}
    (hpublishes : host.Publishes runtime (.review moment review event aborted)) :
    (host.saveReview runtime moment review event aborted).Tracks runtime := by
  unfold EventHost.saveReview
  dsimp only
  cases event with
  | none => exact h.call fun _ => rfl
  | some event =>
    dsimp only
    by_cases haccepts : host.accepts runtime moment (.saveMcpReview review (some event)) = true
    · rcases hpublishes event rfl haccepts with ⟨hwork, rfl, hroom, hadmits⟩
      rw [haccepts, hwork, if_pos (by rfl)]
      exact h.commit rfl haccepts hadmits hroom
    · rw [eq_false_of_ne_true haccepts, Bool.false_and, Bool.false_and,
        if_neg Bool.false_ne_true]
      exact h.call fun h => absurd h haccepts

theorem EventHost.Tracks.step (h : host.Tracks runtime) (action : EventAction)
    (hpublishes : host.Publishes runtime action) : (host.step runtime action).Tracks runtime := by
  cases action with
  | event moment sessionId turnId eventType data work => exact h.event hpublishes
  | review moment review event aborted => exact h.review hpublishes
  | retire moment sessionId requestId events =>
    apply h.call
    intro haccepts
    change events = []
    cases events with
    | nil => rfl
    | cons event rest =>
      have hrefused := hpublishes event List.mem_cons_self
      rw [haccepts] at hrefused
      cases hrefused
  | policyCommitted moment key sessionId commandId result event =>
    unfold EventHost.step
    dsimp only
    by_cases haccepts : host.accepts runtime moment
        (.completeNativePolicyControl key sessionId commandId result event) = true
    · rw [if_pos haccepts]
      exact h.policyCommitted rfl haccepts (hpublishes haccepts)
    · rw [if_neg haccepts]
      exact h.call fun h => absurd h haccepts
  | policyReturned sessionId =>
    unfold EventHost.step
    dsimp only
    split
    · exact h
    · rename_i event rest hlog
      apply h.policyReturned hlog
      by_contra hfull
      have hnone := hpublishes (eq_true_of_ne_false hfull)
      rw [hlog] at hnone
      cases hnone
  | policyFailed sessionId =>
    have hnone : sessionLog host.policies sessionId = [] := hpublishes
    have hsame : host.settlePolicy sessionId = host := by
      unfold EventHost.settlePolicy
      have hfilter : host.policies.filter (fun event => event.sessionId != sessionId) =
          host.policies := by
        apply List.filter_eq_self.mpr
        intro event hmem
        have hother := List.filter_eq_nil_iff.mp hnone event hmem
        exact bne_iff_ne.mpr fun h => hother (beq_iff_eq.mpr h)
      rw [hfilter]
    change (host.settlePolicy sessionId).Tracks runtime
    rw [hsame]
    exact h
  | silent moment action =>
    unfold EventHost.step
    dsimp only
    split
    · rename_i hempty
      exact h.call fun _ => List.isEmpty_iff.mp hempty
    · exact h
  | subscribe =>
    refine ⟨h.windowed, h.sound.subscribe _, h.valid, h.single, h.committed, ?_⟩
    intro listener hmem sessionId
    rcases List.mem_append.mp hmem with hold | hnew
    · exact h.registered listener hold sessionId
    · rw [List.mem_singleton.mp hnew]
      change (sessionLog (host.broadcast.published.take host.broadcast.published.length)
        sessionId).length ≤ (sessionLog host.run.committed sessionId).length
      rw [List.take_length, h.committed sessionId, List.length_append]
      exact Nat.le_add_right _ _
  | unsubscribe id =>
    refine ⟨h.windowed, h.sound.unsubscribe id, h.valid, h.single, h.committed, ?_⟩
    intro listener hmem sessionId
    rcases Broadcast.SameListeners.change id Broadcast.Keeps.detach listener hmem with
      ⟨old, hold, hsince, htag⟩
    rw [hsince, htag]
    exact h.registered old hold sessionId
  | advance throws =>
    have hpublished : (host.broadcast.advance throws).published = host.broadcast.published :=
      Broadcast.advance_published throws
    refine ⟨h.windowed, h.sound.advance throws, h.valid, h.single, fun sessionId => ?_, ?_⟩
    · change _ = sessionLog (host.broadcast.advance throws).published sessionId ++ _
      rw [hpublished]
      exact h.committed sessionId
    · intro listener hmem sessionId
      rcases Broadcast.SameListeners.advance throws listener hmem with ⟨old, hold, hsince, htag⟩
      change (sessionLog ((host.broadcast.advance throws).published.take listener.since)
        sessionId).length ≤ _
      rw [hpublished, hsince, htag]
      exact h.registered old hold sessionId

end Invariant

/-- Where every event that is committed is published in its order, the subscribers receive it. -/
theorem published_lawful (runtime : Runtime) (store : StoreRun)
    (hstore : RunWindowed runtime.options store) (actions : List EventAction)
    (hpublishes : Meets (EventHost.step runtime) (EventHost.Publishes runtime)
      (EventHost.start store) actions) :
    Always (EventHost.step runtime) EventHost.Lawful (EventHost.start store) actions := by
  have htracks := always_of_meets (I := EventHost.Tracks runtime)
    (fun host action h hstep => h.step action hstep) (EventHost.Tracks.start hstore) hpublishes
  exact htracks.mono fun host h => h.lawful

/-- A subscriber is called with the start of a turn, and ends the turn from the callback. -/
def reentrantTurn : List EventAction :=
  [.subscribe, .event ⟨0, true⟩ "session-1" (some "turn-1") "turn.started" (.obj .nil) none,
    .advance false, .advance false,
    .event ⟨1, true⟩ "session-1" (some "turn-1") "turn.completed" (.obj .nil) none,
    .advance false, .advance false, .advance false, .advance false, .advance false]

theorem published_lawful_reentrant :
    Meets (EventHost.step reviewRuntime) (EventHost.Publishes reviewRuntime)
      (EventHost.start StoreRun.fresh) reentrantTurn ∧
      Always (EventHost.step reviewRuntime) EventHost.Lawful (EventHost.start StoreRun.fresh)
        reentrantTurn := by
  have hpublishes : Meets (EventHost.step reviewRuntime) (EventHost.Publishes reviewRuntime)
      (EventHost.start StoreRun.fresh) reentrantTurn :=
    ⟨trivial, fun _ _ => ⟨by decide +kernel, by decide +kernel⟩, trivial, trivial,
      fun _ _ => ⟨by decide +kernel, by decide +kernel⟩, trivial, trivial, trivial, trivial,
      trivial, trivial⟩
  exact ⟨hpublishes, published_lawful reviewRuntime StoreRun.fresh
    (RunWindowed.fresh reviewRuntime.options) reentrantTurn hpublishes⟩

/-- A tool call of a turn asks for its approval while somebody is subscribed. -/
def reviewedTurn : List EventAction :=
  [.subscribe, .review ⟨0, true⟩ plainReview (plainEvent 1 "approval.requested" "request-1"
    [("action_hash", .str plainActionHash), ("action", .str plainActionText)]) false]

/-- The request is committed, and the subscriber never hears of it. -/
theorem review_request_unpublished :
    ¬Always (EventHost.step reviewRuntime) EventHost.Lawful (EventHost.start StoreRun.fresh)
      reviewedTurn := by
  intro h
  generalize hhost : run (EventHost.step reviewRuntime) (EventHost.start StoreRun.fresh)
    reviewedTurn = host
  have hlisteners : host.broadcast.listeners = [⟨0, [], true, 0, []⟩] := by
    rw [← hhost]
    decide +kernel
  have hidle : host.broadcast.publishing = false := by
    rw [← hhost]
    decide +kernel
  have hsettled : sessionLog host.policies "session-1" = [] := by
    rw [← hhost]
    decide +kernel
  have hcommitted : (sessionLog host.run.committed "session-1").length = 1 := by
    rw [← hhost]
    decide +kernel
  have hlawful : host.Lawful := hhost ▸ h.last
  rcases hlawful.received ⟨0, [], true, 0, []⟩ (hlisteners ▸ List.mem_cons_self) rfl "session-1" with
    ⟨k, hk, -, hall⟩
  have hlength := congrArg List.length (hall hidle hsettled)
  rw [List.length_drop, hcommitted, Nat.le_zero.mp hk] at hlength
  cases hlength

end HarnessControl.Harnesses
