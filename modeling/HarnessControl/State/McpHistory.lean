import HarnessControl.Library.EventLog
import HarnessControl.Library.Evidence
import HarnessControl.State.McpPhases
import HarnessControl.State.Calls

/-!
# The history of an operation

The saves of one review between its creation and its cleanup form a chain of edges.  From the chain
follow the laws of the whole history; only that a request id is resolved at most once needs the ids
of the rounds to be fresh, which the edges do not check against all earlier ones.
-/

namespace HarnessControl.State

open HarnessControl.Library HarnessControl.Protocol

structure ReviewSave where
  review : McpReview
  event : Option HarnessEvent

namespace ReviewSave

def outcome (save : ReviewSave) : McpOutcome := save.review.outcome

def operation (save : ReviewSave) : McpOperation := save.review.toMcpOperation

def requestId (save : ReviewSave) : String := save.outcome.requestId save.operation

/-- The request that the save resolves. -/
def settles (save : ReviewSave) : Option String :=
  if save.outcome.resolves then some save.requestId else none

end ReviewSave

/-- The saves of one review, the last one apart, repeated saves left out. -/
inductive ReviewChain (host : Host) (schemas : PayloadSchemas) : List ReviewSave → ReviewSave → Prop
  | created {review : McpReview} {event : HarnessEvent}
    (valid : review.outcome.valid host schemas = true) (initial : review.outcome.initial = true)
    (announced : announcesOutcome review event = true) :
    ReviewChain host schemas [⟨review, some event⟩] ⟨review, some event⟩
  | advanced {saves : List ReviewSave} {last : ReviewSave} {next : McpReview}
    {event : Option HarnessEvent} {now : Int} (chain : ReviewChain host schemas saves last)
    (valid : next.outcome.valid host schemas = true)
    (binding : last.operation = next.toMcpOperation)
    (edge : Edge host now last.review.expiresAt event.isSome last.outcome next.outcome)
    (announced : ∀ e ∈ event, announcesOutcome next e = true) :
    ReviewChain host schemas (saves ++ [⟨next, event⟩]) ⟨next, event⟩

/-! ## Events -/

def requestedFor (requestId : String) (event : HarnessEvent) : Bool :=
  (event.eventType == "approval.requested" || event.eventType == "input.requested") &&
  eventText event "request_id" requestId

def resolvedFor (requestId : String) (event : HarnessEvent) : Bool :=
  (event.eventType == "approval.resolved" || event.eventType == "input.resolved") &&
  eventText event "request_id" requestId

/-! ## The laws of a history -/

inductive McpPhase where
  | waiting
  | dispatching
  | declined
  | inputWaiting
  | inputResuming
  | reviewWaiting
  | reviewResuming
  | expiryResuming
  | expiryCompleted
  | completed

def McpOutcome.stage : McpOutcome → McpPhase × Option Nat
  | .waiting => (.waiting, none)
  | .dispatching _ => (.dispatching, none)
  | .declined _ => (.declined, none)
  | .inputWaiting round _ => (.inputWaiting, some round.protocolRound)
  | .inputResuming round _ _ => (.inputResuming, some round.protocolRound)
  | .reviewWaiting round _ _ => (.reviewWaiting, some round.protocolRound)
  | .reviewResuming round _ _ _ _ => (.reviewResuming, some round.protocolRound)
  | .expiryResuming round _ => (.expiryResuming, some round.protocolRound)
  | .expiryCompleted _ => (.expiryCompleted, none)
  | .completed _ _ => (.completed, none)

def openedRounds (saves : List ReviewSave) : List InputRound :=
  saves.filterMap fun save => save.outcome.opens

def acceptingActor (saves : List ReviewSave) : Option String :=
  saves.findSome? fun save => save.outcome.acceptedBy

def savedEvents (saves : List ReviewSave) : List HarnessEvent := saves.filterMap ReviewSave.event

/-- A resolved event answers an earlier request and carries its id, its actor and its decision. -/
def ResolvesEarlier (earlier : List ReviewSave) (save : ReviewSave) : Prop :=
  save.outcome.resolves = true → ∃ event, save.event = some event ∧
    resolvedFor save.requestId event = true ∧
    carries save.operation event save.outcome = true ∧
    ∃ prior ∈ earlier, ∃ request ∈ prior.event, requestedFor save.requestId request = true

def Approval (operation : McpOperation) (saves : List ReviewSave) : Prop :=
  ∃ accepted ∈ saves, ∃ actorId event, accepted.outcome = .dispatching actorId ∧
    accepted.event = some event ∧ resolvedFor operation.requestId event = true ∧
    decides event operation.action actorId .accept = true

/-- What an operation that started as waiting completes has been approved. -/
def ApprovedEarlier (earlier : List ReviewSave) (save : ReviewSave) : Prop :=
  (∀ first ∈ earlier.head?, first.outcome = .waiting) →
  (∃ actorId resultJson, save.outcome = .completed actorId resultJson) →
    Approval save.operation earlier

structure ReviewHistory (saves : List ReviewSave) : Prop where
  /-- Everything but the outcome stays. -/
  binding : ∀ a ∈ saves, ∀ b ∈ saves, a.operation = b.operation
  /-- No phase of a round is visited twice. -/
  stages : (saves.map fun save => save.outcome.stage).Nodup
  bounded : saves.length ≤ 21
  rounds : Numbered InputRound.protocolRound (openedRounds saves)
  actors : ∀ save ∈ saves, ∀ round, save.outcome.round? = some round →
    round.reviewActorId = acceptingActor saves
  resolved : Throughout ResolvesEarlier saves
  /-- A requested event is followed by at most one resolved event for its request. -/
  once : ∀ requestId i event, (savedEvents saves)[i]? = some event →
    requestedFor requestId event = true →
    (((savedEvents saves).drop (i + 1)).filter (resolvedFor requestId)).length ≤ 1
  /-- Completed, declined and expired operations have no successor. -/
  terminal : Throughout (fun earlier _ => ∀ save ∈ earlier, save.outcome.terminal = false) saves
  approved : Throughout ApprovedEarlier saves

/-- The requests that the saves have resolved. -/
def settled (saves : List ReviewSave) : List String := saves.filterMap ReviewSave.settles

/-- The id of a new round is not that of a request that the operation has resolved. -/
def FreshRound (earlier : List ReviewSave) (save : ReviewSave) : Prop :=
  ∀ round ∈ save.outcome.opens, round.inputRequestId ∉ settled earlier

instance (earlier : List ReviewSave) (save : ReviewSave) : Decidable (FreshRound earlier save) :=
  inferInstanceAs (Decidable (∀ round ∈ save.outcome.opens, _))

/-! ## Chains -/

namespace ReviewChain

variable {host : Host} {schemas : PayloadSchemas} {saves : List ReviewSave} {last : ReviewSave}

theorem valid_last (h : ReviewChain host schemas saves last) :
    last.outcome.valid host schemas = true := by
  cases h with
  | created valid initial announced => exact valid
  | advanced chain valid binding edge announced => exact valid

theorem last_mem (h : ReviewChain host schemas saves last) : last ∈ saves := by
  cases h with
  | created valid initial announced => exact List.mem_singleton_self _
  | advanced chain valid binding edge announced => simp

theorem binding (h : ReviewChain host schemas saves last) :
    ∀ save ∈ saves, save.operation = last.operation := by
  induction h with
  | created valid initial announced =>
    intro save hmem
    rw [List.mem_singleton.mp hmem]
  | advanced chain valid binding edge announced ih =>
    intro save hmem
    rcases List.mem_append.mp hmem with hold | hnew
    · exact (ih save hold).trans binding
    · rw [List.mem_singleton.mp hnew]

theorem rank (h : ReviewChain host schemas saves last) :
    saves.Pairwise (fun a b => a.outcome.rank < b.outcome.rank) ∧
      ∀ save ∈ saves, save.outcome.rank ≤ last.outcome.rank := by
  induction h with
  | created valid initial announced =>
    refine ⟨List.pairwise_singleton _ _, fun save hmem => ?_⟩
    rw [List.mem_singleton.mp hmem]
  | @advanced saves last next event now chain valid binding edge announced ih =>
    have hlt : last.outcome.rank < next.outcome.rank := edge.rank_lt chain.valid_last
    constructor
    · refine List.pairwise_append.mpr ⟨ih.1, List.pairwise_singleton _ _, ?_⟩
      intro save hmem other hother
      rw [List.mem_singleton.mp hother]
      exact Nat.lt_of_le_of_lt (ih.2 save hmem) hlt
    · intro save hmem
      rcases List.mem_append.mp hmem with hold | hnew
      · exact Nat.le_of_lt (Nat.lt_of_le_of_lt (ih.2 save hold) hlt)
      · rw [List.mem_singleton.mp hnew]

def stageRank : McpPhase × Option Nat → Nat
  | (.waiting, _) => 0
  | (.dispatching, _) => 1
  | (.inputWaiting, round) | (.reviewWaiting, round) => 2 * round.getD 0
  | (.inputResuming, round) | (.reviewResuming, round) | (.expiryResuming, round) =>
    2 * round.getD 0 + 1
  | (.declined, _) | (.completed, _) | (.expiryCompleted, _) => 20

theorem rank_eq (outcome : McpOutcome) : outcome.rank = stageRank outcome.stage := by
  cases outcome <;> rfl

theorem stages (h : ReviewChain host schemas saves last) :
    (saves.map fun save => save.outcome.stage).Nodup := by
  unfold List.Nodup
  rw [List.pairwise_map]
  apply h.rank.1.imp
  intro a b hlt heq
  rw [rank_eq, rank_eq, heq] at hlt
  exact Nat.lt_irrefl _ hlt

theorem bounded (h : ReviewChain host schemas saves last) : saves.length ≤ 21 := by
  have hnodup : (saves.map fun save => save.outcome.rank).Nodup := by
    unfold List.Nodup
    rw [List.pairwise_map]
    exact h.rank.1.imp fun hlt => Nat.ne_of_lt hlt
  have hsubset : (saves.map fun save => save.outcome.rank) ⊆ List.range 21 := by
    intro rank hmem
    rcases List.mem_map.mp hmem with ⟨save, hsave, rfl⟩
    have hle := h.rank.2 save hsave
    have hlast := McpOutcome.rank_le h.valid_last
    rw [List.mem_range]
    omega
  have hlength := List.Nodup.length_le_of_subset hnodup hsubset
  rwa [List.length_map, List.length_range] at hlength

theorem terminal (h : ReviewChain host schemas saves last) :
    Throughout (fun earlier _ => ∀ save ∈ earlier, save.outcome.terminal = false) saves ∧
      ∀ save ∈ saves, save = last ∨ save.outcome.terminal = false := by
  induction h with
  | created valid initial announced =>
    refine ⟨throughout_concat.mpr ⟨Throughout.nil _, fun _ hmem => nomatch hmem⟩, ?_⟩
    exact fun save hmem => Or.inl (List.mem_singleton.mp hmem)
  | @advanced saves last next event now chain valid binding edge announced ih =>
    have hearlier : ∀ save ∈ saves, save.outcome.terminal = false := by
      intro save hmem
      rcases ih.2 save hmem with rfl | hfalse
      · exact edge.not_terminal
      · exact hfalse
    refine ⟨throughout_concat.mpr ⟨ih.1, hearlier⟩, fun save hmem => ?_⟩
    rcases List.mem_append.mp hmem with hold | hnew
    · exact Or.inr (hearlier save hold)
    · exact Or.inl (List.mem_singleton.mp hnew)

/-! ### Rounds and actors -/

theorem openedRounds_concat (saves : List ReviewSave) (save : ReviewSave) :
    openedRounds (saves ++ [save]) = openedRounds saves ++ save.outcome.opens.toList := by
  unfold openedRounds
  rw [List.filterMap_append]
  cases hopens : save.outcome.opens <;> simp [hopens]

theorem acceptingActor_concat (saves : List ReviewSave) (save : ReviewSave) :
    acceptingActor (saves ++ [save]) = (acceptingActor saves).or save.outcome.acceptedBy := by
  unfold acceptingActor
  rw [List.findSome?_append]
  cases haccepted : save.outcome.acceptedBy <;> simp [List.findSome?, haccepted]

structure RoundsOpened (saves : List ReviewSave) (outcome : McpOutcome) : Prop where
  numbered : Numbered InputRound.protocolRound (openedRounds saves)
  unopened : outcome.round? = none → outcome.terminal = false → openedRounds saves = []
  counted : ∀ round, outcome.round? = some round →
    (openedRounds saves).length = round.protocolRound

variable {saves : List ReviewSave} {save : ReviewSave}

theorem RoundsOpened.open {round : InputRound}
    (hnumbered : Numbered InputRound.protocolRound (openedRounds saves))
    (hopens : save.outcome.opens = some round)
    (hnext : round.protocolRound = (openedRounds saves).length + 1) :
    RoundsOpened (saves ++ [save]) save.outcome := by
  have hlist := openedRounds_concat saves save
  rw [hopens] at hlist
  have hround := (McpOutcome.of_opens hopens).inRound
  refine ⟨?_, fun hnone => ?_, fun other hother => ?_⟩
  · rw [hlist]
    exact hnumbered.concat hnext
  · rw [hround] at hnone
    cases hnone
  · rw [hround] at hother
    cases hother
    rw [hlist, List.length_append]
    exact hnext.symm

theorem RoundsOpened.stay {outcome : McpOutcome}
    (h : RoundsOpened saves outcome) (hopens : save.outcome.opens = none)
    (hround : save.outcome.terminal = true ∨ save.outcome.round? = outcome.round?)
    (hterminal : outcome.terminal = false) : RoundsOpened (saves ++ [save]) save.outcome := by
  have hlist : openedRounds (saves ++ [save]) = openedRounds saves := by
    rw [openedRounds_concat, hopens]
    exact List.append_nil _
  have hended : save.outcome.terminal = true → save.outcome.round? = none := by
    cases save.outcome <;> intro h <;> first | rfl | cases h
  refine ⟨hlist.symm ▸ h.numbered, fun hnone hgoing => ?_, fun round hfound => ?_⟩
  · rw [hlist]
    rcases hround with hend | hsame
    · rw [hgoing] at hend
      cases hend
    · exact h.unopened (hsame ▸ hnone) hterminal
  · rw [hlist]
    rcases hround with hend | hsame
    · rw [hended hend] at hfound
      cases hfound
    · exact h.counted round (hsame ▸ hfound)

theorem RoundsOpened.edge {now expiresAt : Int}
    {announced : Bool} {old new : McpOutcome} (h : RoundsOpened saves old)
    (edge : Edge host now expiresAt announced old new) (hnew : save.outcome = new) :
    RoundsOpened (saves ++ [save]) save.outcome := by
  subst hnew
  generalize hout : save.outcome = new at edge
  rw [← hout]
  have hterminal := edge.not_terminal
  cases edge with
  | accepted => exact h.stay (by rw [hout]; rfl) (Or.inr (by rw [hout]; rfl)) hterminal
  | declined => exact h.stay (by rw [hout]; rfl) (Or.inl (by rw [hout]; rfl)) hterminal
  | completed => exact h.stay (by rw [hout]; rfl) (Or.inl (by rw [hout]; rfl)) hterminal
  | opened opens first actor =>
    refine RoundsOpened.open h.numbered (by rw [hout]; exact opens) ?_
    rw [h.unopened rfl rfl, first]
    rfl
  | answered opens answers same =>
    have hnew := McpOutcome.of_answers answers
    refine h.stay (by rw [hout]; exact hnew.opens) (Or.inr ?_) hterminal
    rw [hout, hnew.inRound, (McpOutcome.of_opens opens).inRound]
  | expired opens overdue =>
    refine h.stay (by rw [hout]; rfl) (Or.inr ?_) hterminal
    rw [hout, (McpOutcome.of_opens opens).inRound]
    rfl
  | expiryCompleted => exact h.stay (by rw [hout]; rfl) (Or.inl (by rw [hout]; rfl)) hterminal
  | resumed answers => exact h.stay (by rw [hout]; rfl) (Or.inl (by rw [hout]; rfl)) hterminal
  | reopened answers opens raised renamed actor =>
    refine RoundsOpened.open h.numbered (by rw [hout]; exact opens) ?_
    rw [raised, h.counted _ (McpOutcome.of_answers answers).inRound]

theorem rounds (h : ReviewChain host schemas saves last) : RoundsOpened saves last.outcome := by
  induction h with
  | @created review event valid initial announced =>
    rcases McpOutcome.of_initial initial with hwaiting | ⟨round, hopens, hfirst, -⟩
    · have hlist : openedRounds [⟨review, some event⟩] = review.outcome.opens.toList :=
        openedRounds_concat [] ⟨review, some event⟩
      change RoundsOpened _ review.outcome
      rw [hwaiting] at hlist ⊢
      exact ⟨hlist.symm ▸ Numbered.nil, fun _ _ => hlist, fun round hround => nomatch hround⟩
    · exact @RoundsOpened.open [] _ _ Numbered.nil hopens hfirst
  | advanced chain valid binding edge announced ih => exact ih.edge edge rfl

/-- The actor of every round is the one who accepted the approval, if there was one. -/
structure ActorKept (saves : List ReviewSave) (outcome : McpOutcome) : Prop where
  rounds : ∀ save ∈ saves, ∀ round, save.outcome.round? = some round →
    round.reviewActorId = acceptingActor saves
  here : ∀ round, outcome.round? = some round → round.reviewActorId = acceptingActor saves
  unasked : outcome = .waiting →
    acceptingActor saves = none ∧ ∀ save ∈ saves, save.outcome.round? = none
  dispatched : ∀ actorId, outcome = .dispatching actorId → acceptingActor saves = some actorId

theorem ActorKept.stay {outcome : McpOutcome}
    (h : ActorKept saves outcome) (haccepts : save.outcome.acceptedBy = none)
    (hwaiting : save.outcome ≠ .waiting)
    (hround : ∀ round, save.outcome.round? = some round →
      round.reviewActorId = acceptingActor saves) :
    ActorKept (saves ++ [save]) save.outcome := by
  have hactor : acceptingActor (saves ++ [save]) = acceptingActor saves := by
    rw [acceptingActor_concat, haccepts, Option.or_none]
  refine ⟨fun other hmem round hfound => ?_, ?_, fun heq => absurd heq hwaiting, ?_⟩
  · rw [hactor]
    rcases List.mem_append.mp hmem with hold | hnew
    · exact h.rounds other hold round hfound
    · rw [List.mem_singleton.mp hnew] at hfound
      exact hround round hfound
  · rw [hactor]
    exact hround
  · intro actorId heq
    rw [heq] at haccepts
    cases haccepts

theorem ActorKept.edge {now expiresAt : Int}
    {announced : Bool} {old new : McpOutcome} (h : ActorKept saves old)
    (edge : Edge host now expiresAt announced old new) (hnew : save.outcome = new) :
    ActorKept (saves ++ [save]) save.outcome := by
  subst hnew
  generalize hout : save.outcome = new at edge
  rw [← hout]
  cases edge with
  | @accepted actorId =>
    -- the first actor: no save before this one is in a round
    rcases h.unasked rfl with ⟨hnone, hrounds⟩
    have hactor : acceptingActor (saves ++ [save]) = some actorId := by
      rw [acceptingActor_concat, hnone, hout]
      rfl
    refine ⟨fun other hmem round hfound => ?_, fun round hfound => ?_, fun heq => ?_,
      fun other heq => ?_⟩
    · rcases List.mem_append.mp hmem with hold | hnew
      · rw [hrounds other hold] at hfound
        cases hfound
      · rw [List.mem_singleton.mp hnew, hout] at hfound
        cases hfound
    · rw [hout] at hfound
      cases hfound
    · rw [hout] at heq
      cases heq
    · rw [hout] at heq
      cases heq
      exact hactor
  | declined => exact h.stay (by rw [hout]; rfl) (by rw [hout]; nofun) (by rw [hout]; nofun)
  | completed => exact h.stay (by rw [hout]; rfl) (by rw [hout]; nofun) (by rw [hout]; nofun)
  | @opened actorId new round opens first actor =>
    have hopening := McpOutcome.of_opens opens
    refine h.stay (by rw [hout, hopening.acceptedBy]) (by rw [hout]; exact hopening.waiting) ?_
    intro other hfound
    rw [hout, hopening.inRound] at hfound
    cases hfound
    exact actor.trans (h.dispatched actorId rfl).symm
  | answered opens answers same =>
    have hanswering := McpOutcome.of_answers answers
    refine h.stay (by rw [hout, hanswering.acceptedBy])
      (by rw [hout]; exact hanswering.waiting) ?_
    intro other hfound
    rw [hout, hanswering.inRound] at hfound
    cases hfound
    exact h.here _ (McpOutcome.of_opens opens).inRound
  | expired opens overdue =>
    refine h.stay (by rw [hout]; rfl) (by rw [hout]; nofun) ?_
    intro other hfound
    rw [hout] at hfound
    cases hfound
    exact h.here _ (McpOutcome.of_opens opens).inRound
  | expiryCompleted => exact h.stay (by rw [hout]; rfl) (by rw [hout]; nofun) (by rw [hout]; nofun)
  | resumed answers => exact h.stay (by rw [hout]; rfl) (by rw [hout]; nofun) (by rw [hout]; nofun)
  | reopened answers opens raised renamed actor =>
    have hopening := McpOutcome.of_opens opens
    refine h.stay (by rw [hout, hopening.acceptedBy]) (by rw [hout]; exact hopening.waiting) ?_
    intro other hfound
    rw [hout, hopening.inRound] at hfound
    cases hfound
    exact actor.trans (h.here _ (McpOutcome.of_answers answers).inRound)

theorem actors (h : ReviewChain host schemas saves last) : ActorKept saves last.outcome := by
  induction h with
  | @created review event valid initial announced =>
    have haccepts : acceptingActor [⟨review, some event⟩] = review.outcome.acceptedBy :=
      acceptingActor_concat [] ⟨review, some event⟩
    have hnone : review.outcome.acceptedBy = none := by
      rcases McpOutcome.of_initial initial with hwaiting | ⟨round, hopens, -, -⟩
      · rw [hwaiting]
        rfl
      · exact (McpOutcome.of_opens hopens).acceptedBy
    have hrounds : ∀ round, review.outcome.round? = some round →
        round.reviewActorId = acceptingActor [⟨review, some event⟩] := by
      intro round hfound
      rw [haccepts, hnone]
      rcases McpOutcome.of_initial initial with hwaiting | ⟨first, hopens, -, hunreviewed⟩
      · rw [hwaiting] at hfound
        cases hfound
      · rw [(McpOutcome.of_opens hopens).inRound] at hfound
        cases hfound
        exact hunreviewed
    refine ⟨fun save hmem => ?_, hrounds, fun hwaiting => ⟨haccepts.trans hnone, ?_⟩, ?_⟩
    · rw [List.mem_singleton.mp hmem]
      exact hrounds
    · intro save hmem
      rw [List.mem_singleton.mp hmem]
      exact congrArg McpOutcome.round? hwaiting
    · intro actorId hdispatching
      change review.outcome = _ at hdispatching
      rw [hdispatching] at hnone
      cases hnone
  | advanced chain valid binding edge announced ih => exact ih.edge edge rfl

/-! ### Events -/

theorem requested_of_announces {review : McpReview} {event : HarnessEvent}
    (h : announcesOutcome review event = true) (hrequests : review.outcome.requests = true) :
    requestedFor (review.outcome.requestId review.toMcpOperation) event = true := by
  unfold announcesOutcome announces at h
  simp only [Bool.and_eq_true, beq_iff_eq] at h
  unfold requestedFor
  rw [h.1.1.1.2, h.1.1.1.1.2, Bool.and_true]
  cases hout : review.outcome <;> rw [hout] at hrequests <;> first | rfl | cases hrequests

theorem resolved_of_announces {review : McpReview} {event : HarnessEvent}
    (h : announcesOutcome review event = true) (hresolves : review.outcome.resolves = true) :
    resolvedFor (review.outcome.requestId review.toMcpOperation) event = true ∧
      carries review.toMcpOperation event review.outcome = true := by
  unfold announcesOutcome announces at h
  simp only [Bool.and_eq_true, beq_iff_eq] at h
  refine ⟨?_, h.2⟩
  unfold resolvedFor
  rw [h.1.1.1.2, h.1.1.1.1.2, Bool.and_true]
  cases hout : review.outcome <;> rw [hout] at hresolves <;> first | rfl | cases hresolves

theorem resolved (h : ReviewChain host schemas saves last) :
    Throughout ResolvesEarlier saves ∧ (last.outcome.requests = true →
      ∃ request ∈ last.event, requestedFor last.requestId request = true) := by
  induction h with
  | @created review event valid initial announced =>
    constructor
    · refine throughout_concat.mpr ⟨Throughout.nil _, fun hresolves => ?_⟩
      change review.outcome.resolves = true at hresolves
      rcases McpOutcome.of_initial initial with hwaiting | ⟨round, hopens, -, -⟩
      · rw [hwaiting] at hresolves
        cases hresolves
      · rw [(McpOutcome.of_opens hopens).resolves] at hresolves
        cases hresolves
    · exact fun hrequests => ⟨event, rfl, requested_of_announces announced hrequests⟩
  | @advanced saves last next event now chain valid binding edge announced ih =>
    constructor
    · refine throughout_concat.mpr ⟨ih.1, fun hresolves => ?_⟩
      rcases edge.resolves hresolves with ⟨hsome, hrequests, hid⟩
      rcases Option.isSome_iff_exists.mp hsome with ⟨e, rfl⟩
      rcases resolved_of_announces (announced e rfl) hresolves with ⟨hresolved, hcarries⟩
      rcases ih.2 hrequests with ⟨request, hrequest, hfor⟩
      refine ⟨e, rfl, hresolved, hcarries, last, chain.last_mem, request, hrequest, ?_⟩
      have hsame : last.requestId = next.outcome.requestId next.toMcpOperation := by
        rw [hid, ← binding]
        rfl
      change requestedFor (next.outcome.requestId next.toMcpOperation) request = true
      rw [← hsame]
      exact hfor
    · intro hrequests
      rcases Option.isSome_iff_exists.mp (edge.requests hrequests).1 with ⟨e, rfl⟩
      exact ⟨e, rfl, requested_of_announces (announced e rfl) hrequests⟩

theorem approved (h : ReviewChain host schemas saves last) :
    Throughout ApprovedEarlier saves ∧ ((∀ first ∈ saves.head?, first.outcome = .waiting) →
      last.outcome = .waiting ∨ last.outcome.terminal = true ∨ Approval last.operation saves) := by
  induction h with
  | @created review event valid initial announced =>
    constructor
    · refine throughout_concat.mpr ⟨Throughout.nil _, fun _ hcompleted => ?_⟩
      rcases hcompleted with ⟨actorId, resultJson, heq⟩
      change review.outcome = _ at heq
      rw [heq] at initial
      cases initial
    · exact fun hwaiting => Or.inl (hwaiting _ rfl)
  | @advanced saves last next event now chain valid binding edge announced ih =>
    have hnonempty : saves ≠ [] := List.ne_nil_of_mem chain.last_mem
    have hbefore : (∀ first ∈ saves.head?, first.outcome = .waiting) →
        last.outcome ≠ .waiting → Approval next.toMcpOperation saves := by
      intro hhead hne
      rcases ih.2 hhead with hwaiting | hterminal | happroval
      · exact absurd hwaiting hne
      · rw [edge.not_terminal] at hterminal
        cases hterminal
      · exact binding ▸ happroval
    constructor
    · refine throughout_concat.mpr ⟨ih.1, ?_⟩
      rintro hhead ⟨actorId, resultJson, heq⟩
      apply hbefore hhead
      intro hwaiting
      change next.outcome = _ at heq
      rw [hwaiting, heq] at edge
      rcases edge.of_waiting with ⟨-, ⟨_, hnew⟩ | ⟨_, hnew⟩⟩ <;> cases hnew
    · intro hhead
      rw [List.head?_append_of_ne_nil _ hnonempty] at hhead
      by_cases hwaiting : last.outcome = .waiting
      · rw [hwaiting] at edge
        rcases edge.of_waiting with ⟨hsome, ⟨actorId, hout⟩ | ⟨actorId, hout⟩⟩
        · -- the accept event is the one saved with this outcome
          rcases Option.isSome_iff_exists.mp hsome with ⟨e, rfl⟩
          rcases resolved_of_announces (announced e rfl) (by rw [hout]; rfl) with
            ⟨hresolved, hcarries⟩
          rw [hout] at hresolved hcarries
          exact Or.inr (Or.inr ⟨⟨next, some e⟩, by simp, actorId, e, hout, rfl, hresolved,
            hcarries⟩)
        · refine Or.inr (Or.inl ?_)
          change next.outcome.terminal = true
          rw [hout]
          rfl
      · rcases hbefore hhead hwaiting with ⟨accepted, hmem, happroval⟩
        exact Or.inr (Or.inr ⟨accepted, List.mem_append_left _ hmem, happroval⟩)

/-! ### One answer for one request -/

theorem settled_concat (saves : List ReviewSave) (save : ReviewSave) :
    settled (saves ++ [save]) = settled saves ++ save.settles.toList := by
  unfold settled
  rw [List.filterMap_append]
  cases hsettles : save.settles <;> simp [hsettles]

theorem settled_once (h : ReviewChain host schemas saves last) (hfresh : Throughout FreshRound saves) :
    (settled saves).Nodup ∧ (last.outcome.requests = true → last.requestId ∉ settled saves) := by
  induction h with
  | @created review event valid initial announced =>
    have hnone : settled [⟨review, some event⟩] = [] := by
      have hunresolved : review.outcome.resolves = false := by
        rcases McpOutcome.of_initial initial with hwaiting | ⟨round, hopens, -, -⟩
        · rw [hwaiting]
          rfl
        · exact (McpOutcome.of_opens hopens).resolves
      have hsettles : ReviewSave.settles ⟨review, some event⟩ = none :=
        if_neg (by rw [ReviewSave.outcome, hunresolved]; nofun)
      rw [← List.nil_append [_], settled_concat, hsettles]
      rfl
    rw [hnone]
    exact ⟨List.nodup_nil, fun _ => List.not_mem_nil⟩
  | @advanced saves last next event now chain valid binding edge announced ih =>
    rcases throughout_concat.mp hfresh with ⟨hearlier, hnext⟩
    rcases ih hearlier with ⟨hnodup, hopen⟩
    rw [settled_concat]
    by_cases hresolves : next.outcome.resolves = true
    · rcases edge.resolves hresolves with ⟨-, hrequests, hid⟩
      have hsettles : ReviewSave.settles ⟨next, event⟩ = some last.requestId := by
        refine (if_pos hresolves).trans (congrArg some ?_)
        change next.outcome.requestId next.toMcpOperation = _
        rw [hid, ← binding]
        rfl
      rw [hsettles]
      refine ⟨?_, fun hasks => ?_⟩
      · rw [Option.toList_some, List.nodup_append]
        refine ⟨hnodup, List.nodup_singleton _, fun id hmem other hother heq => ?_⟩
        rw [List.mem_singleton.mp hother] at heq
        exact hopen hrequests (heq ▸ hmem)
      · change next.outcome.requests = true at hasks
        rw [McpOutcome.resolves_of_requests hasks] at hresolves
        cases hresolves
    · have hsettles : ReviewSave.settles ⟨next, event⟩ = none := if_neg hresolves
      rw [hsettles, Option.toList_none, List.append_nil]
      refine ⟨hnodup, fun hrequests hmem => ?_⟩
      rcases (edge.requests hrequests).2 with ⟨round, hopens⟩
      have hid : ReviewSave.requestId ⟨next, event⟩ = round.inputRequestId :=
        McpOutcome.requestId_of_opens hopens _
      exact hnext round hopens (hid ▸ hmem)

/-- A save with an event asks or resolves a request, and its event announces the outcome. -/
def Announcing (save : ReviewSave) : Prop :=
  ∀ event ∈ save.event, announcesOutcome save.review event = true ∧
    (save.outcome.requests = true ∨ save.outcome.resolves = true)

theorem announcing (h : ReviewChain host schemas saves last) : ∀ save ∈ saves, Announcing save := by
  induction h with
  | @created review event valid initial announced =>
    intro save hmem e he
    rw [List.mem_singleton.mp hmem] at he ⊢
    cases he
    refine ⟨announced, Or.inl ?_⟩
    rcases McpOutcome.of_initial initial with hwaiting | ⟨round, hopens, -, -⟩
    · exact congrArg McpOutcome.requests hwaiting
    · exact (McpOutcome.of_opens hopens).requests
  | advanced chain valid binding edge announced ih =>
    intro save hmem e he
    rcases List.mem_append.mp hmem with hold | hnew
    · exact ih save hold e he
    · rw [List.mem_singleton.mp hnew] at he ⊢
      exact ⟨announced e he, edge.announces (Option.isSome_of_mem he)⟩

theorem settles_of_event (h : Announcing save) {event : HarnessEvent}
    (hevent : event ∈ save.event) {requestId : String}
    (hresolved : resolvedFor requestId event = true) : save.settles = some requestId := by
  rcases h event hevent with ⟨hannounces, hkind⟩
  unfold announcesOutcome announces at hannounces
  unfold resolvedFor at hresolved
  simp only [Bool.and_eq_true, beq_iff_eq, Bool.or_eq_true] at hannounces hresolved
  have hresolves : save.outcome.resolves = true := by
    rcases hkind with hrequests | hresolves
    · have htype : event.eventType = save.outcome.eventType := hannounces.1.1.1.1.2
      rw [htype] at hresolved
      rcases McpOutcome.eventType_of_requests hrequests with heq | heq <;> rw [heq] at hresolved <;>
        exact absurd hresolved.1 (by decide)
    · exact hresolves
  have hid : save.requestId = requestId := by
    have hfield : eventText event "request_id" save.requestId = true := hannounces.1.1.1.2
    have hother := hresolved.2
    unfold eventText at hfield hother
    rw [beq_iff_eq] at hfield hother
    exact Json.str.inj (Option.some.inj (hfield.symm.trans hother))
  exact (if_pos hresolves).trans (congrArg some hid)

theorem resolved_count (saves : List ReviewSave) (h : ∀ save ∈ saves, Announcing save)
    (requestId : String) :
    ((savedEvents saves).filter (resolvedFor requestId)).length ≤
      (settled saves).count requestId := by
  induction saves with
  | nil => exact Nat.le_refl 0
  | cons save rest ih =>
    have hrest := ih fun other hmem => h other (List.mem_cons_of_mem save hmem)
    have hsettled : settled (save :: rest) = save.settles.toList ++ settled rest := by
      unfold settled
      rw [List.filterMap_cons]
      cases save.settles <;> rfl
    have hevents : savedEvents (save :: rest) = save.event.toList ++ savedEvents rest := by
      unfold savedEvents
      rw [List.filterMap_cons]
      cases save.event <;> rfl
    rw [hsettled, hevents, List.filter_append, List.length_append, List.count_append]
    apply Nat.add_le_add _ hrest
    cases hevent : save.event with
    | none => exact Nat.zero_le _
    | some event =>
      by_cases hresolved : resolvedFor requestId event = true
      · rw [settles_of_event (h save List.mem_cons_self) hevent hresolved]
        simp [hresolved]
      · simp [hresolved]

theorem history (h : ReviewChain host schemas saves last) (hfresh : Throughout FreshRound saves) :
    ReviewHistory saves where
  binding a ha b hb := (h.binding a ha).trans (h.binding b hb).symm
  stages := h.stages
  bounded := h.bounded
  rounds := h.rounds.numbered
  actors := h.actors.rounds
  resolved := h.resolved.1
  once requestId i event _ _ := by
    have hcount := resolved_count saves h.announcing requestId
    have hone := List.nodup_iff_count_le_one.mp (h.settled_once hfresh).1 requestId
    have hdrop := ((List.drop_sublist (i + 1) (savedEvents saves)).filter
      (resolvedFor requestId)).length_le
    omega
  terminal := h.terminal.1
  approved := h.approved.1

end ReviewChain

theorem ReviewHistory.nil : ReviewHistory [] where
  binding _ ha := nomatch ha
  stages := List.nodup_nil
  bounded := Nat.zero_le _
  rounds := Numbered.nil
  actors _ hmem := nomatch hmem
  resolved := Throughout.nil _
  once _ _ _ hevent := nomatch hevent
  terminal := Throughout.nil _
  approved := Throughout.nil _

end HarnessControl.State
