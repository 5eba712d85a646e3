import HarnessControl.State.McpReview

/-!
# The phases of an operation

An outcome opens a round, answers one, or ends the operation; seen this way the table of transitions
has ten edges.  Every edge raises the rank of the outcome, and no edge leaves a terminal one.
-/

namespace HarnessControl.State

open HarnessControl.Library HarnessControl.Protocol

/-! ## What an outcome is -/

def McpOutcome.round? : McpOutcome → Option InputRound
  | .inputWaiting round _ | .inputResuming round _ _ | .reviewWaiting round _ _
  | .reviewResuming round _ _ _ _ | .expiryResuming round _ => some round
  | _ => none

/-- A human answer that the tool is resumed with: its round and its actor. -/
def McpOutcome.answers : McpOutcome → Option (InputRound × String)
  | .inputResuming round _ actorId | .reviewResuming round _ _ actorId _ => some (round, actorId)
  | _ => none

def McpOutcome.acceptedBy : McpOutcome → Option String
  | .dispatching actorId => some actorId
  | _ => none

def McpOutcome.terminal : McpOutcome → Bool
  | .completed _ _ | .declined _ | .expiryCompleted _ => true
  | _ => false

/-- A human is asked for a decision or an input. -/
def McpOutcome.requests : McpOutcome → Bool
  | .waiting | .inputWaiting _ _ | .reviewWaiting _ _ _ => true
  | _ => false

/-- A human decision or input is recorded. -/
def McpOutcome.resolves : McpOutcome → Bool
  | .dispatching _ | .declined _ | .inputResuming _ _ _ | .reviewResuming _ _ _ _ _ => true
  | _ => false

def McpOutcome.rank : McpOutcome → Nat
  | .waiting => 0
  | .dispatching _ => 1
  | .inputWaiting round _ | .reviewWaiting round _ _ => 2 * round.protocolRound
  | .inputResuming round _ _ | .reviewResuming round _ _ _ _ | .expiryResuming round _ =>
    2 * round.protocolRound + 1
  | .declined _ | .completed _ _ | .expiryCompleted _ => 20

structure Opening (outcome : McpOutcome) (round : InputRound) : Prop where
  inRound : outcome.round? = some round
  rank : outcome.rank = 2 * round.protocolRound
  answers : outcome.answers = none
  acceptedBy : outcome.acceptedBy = none
  terminal : outcome.terminal = false
  resolves : outcome.resolves = false
  requests : outcome.requests = true
  waiting : outcome ≠ .waiting

variable {outcome : McpOutcome} {round : InputRound}

theorem McpOutcome.of_opens
    (h : outcome.opens = some round) : Opening outcome round := by
  cases outcome <;> cases h <;> exact ⟨rfl, rfl, rfl, rfl, rfl, rfl, rfl, nofun⟩

/-- An outcome that resumes the tool with a human answer. -/
structure Answering (outcome : McpOutcome) (round : InputRound) : Prop where
  inRound : outcome.round? = some round
  rank : outcome.rank = 2 * round.protocolRound + 1
  opens : outcome.opens = none
  acceptedBy : outcome.acceptedBy = none
  terminal : outcome.terminal = false
  resolves : outcome.resolves = true
  requests : outcome.requests = false
  waiting : outcome ≠ .waiting

theorem McpOutcome.of_answers {actorId : String}
    (h : outcome.answers = some (round, actorId)) : Answering outcome round := by
  cases outcome <;> cases h <;> exact ⟨rfl, rfl, rfl, rfl, rfl, rfl, rfl, nofun⟩

/-- A new operation waits for its approval, or for the answer to a first round without an actor. -/
theorem McpOutcome.of_initial (h : outcome.initial = true) :
    outcome = .waiting ∨ ∃ round, outcome.opens = some round ∧ round.protocolRound = 1 ∧
      round.reviewActorId = none := by
  cases outcome with
  | waiting => exact Or.inl rfl
  | inputWaiting round pending =>
    simp only [McpOutcome.initial, Bool.and_eq_true, beq_iff_eq, Option.isNone_iff_eq_none] at h
    exact Or.inr ⟨round, rfl, h⟩
  | reviewWaiting round action pending =>
    simp only [McpOutcome.initial, Bool.and_eq_true, beq_iff_eq, Option.isNone_iff_eq_none] at h
    exact Or.inr ⟨round, rfl, h⟩
  | _ => cases h

/-- The tool's request and the reply that a resuming outcome carries are those of its round. -/
inductive Answered : McpOutcome → McpOutcome → Prop
  | input {round : InputRound} {pending : PendingInput} {reply : InputReply} {actorId : String}
    (asked : reply.pending = pending) :
    Answered (.inputWaiting round pending) (.inputResuming round reply actorId)
  | review {round : InputRound} {action : ReviewAction} {pending : PendingInput}
    {reply : InputReply} {actorId : String} {decision : ReviewDecision}
    (asked : reply.pending = pending) :
    Answered (.reviewWaiting round action pending)
      (.reviewResuming round action reply actorId decision)

/-- The edges between outcomes; the flag says that an event goes with the transition. -/
inductive Edge (host : Host) (now expiresAt : Int) : Bool → McpOutcome → McpOutcome → Prop
  | accepted {actorId : String} : Edge host now expiresAt true .waiting (.dispatching actorId)
  | declined {actorId : String} : Edge host now expiresAt true .waiting (.declined actorId)
  | completed {actorId resultJson : String} :
    Edge host now expiresAt false (.dispatching actorId) (.completed actorId resultJson)
  | opened {actorId : String} {new : McpOutcome} {round : InputRound}
    (opens : new.opens = some round) (first : round.protocolRound = 1)
    (actor : round.reviewActorId = some actorId) :
    Edge host now expiresAt true (.dispatching actorId) new
  | answered {old new : McpOutcome} {round : InputRound} {actorId : String}
    (opens : old.opens = some round) (answers : new.answers = some (round, actorId))
    (same : Answered old new) : Edge host now expiresAt true old new
  | expired {old : McpOutcome} {round : InputRound} {pending : PendingInput} {reply : InputReply}
    (opens : old.opens = some round)
    (overdue : expires host now expiresAt pending reply = true) :
    Edge host now expiresAt false old (.expiryResuming round reply)
  | expiryCompleted {round : InputRound} {reply : InputReply} {resultJson : String} :
    Edge host now expiresAt false (.expiryResuming round reply) (.expiryCompleted resultJson)
  | resumed {old : McpOutcome} {round : InputRound} {actorId resultJson : String}
    (answers : old.answers = some (round, actorId)) :
    Edge host now expiresAt false old (.completed actorId resultJson)
  | reopened {old new : McpOutcome} {round next : InputRound} {actorId : String}
    (answers : old.answers = some (round, actorId)) (opens : new.opens = some next)
    (raised : next.protocolRound = round.protocolRound + 1)
    (renamed : next.inputRequestId ≠ round.inputRequestId)
    (actor : next.reviewActorId = round.reviewActorId) : Edge host now expiresAt true old new

theorem InputRound.next_iff {old new : InputRound} :
    old.next new = true ↔ new.protocolRound = old.protocolRound + 1 ∧
      new.inputRequestId ≠ old.inputRequestId ∧ new.reviewActorId = old.reviewActorId := by
  unfold InputRound.next
  simp only [Bool.and_eq_true, beq_iff_eq, bne_iff_ne, and_assoc]

variable {host : Host} {now expiresAt : Int} {announced : Bool} {old new : McpOutcome}

theorem edge_of_advances (h : advances host now expiresAt announced old new = true) :
    Edge host now expiresAt announced old new := by
  cases old with
  | waiting =>
    cases new with
    | dispatching actorId => cases h; exact .accepted
    | declined actorId => cases h; exact .declined
    | _ => cases h
  | dispatching actorId =>
    cases new with
    | completed completedBy resultJson =>
      simp only [advances, Bool.and_eq_true, beq_iff_eq, Bool.not_eq_true'] at h
      rcases h with ⟨rfl, rfl⟩
      exact .completed
    | inputWaiting round pending =>
      simp only [advances, Bool.and_eq_true, beq_iff_eq] at h
      rcases h with ⟨⟨hfirst, hactor⟩, rfl⟩
      exact .opened rfl hfirst hactor
    | reviewWaiting round action pending =>
      simp only [advances, Bool.and_eq_true, beq_iff_eq] at h
      rcases h with ⟨⟨hfirst, hactor⟩, rfl⟩
      exact .opened rfl hfirst hactor
    | _ => cases h
  | inputWaiting round pending =>
    cases new with
    | inputResuming next reply actorId =>
      simp only [advances, Bool.and_eq_true, beq_iff_eq] at h
      rcases h with ⟨⟨rfl, hpending⟩, rfl⟩
      exact .answered rfl rfl (.input hpending)
    | expiryResuming next reply =>
      simp only [advances, Bool.and_eq_true, beq_iff_eq, Bool.not_eq_true'] at h
      rcases h with ⟨⟨rfl, rfl⟩, hexpires⟩
      exact .expired rfl hexpires
    | _ => cases h
  | reviewWaiting round action pending =>
    cases new with
    | reviewResuming next nextAction reply actorId decision =>
      simp only [advances, Bool.and_eq_true, beq_iff_eq] at h
      rcases h with ⟨⟨⟨rfl, hpending⟩, rfl⟩, rfl⟩
      exact .answered rfl rfl (.review hpending)
    | expiryResuming next reply =>
      simp only [advances, Bool.and_eq_true, beq_iff_eq, Bool.not_eq_true'] at h
      rcases h with ⟨⟨rfl, rfl⟩, hexpires⟩
      exact .expired rfl hexpires
    | _ => cases h
  | inputResuming round reply actorId =>
    cases new with
    | completed completedBy resultJson =>
      simp only [advances, Bool.and_eq_true, beq_iff_eq, Bool.not_eq_true'] at h
      rcases h with ⟨rfl, rfl⟩
      exact .resumed rfl
    | inputWaiting next pending =>
      simp only [advances, Bool.and_eq_true, InputRound.next_iff] at h
      rcases h with ⟨⟨hraised, hrenamed, hactor⟩, rfl⟩
      exact .reopened rfl rfl hraised hrenamed hactor
    | reviewWaiting next action pending =>
      simp only [advances, Bool.and_eq_true, InputRound.next_iff] at h
      rcases h with ⟨⟨hraised, hrenamed, hactor⟩, rfl⟩
      exact .reopened rfl rfl hraised hrenamed hactor
    | _ => cases h
  | reviewResuming round action reply actorId decision =>
    cases new with
    | completed completedBy resultJson =>
      simp only [advances, Bool.and_eq_true, beq_iff_eq, Bool.not_eq_true'] at h
      rcases h with ⟨rfl, rfl⟩
      exact .resumed rfl
    | inputWaiting next pending =>
      simp only [advances, Bool.and_eq_true, InputRound.next_iff] at h
      rcases h with ⟨⟨hraised, hrenamed, hactor⟩, rfl⟩
      exact .reopened rfl rfl hraised hrenamed hactor
    | reviewWaiting next action pending =>
      simp only [advances, Bool.and_eq_true, InputRound.next_iff] at h
      rcases h with ⟨⟨hraised, hrenamed, hactor⟩, rfl⟩
      exact .reopened rfl rfl hraised hrenamed hactor
    | _ => cases h
  | expiryResuming round reply =>
    cases new with
    | expiryCompleted resultJson =>
      simp only [advances, Bool.not_eq_true'] at h
      subst h
      exact .expiryCompleted
    | _ => cases h
  | declined actorId => cases new <;> cases h
  | expiryCompleted resultJson => cases new <;> cases h
  | completed actorId resultJson => cases new <;> cases h

/-! ## Events -/

theorem McpOutcome.requestId_of_opens
    (h : outcome.opens = some round) (operation : McpOperation) :
    outcome.requestId operation = round.inputRequestId := by
  cases outcome <;> cases h <;> rfl

theorem McpOutcome.requestId_of_answers
    {actorId : String} (h : outcome.answers = some (round, actorId)) (operation : McpOperation) :
    outcome.requestId operation = round.inputRequestId := by
  cases outcome <;> cases h <;> rfl

theorem McpOutcome.resolves_of_requests (h : outcome.requests = true) :
    outcome.resolves = false := by
  cases outcome <;> first | rfl | cases h

theorem McpOutcome.eventType_of_requests (h : outcome.requests = true) :
    outcome.eventType = "approval.requested" ∨ outcome.eventType = "input.requested" := by
  cases outcome <;> first | exact Or.inl rfl | exact Or.inr rfl | cases h

theorem Edge.of_waiting {new : McpOutcome}
    (h : Edge host now expiresAt announced .waiting new) :
    announced = true ∧ ((∃ actorId, new = .dispatching actorId) ∨
      ∃ actorId, new = .declined actorId) := by
  cases h with
  | @accepted actorId => exact ⟨rfl, Or.inl ⟨actorId, rfl⟩⟩
  | @declined actorId => exact ⟨rfl, Or.inr ⟨actorId, rfl⟩⟩
  | answered opens answers same => cases opens
  | expired opens overdue => cases opens
  | resumed answers => cases answers
  | reopened answers opens raised renamed actor => cases answers

theorem Edge.requests (h : Edge host now expiresAt announced old new)
    (hrequests : new.requests = true) : announced = true ∧ ∃ round, new.opens = some round := by
  cases h with
  | accepted => cases hrequests
  | declined => cases hrequests
  | completed => cases hrequests
  | opened opens first actor => exact ⟨rfl, _, opens⟩
  | answered opens answers same =>
    rw [(McpOutcome.of_answers answers).requests] at hrequests
    cases hrequests
  | expired opens overdue => cases hrequests
  | expiryCompleted => cases hrequests
  | resumed answers => cases hrequests
  | reopened answers opens raised renamed actor => exact ⟨rfl, _, opens⟩

theorem Edge.resolves (h : Edge host now expiresAt announced old new)
    (hresolves : new.resolves = true) : announced = true ∧ old.requests = true ∧
      ∀ operation, new.requestId operation = old.requestId operation := by
  cases h with
  | accepted => exact ⟨rfl, rfl, fun _ => rfl⟩
  | declined => exact ⟨rfl, rfl, fun _ => rfl⟩
  | completed => cases hresolves
  | opened opens first actor =>
    rw [(McpOutcome.of_opens opens).resolves] at hresolves
    cases hresolves
  | answered opens answers same =>
    refine ⟨rfl, (McpOutcome.of_opens opens).requests, fun operation => ?_⟩
    rw [McpOutcome.requestId_of_answers answers, McpOutcome.requestId_of_opens opens]
  | expired opens overdue => cases hresolves
  | expiryCompleted => cases hresolves
  | resumed answers => cases hresolves
  | reopened answers opens raised renamed actor =>
    rw [(McpOutcome.of_opens opens).resolves] at hresolves
    cases hresolves

theorem Edge.announces (h : Edge host now expiresAt announced old new)
    (hannounced : announced = true) : new.requests = true ∨ new.resolves = true := by
  cases h with
  | accepted => exact Or.inr rfl
  | declined => exact Or.inr rfl
  | opened opens first actor => exact Or.inl (McpOutcome.of_opens opens).requests
  | answered opens answers same => exact Or.inr (McpOutcome.of_answers answers).resolves
  | reopened answers opens raised renamed actor => exact Or.inl (McpOutcome.of_opens opens).requests
  | completed => cases hannounced
  | expired opens overdue => cases hannounced
  | expiryCompleted => cases hannounced
  | resumed answers => cases hannounced

/-! ## Rank -/

variable {schemas : PayloadSchemas}

theorem McpOutcome.round_of_valid (hvalid : outcome.valid host schemas = true)
    (hround : outcome.round? = some round) :
    1 ≤ round.protocolRound ∧ round.protocolRound ≤ 9 := by
  have hround : round.valid = true := by
    cases outcome <;> cases hround <;> unfold McpOutcome.valid at hvalid <;>
      simp only [Bool.and_eq_true] at hvalid
    · exact hvalid.1
    · exact hvalid.1.1
    · exact hvalid.1.1
    · exact hvalid.1.1.1
    · exact hvalid.1
  unfold InputRound.valid at hround
  simp only [Bool.and_eq_true, decide_eq_true_eq] at hround
  exact ⟨hround.1.1.2, hround.1.2⟩

theorem McpOutcome.rank_le
    (hvalid : outcome.valid host schemas = true) : outcome.rank ≤ 20 := by
  cases hround : outcome.round? with
  | none => cases outcome <;> cases hround <;> unfold McpOutcome.rank <;> dsimp only <;> omega
  | some round =>
    have hbound := round_of_valid hvalid hround
    cases outcome <;> cases hround <;> unfold McpOutcome.rank <;> dsimp only <;> omega

theorem Edge.not_terminal (h : Edge host now expiresAt announced old new) :
    old.terminal = false := by
  cases h with
  | accepted => rfl
  | declined => rfl
  | completed => rfl
  | opened opens first actor => rfl
  | answered opens answers same => exact (McpOutcome.of_opens opens).terminal
  | expired opens overdue => exact (McpOutcome.of_opens opens).terminal
  | expiryCompleted => rfl
  | resumed answers => exact (McpOutcome.of_answers answers).terminal
  | reopened answers opens raised renamed actor => exact (McpOutcome.of_answers answers).terminal

theorem Edge.rank_lt (h : Edge host now expiresAt announced old new)
    (hvalid : old.valid host schemas = true) : old.rank < new.rank := by
  cases h with
  | accepted => exact Nat.zero_lt_one
  | declined => exact Nat.zero_lt_succ _
  | completed => exact Nat.lt_add_left 18 (Nat.lt_succ_self 1)
  | opened opens first actor =>
    rw [(McpOutcome.of_opens opens).rank, first]
    exact Nat.lt_succ_self 1
  | answered opens answers same =>
    rw [(McpOutcome.of_opens opens).rank, (McpOutcome.of_answers answers).rank]
    omega
  | expired opens overdue =>
    rw [(McpOutcome.of_opens opens).rank]
    exact Nat.lt_succ_self _
  | @expiryCompleted round reply resultJson =>
    have hbound := McpOutcome.round_of_valid hvalid (show _ = some round from rfl)
    unfold McpOutcome.rank
    dsimp only
    omega
  | resumed answers =>
    have hold := McpOutcome.of_answers answers
    have hbound := McpOutcome.round_of_valid hvalid hold.inRound
    rw [hold.rank]
    unfold McpOutcome.rank
    dsimp only
    omega
  | reopened answers opens raised renamed actor =>
    rw [(McpOutcome.of_answers answers).rank, (McpOutcome.of_opens opens).rank]
    omega

end HarnessControl.State
