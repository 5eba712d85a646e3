import HarnessControl.Sdk.PendingCommands

/-!
# Outcomes of commands

Every promise of `send` waits under the id of its command or is settled, with an answer to its own
command if it was resolved, and nothing waits once the connection is closed.
-/

namespace HarnessControl.Sdk

open HarnessControl.Library HarnessControl.Protocol HarnessControl.Harnesses

/-! ## Answers -/

/-- The result repeats the parameters of the operation that it can repeat. -/
def ConversationOperation.SameParameters (operation : ConversationOperation)
    (reply : ConversationReply) : Prop :=
  match operation with
  | .read | .rollback | .retire | .policy => True
  | .inject messageCount =>
    ∀ count : Int, reply.injection = some (.applied count) → count = messageCount
  | .steer turnId => reply.turnId = some turnId
  | .goal .read => ∃ reference goal, reply.goal = some (.read reference goal)
  | .goal (.pause expected) => ∃ reference goal, reply.goal = some (.pause reference expected goal)
  | .goal (.clear expected) => ∃ reference, reply.goal = some (.clear reference expected)
  | .feedback classification includeDiagnostics =>
    ∃ feedback, reply.feedback = some feedback ∧ feedback.classification = classification ∧
      feedback.diagnosticsRequested = includeDiagnostics
  | .inputFile request =>
    ∃ file, reply.inputFile = some file ∧ file.action = replyAction request ∧
      match request with
      | .create description => file.reference.toInputFileDescription = description
      | .append fileId offset dataBase64 =>
        file.reference.fileId = fileId ∧ offset + base64Size dataBase64 ≤ file.receivedBytes
      | .sealUpload fileId | .read fileId | .release fileId => file.reference.fileId = fileId
  | .content contentId offset => reply.content = some ⟨contentId, offset⟩
  | .fork targetSessionId continuationGroupKey =>
    ∃ target, reply.fork = some target ∧ target.sessionId = targetSessionId ∧
      target.continuationGroupKey = continuationGroupKey
  | .work .read => reply.work = some .read
  | .work (.cancel workId) => reply.work = some (.cancel workId)
  | .work (.retire workId) => reply.work = some (.retire workId)
  | .work (.history workId expectedRevision retained) =>
    reply.work = some (.history workId expectedRevision retained)
  | .work (.fork workId expectedRevision targetSessionId continuationGroupKey) =>
    ∃ target, reply.work = some (.fork workId expectedRevision target) ∧
      target.sessionId = targetSessionId ∧ target.continuationGroupKey = continuationGroupKey
  | .work (.reconcile workId expectedRevision) =>
    reply.work = some (.reconcile workId (expectedRevision + 1))

/-- The message is a response to the command: of its type, with its correlation id, session,
operation and parameters. -/
def Answers (command : AppCommand) : RunnerReply → Prop
  | .ack commandId => commandId = command.id ∧ ∃ acked, command.payload = .acked acked
  | .conversationResult reply =>
    reply.commandId = command.id ∧
      ∃ operation : ConversationOperation,
        command.payload = .conversationRequest reply.sessionId operation ∧
          operation.kind = reply.operation ∧ operation.SameParameters reply
  | .accountsSnapshot requestId _ providers =>
    requestId = command.id ∧ ∃ requested, command.payload = .accountsRead requested ∧
      ∀ ids, requested = some ids → ids.length = providers.length ∧ ∀ id ∈ providers, id ∈ ids
  | .localAction reply =>
    command.payload = .localAction reply.requestId reply.sessionId reply.action
  | .workspacesResult requestId => requestId = command.id ∧ command.payload = .workspacesRequest
  | .sessionSnapshot commandId sessionId =>
    commandId = command.id ∧ command.payload = .snapshotRequest sessionId
  | .hostHello _ | .nack _ _ | .other => False

theorem ConversationOperation.accepts_same {operation : ConversationOperation}
    {reply : ConversationReply} (h : operation.accepts reply = true) :
    operation.SameParameters reply := by
  unfold ConversationOperation.accepts at h
  unfold ConversationOperation.SameParameters
  cases operation with
  | read => trivial
  | rollback => trivial
  | retire => trivial
  | policy => trivial
  | inject messageCount =>
    dsimp only at h ⊢
    intro count hcount
    rw [hcount] at h
    exact beq_iff_eq.mp h
  | steer turnId => exact beq_iff_eq.mp h
  | fork targetSessionId continuationGroupKey =>
    dsimp only at h ⊢
    rcases Option.any_eq_true _ _ |>.mp h with ⟨target, htarget, hsame⟩
    rw [Bool.and_eq_true, beq_iff_eq, beq_iff_eq] at hsame
    exact ⟨target, htarget, hsame.1, hsame.2⟩
  | content contentId offset => exact beq_iff_eq.mp h
  | feedback classification includeDiagnostics =>
    dsimp only at h ⊢
    rcases Option.any_eq_true _ _ |>.mp h with ⟨feedback, hfeedback, hsame⟩
    rw [Bool.and_eq_true, beq_iff_eq, beq_iff_eq] at hsame
    exact ⟨feedback, hfeedback, hsame.1, hsame.2⟩
  | goal operation =>
    dsimp only at h
    split at h
    · rename_i reference goal hgoal
      exact ⟨reference, goal, hgoal⟩
    · rename_i reference target goal hgoal
      rw [beq_iff_eq] at h
      exact ⟨reference, goal, h ▸ hgoal⟩
    · rename_i reference target hgoal
      rw [beq_iff_eq] at h
      exact ⟨reference, h ▸ hgoal⟩
    · cases h
  | inputFile request =>
    dsimp only at h
    split at h
    · cases h
    · rename_i file hfile
      rw [Bool.and_eq_true, beq_iff_eq] at h
      refine ⟨file, hfile, h.1, ?_⟩
      cases request with
      | create description => exact beq_iff_eq.mp h.2
      | append fileId offset dataBase64 =>
        have hboth := h.2
        rw [Bool.and_eq_true, beq_iff_eq, decide_eq_true_eq] at hboth
        exact hboth
      | sealUpload fileId => exact beq_iff_eq.mp h.2
      | read fileId => exact beq_iff_eq.mp h.2
      | release fileId => exact beq_iff_eq.mp h.2
  | work operation =>
    dsimp only at h
    split at h
    · assumption
    · rename_i hwork
      rw [beq_iff_eq] at h
      exact h ▸ hwork
    · rename_i hwork
      rw [beq_iff_eq] at h
      exact h ▸ hwork
    · rename_i hwork
      simp only [Bool.and_eq_true, beq_iff_eq] at h
      rcases h with ⟨⟨rfl, rfl⟩, rfl⟩
      exact hwork
    · rename_i target hwork
      simp only [Bool.and_eq_true, beq_iff_eq] at h
      rcases h with ⟨⟨⟨rfl, rfl⟩, hsession⟩, hkey⟩
      exact ⟨target, hwork, hsession, hkey⟩
    · rename_i hwork
      simp only [Bool.and_eq_true, beq_iff_eq] at h
      rcases h with ⟨rfl, rfl⟩
      exact hwork
    · cases h

/-- A resolved promise has an answer to its command, a rejected one a nack for its command. -/
def CommandOutcome.Right (command : AppCommand) : CommandOutcome → Prop
  | .resolved _ message => Answers command message
  | .rejected _ message => ∃ error, message = .nack command.id error
  | .unknown _ => True

/-- The message that settled the promise. -/
def CommandOutcome.received : CommandOutcome → Option Nat
  | .resolved received _ | .rejected received _ => some received
  | .unknown _ => none

namespace CommandRun

/-! ## Promises -/

structure Kept (run : CommandRun) : Prop where
  right : ∀ promise outcome, run.settled.get? promise = some outcome →
    ∃ command, run.sent[promise]? = some command ∧ outcome.Right command
  /-- No message settles two promises. -/
  once : ∀ first second outcome other, run.settled.get? first = some outcome →
    run.settled.get? second = some other → outcome.received.isSome = true →
    outcome.received = other.received → first = second
  /-- A settled promise is not settled again. -/
  final : ∀ action promise outcome, run.settled.get? promise = some outcome →
    (run.step action).settled.get? promise = some outcome
  closed : run.state = .closed → ∀ promise, promise < run.sent.length →
    (run.settled.get? promise).isSome = true

/-- The session of a local action's reply is that of the request that it names, and a transport
that throws has left the command waiting, or nothing under its id. -/
def Correlated (run : CommandRun) : CommandAction → Prop
  | .receive (.localAction reply) =>
    ∀ id waiting, run.pending.get? id = some waiting →
      ∀ sessionId, waiting.command.payload =
        .localAction reply.requestId sessionId reply.action → sessionId = reply.sessionId
  | .transportEnds true =>
    ∀ promise rest command waiting, run.sending = promise :: rest →
      run.sent[promise]? = some command → run.pending.get? command.id = some waiting →
      waiting.promise = promise
  | _ => True

structure Tracks (run : CommandRun) : Prop where
  keyed : ∀ id waiting, run.pending.get? id = some waiting →
    waiting.command.id = id ∧ run.sent[waiting.promise]? = some waiting.command ∧
      run.settled.get? waiting.promise = none
  unsettled : ∀ promise, promise < run.sent.length → run.settled.get? promise = none →
    ∃ id waiting, run.pending.get? id = some waiting ∧ waiting.promise = promise
  right : ∀ promise outcome, run.settled.get? promise = some outcome →
    ∃ command, run.sent[promise]? = some command ∧ outcome.Right command
  earlier : ∀ promise outcome received, run.settled.get? promise = some outcome →
    outcome.received = some received → received < run.received
  once : ∀ first second outcome other, run.settled.get? first = some outcome →
    run.settled.get? second = some other → outcome.received.isSome = true →
    outcome.received = other.received → first = second
  closed : run.state = .closed → ∀ id, run.pending.get? id = none

variable {run : CommandRun} {promise : Nat} {outcome : CommandOutcome}

theorem settle_get? (run : CommandRun) (promise : Nat) (outcome : CommandOutcome) (other : Nat) :
    (run.settle promise outcome).settled.get? other =
      (run.settled.get? other).or (if other = promise then some outcome else none) := by
  unfold settle
  split
  · rename_i hsettled
    by_cases hother : other = promise
    · rw [hother, if_pos rfl]
      cases hfound : run.settled.get? promise with
      | none =>
        rw [hfound] at hsettled
        cases hsettled
      | some found => rfl
    · rw [if_neg hother, Option.or_none]
  · rename_i hunsettled
    rw [Option.isSome_iff_ne_none, not_not] at hunsettled
    dsimp only
    rw [Dict.get?_set]
    by_cases hother : other = promise
    · rw [if_pos hother, if_pos hother, hother, hunsettled]
      rfl
    · rw [if_neg hother, if_neg hother, Option.or_none]

theorem settle_state (run : CommandRun) (promise : Nat) (outcome : CommandOutcome) :
    (run.settle promise outcome).state = run.state ∧
      (run.settle promise outcome).pending = run.pending ∧
      (run.settle promise outcome).sending = run.sending ∧
      (run.settle promise outcome).sent = run.sent ∧
      (run.settle promise outcome).received = run.received := by
  unfold settle
  split
  · exact ⟨rfl, rfl, rfl, rfl, rfl⟩
  · exact ⟨rfl, rfl, rfl, rfl, rfl⟩

/-! ## Final outcomes -/

/-- What is settled stays so. -/
def Grows (before after : CommandRun) : Prop :=
  ∀ promise outcome, before.settled.get? promise = some outcome →
    after.settled.get? promise = some outcome

theorem Grows.settle (run : CommandRun) (promise : Nat) (outcome : CommandOutcome) :
    Grows run (run.settle promise outcome) := by
  intro other found hfound
  rw [settle_get?, hfound]
  rfl

theorem Grows.fail (run : CommandRun) (promise : Nat) (reason : String) :
    Grows run (run.fail promise reason) := by
  unfold CommandRun.fail
  split
  · exact fun _ _ h => h
  · rename_i command _
    exact Grows.settle { run with pending := run.pending.erase command.id } promise _

theorem Grows.foldl (waiting : List PendingCommand) (run : CommandRun) (outcome : CommandOutcome) :
    Grows run (waiting.foldl (fun run waiting => run.settle waiting.promise outcome) run) := by
  induction waiting generalizing run with
  | nil => exact fun _ _ h => h
  | cons first rest ih =>
    intro other found hfound
    rw [List.foldl_cons]
    exact ih _ other found (Grows.settle run first.promise outcome other found hfound)

theorem Grows.disconnect (run : CommandRun) : Grows run run.disconnect :=
  Grows.foldl run.pending.values { run with state := .closed, pending := Dict.empty } _

theorem Grows.receive (run : CommandRun) (message : RunnerReply) :
    Grows run (run.receive message) := by
  have hsame : Grows run run := fun _ _ h => h
  unfold CommandRun.receive
  split
  · exact hsame
  · exact hsame
  · split
    · exact hsame
    · split
      · exact hsame
      · rename_i waiting _
        exact Grows.settle { run with pending := run.pending.erase waiting.command.id } _ _
  · exact hsame

theorem Grows.step (run : CommandRun) (action : CommandAction) : Grows run (run.step action) := by
  have hsame : Grows run run := fun _ _ h => h
  cases action with
  | receive message => exact Grows.receive run message
  | accept fails =>
    unfold CommandRun.step
    dsimp only
    split
    · rename_i hostId _
      split
      · exact Grows.disconnect { run with state := .accepted hostId }
      · exact hsame
    · exact hsame
  | send command =>
    unfold CommandRun.step CommandRun.send
    dsimp only
    split
    · split
      · exact hsame
      · exact hsame
    · exact hsame
  | transportEnds throws =>
    unfold CommandRun.step
    dsimp only
    split
    · exact hsame
    · rename_i promise sending _
      split
      · exact Grows.fail { run with sending } promise _
      · exact hsame
  | timeout promise =>
    unfold CommandRun.step
    dsimp only
    split
    · exact Grows.fail run promise _
    · exact hsame
  | abort promise =>
    unfold CommandRun.step
    dsimp only
    split
    · exact Grows.fail run promise _
    · exact hsame
  | disconnect => exact Grows.disconnect run

/-! ## Steps -/

theorem Tracks.initial : initial.Tracks where
  keyed := fun _ _ h => nomatch h
  unsettled := fun _ h => absurd h (Nat.not_lt_zero _)
  right := fun _ _ h => nomatch h
  earlier := fun _ _ _ h => nomatch h
  once := fun _ _ _ _ h => nomatch h
  closed := fun _ _ => rfl

theorem Tracks.lt_length (h : run.Tracks) (hsettled : run.settled.get? promise = some outcome) :
    promise < run.sent.length := by
  rcases h.right promise outcome hsettled with ⟨command, hcommand, -⟩
  exact (List.getElem?_eq_some_iff.mp hcommand).1

theorem Tracks.same (h : run.Tracks) {id other : String} {waiting found : PendingCommand}
    (hwaiting : run.pending.get? id = some waiting) (hfound : run.pending.get? other = some found)
    (hpromise : waiting.promise = found.promise) : id = other := by
  rcases h.keyed id waiting hwaiting with ⟨hid, hcommand, -⟩
  rcases h.keyed other found hfound with ⟨hother, hcommand', -⟩
  rw [hpromise, hcommand'] at hcommand
  rw [← hid, ← hother, Option.some.inj hcommand]

theorem Tracks.bump (h : run.Tracks) :
    Tracks { run with received := run.received + 1 } :=
  { h with
    earlier := fun promise outcome received hsettled hreceived =>
      Nat.lt_succ_of_lt (h.earlier promise outcome received hsettled hreceived) }

theorem Tracks.settles (h : run.Tracks) {waiting : PendingCommand}
    (hwaiting : run.pending.get? waiting.command.id = some waiting)
    (hright : outcome.Right waiting.command) {received : Nat} (hbound : run.received ≤ received)
    (hnumber : ∀ number, outcome.received = some number →
      number = run.received ∧ run.received < received) :
    Tracks { CommandRun.settle waiting.promise outcome
      { run with pending := run.pending.erase waiting.command.id } with received } := by
  rcases h.keyed _ waiting hwaiting with ⟨-, hcommand, hunsettled⟩
  have hget : ∀ other, (CommandRun.settle waiting.promise outcome
      { run with pending := run.pending.erase waiting.command.id }).settled.get? other =
      if other = waiting.promise then some outcome else run.settled.get? other := by
    intro other
    rw [settle_get?]
    by_cases hother : other = waiting.promise
    · rw [if_pos hother, if_pos hother, hother]
      change (run.settled.get? waiting.promise).or _ = _
      rw [hunsettled]
      rfl
    · rw [if_neg hother, if_neg hother, Option.or_none]
  rcases settle_state { run with pending := run.pending.erase waiting.command.id }
    waiting.promise outcome with ⟨hstate, hpending, -, hsent, -⟩
  have hnew : ∀ other found, outcome.received = found.received → outcome.received.isSome = true →
      run.settled.get? other ≠ some found := by
    intro other found hreceived hsome hfound
    rcases Option.isSome_iff_exists.mp hsome with ⟨number, hnumber'⟩
    have hlt := h.earlier other found number hfound (hreceived.symm.trans hnumber')
    have heq := (hnumber number hnumber').1
    omega
  constructor
  · intro id found hfound
    dsimp only at hfound ⊢
    rw [hpending] at hfound
    change (run.pending.erase waiting.command.id).get? id = some found at hfound
    by_cases hid : id = waiting.command.id
    · rw [hid, Dict.get?_erase_self] at hfound
      cases hfound
    · rw [Dict.get?_erase_of_ne _ hid] at hfound
      rcases h.keyed id found hfound with ⟨hkey, hsame, hopen⟩
      rw [hsent, hget, if_neg fun hpromise => hid (h.same hfound hwaiting hpromise)]
      exact ⟨hkey, hsame, hopen⟩
  · intro promise hlt hopen
    dsimp only at hlt hopen ⊢
    rw [hsent] at hlt
    rw [hget] at hopen
    by_cases hpromise : promise = waiting.promise
    · rw [if_pos hpromise] at hopen
      cases hopen
    · rw [if_neg hpromise] at hopen
      rcases h.unsettled promise hlt hopen with ⟨id, found, hfound, hsame⟩
      have hid : id ≠ waiting.command.id := by
        rintro rfl
        rw [hwaiting] at hfound
        cases hfound
        exact hpromise hsame.symm
      refine ⟨id, found, ?_, hsame⟩
      rw [hpending]
      exact (Dict.get?_erase_of_ne _ hid).trans hfound
  · intro promise found hfound
    dsimp only at hfound ⊢
    rw [hget] at hfound
    rw [hsent]
    by_cases hpromise : promise = waiting.promise
    · rw [if_pos hpromise] at hfound
      cases hfound
      exact ⟨waiting.command, hpromise ▸ hcommand, hright⟩
    · rw [if_neg hpromise] at hfound
      exact h.right promise found hfound
  · intro promise found number hfound hreceived
    dsimp only at hfound ⊢
    rw [hget] at hfound
    by_cases hpromise : promise = waiting.promise
    · rw [if_pos hpromise] at hfound
      cases hfound
      have hlt := hnumber number hreceived
      omega
    · rw [if_neg hpromise] at hfound
      exact Nat.lt_of_lt_of_le (h.earlier promise found number hfound hreceived) hbound
  · intro first second found other hfound hother hsome hreceived
    dsimp only at hfound hother
    rw [hget] at hfound hother
    by_cases hfirst : first = waiting.promise
    · rw [if_pos hfirst] at hfound
      cases hfound
      by_cases hsecond : second = waiting.promise
      · exact hfirst.trans hsecond.symm
      · rw [if_neg hsecond] at hother
        exact absurd hother (hnew second other hreceived hsome)
    · rw [if_neg hfirst] at hfound
      by_cases hsecond : second = waiting.promise
      · rw [if_pos hsecond] at hother
        cases hother
        exact absurd hfound (hnew first found hreceived.symm (hreceived ▸ hsome))
      · rw [if_neg hsecond] at hother
        exact h.once first second found other hfound hother hsome hreceived
  · intro hclosed id
    dsimp only at hclosed
    rw [hstate] at hclosed
    have hnone := h.closed hclosed waiting.command.id
    rw [hwaiting] at hnone
    cases hnone

theorem with_received {received : Nat} (h : run.received = received) :
    { run with received } = run := by
  subst h
  rfl

theorem Tracks.fail_waiting (h : run.Tracks) {id : String} {waiting : PendingCommand}
    (hwaiting : run.pending.get? id = some waiting) (reason : String) :
    (run.fail waiting.promise reason).Tracks := by
  rcases h.keyed id waiting hwaiting with ⟨rfl, hcommand, -⟩
  have hright : CommandOutcome.Right waiting.command (.unknown reason) := trivial
  have hnumber : ∀ number, (CommandOutcome.unknown reason).received = some number →
      number = run.received ∧ run.received < run.received := fun _ hfalse => nomatch hfalse
  have hsettles := h.settles hwaiting hright (Nat.le_refl _) hnumber
  unfold CommandRun.fail
  rw [hcommand]
  rw [with_received (settle_state { run with pending := run.pending.erase waiting.command.id }
    waiting.promise (.unknown reason)).2.2.2.2] at hsettles
  exact hsettles

theorem Tracks.fail (h : run.Tracks) (hcorrelated : ∀ command waiting,
      run.sent[promise]? = some command → run.pending.get? command.id = some waiting →
      waiting.promise = promise) (reason : String) : (run.fail promise reason).Tracks := by
  cases hcommand : run.sent[promise]? with
  | none =>
    unfold CommandRun.fail
    rw [hcommand]
    exact h
  | some command =>
    cases hwaiting : run.pending.get? command.id with
    | some waiting =>
      have hpromise := hcorrelated command waiting hcommand hwaiting
      subst hpromise
      exact h.fail_waiting hwaiting reason
    | none =>
      -- the promise was settled while the transport was sending
      have hsettled : (run.settled.get? promise).isSome = true := by
        by_contra hopen
        rw [Option.not_isSome_iff_eq_none] at hopen
        have hlt := (List.getElem?_eq_some_iff.mp hcommand).1
        rcases h.unsettled promise hlt hopen with ⟨id, waiting, hfound, rfl⟩
        rcases h.keyed id waiting hfound with ⟨rfl, hsame, -⟩
        rw [hcommand] at hsame
        cases hsame
        rw [hwaiting] at hfound
        cases hfound
      unfold CommandRun.fail
      rw [hcommand]
      dsimp only
      rw [Dict.erase_of_none hwaiting]
      unfold settle
      rw [if_pos hsettled]
      exact h

theorem foldl_state (waiting : List PendingCommand) (run : CommandRun) (outcome : CommandOutcome) :
    let after := waiting.foldl (fun run waiting => run.settle waiting.promise outcome) run
    after.state = run.state ∧ after.pending = run.pending ∧ after.sending = run.sending ∧
      after.sent = run.sent ∧ after.received = run.received := by
  induction waiting generalizing run with
  | nil => exact ⟨rfl, rfl, rfl, rfl, rfl⟩
  | cons first rest ih =>
    rcases ih (run.settle first.promise outcome) with ⟨hstate, hpending, hsending, hsent, hreceived⟩
    rcases settle_state run first.promise outcome with
      ⟨hstate', hpending', hsending', hsent', hreceived'⟩
    exact ⟨hstate.trans hstate', hpending.trans hpending', hsending.trans hsending',
      hsent.trans hsent', hreceived.trans hreceived'⟩

theorem foldl_settled (waiting : List PendingCommand) (run : CommandRun)
    (outcome : CommandOutcome) (promise : Nat) :
    (waiting.foldl (fun run waiting => run.settle waiting.promise outcome) run).settled.get?
        promise =
      (run.settled.get? promise).or
        (if waiting.any fun entry => entry.promise == promise then some outcome else none) := by
  induction waiting generalizing run with
  | nil =>
    change run.settled.get? promise = _
    rw [List.any_nil, if_neg Bool.false_ne_true, Option.or_none]
  | cons first rest ih =>
    rw [List.foldl_cons, ih, settle_get?, List.any_cons, Option.or_assoc]
    by_cases hfirst : promise = first.promise
    · have hany : (first.promise == promise || rest.any fun entry => entry.promise == promise) =
          true := by
        rw [hfirst, beq_self_eq_true, Bool.true_or]
      rw [if_pos hany, if_pos hfirst, Option.some_or]
    · have hother : (first.promise == promise) = false := beq_false_of_ne fun heq => hfirst heq.symm
      rw [if_neg hfirst, hother, Bool.false_or, Option.none_or]

theorem Tracks.disconnect (h : run.Tracks) : run.disconnect.Tracks := by
  have hstate := foldl_state run.pending.values { run with state := .closed, pending := Dict.empty }
    (.unknown "Runner disconnected.")
  dsimp only at hstate
  rcases hstate with ⟨hclosed, hpending, -, hsent, hreceived⟩
  have hget : ∀ promise, run.disconnect.settled.get? promise =
      (run.settled.get? promise).or (if run.pending.values.any fun entry =>
        entry.promise == promise then some (.unknown "Runner disconnected.") else none) :=
    fun promise => foldl_settled _ _ _ promise
  have hempty : ∀ id, run.disconnect.pending.get? id = none := by
    intro id
    have hpend : run.disconnect.pending = Dict.empty := hpending
    rw [hpend]
    rfl
  have hsame : run.disconnect.sent = run.sent := hsent
  have hnumber : run.disconnect.received = run.received := hreceived
  -- what a message settled was settled before
  have hbefore : ∀ {promise : Nat} {outcome : CommandOutcome},
      run.disconnect.settled.get? promise = some outcome → outcome.received.isSome = true →
      run.settled.get? promise = some outcome := by
    intro promise outcome hsettled hsome
    rw [hget, Option.or_eq_some_iff] at hsettled
    rcases hsettled with hsettled | ⟨-, hsettled⟩
    · exact hsettled
    · split at hsettled
      · cases hsettled
        cases hsome
      · cases hsettled
  constructor
  · intro id waiting hwaiting
    rw [hempty] at hwaiting
    cases hwaiting
  · intro promise hlt hopen
    rw [hsame] at hlt
    rw [hget, Option.or_eq_none_iff] at hopen
    rcases h.unsettled promise hlt hopen.1 with ⟨id, waiting, hwaiting, hpromise⟩
    have hany : (run.pending.values.any fun entry => entry.promise == promise) = true :=
      List.any_eq_true.mpr ⟨waiting, Dict.mem_values_of_get? hwaiting, beq_iff_eq.mpr hpromise⟩
    rw [if_pos hany] at hopen
    cases hopen.2
  · intro promise outcome hsettled
    rw [hsame]
    rw [hget, Option.or_eq_some_iff] at hsettled
    rcases hsettled with hsettled | ⟨-, hsettled⟩
    · exact h.right promise outcome hsettled
    · split at hsettled
      · rename_i hany
        cases hsettled
        rcases List.any_eq_true.mp hany with ⟨waiting, hmember, hpromise⟩
        rcases List.mem_map.mp hmember with ⟨⟨id, found⟩, hentry, rfl⟩
        rcases h.keyed id found (Dict.get?_eq_some_iff.mpr hentry) with ⟨-, hcommand, -⟩
        exact ⟨found.command, beq_iff_eq.mp hpromise ▸ hcommand, trivial⟩
      · cases hsettled
  · intro promise outcome received hsettled hreceived'
    rw [hnumber]
    exact h.earlier promise outcome received
      (hbefore hsettled (Option.isSome_of_eq_some hreceived')) hreceived'
  · intro first second outcome other hfirst hsecond hsome hreceived'
    exact h.once first second outcome other (hbefore hfirst hsome)
      (hbefore hsecond (hreceived' ▸ hsome)) hsome hreceived'
  · exact fun _ id => hempty id

/-! ## Received messages -/

variable {message : RunnerReply} {waiting : PendingCommand}

theorem Tracks.found (h : run.Tracks) {id : String} {accepted : PendingCommand → Bool}
    (hfound : (run.pending.get? id).filter accepted = some waiting) :
    run.pending.get? waiting.command.id = some waiting ∧ id = waiting.command.id ∧
      accepted waiting = true := by
  rw [Option.filter_eq_some_iff] at hfound
  have hid := (h.keyed id waiting hfound.1).1
  exact ⟨hid.symm ▸ hfound.1, hid.symm, hfound.2⟩

/-- How the promise of the entry that a message settles is settled. -/
def outcomeOf (run : CommandRun) (message : RunnerReply) : CommandOutcome :=
  match message with
  | .nack _ _ => .rejected run.received message
  | _ => .resolved run.received message

theorem outcomeOf_received (run : CommandRun) (message : RunnerReply) :
    (run.outcomeOf message).received = some run.received := by
  cases message <;> rfl

theorem Tracks.settledBy_right (h : run.Tracks) {hostId : String}
    (hcorrelated : run.Correlated (.receive message))
    (hrefused : ¬snapshotRefused run.pending hostId message = true)
    (hsettled : settledBy run.pending message = some waiting) :
    run.pending.get? waiting.command.id = some waiting ∧
      (run.outcomeOf message).Right waiting.command := by
  cases message with
  | hostHello host => cases hsettled
  | other => cases hsettled
  | nack commandId error =>
    have hid := (h.keyed commandId waiting hsettled).1
    subst hid
    exact ⟨hsettled, error, rfl⟩
  | ack commandId =>
    rcases h.found hsettled with ⟨hwaiting, hid, haccepted⟩
    refine ⟨hwaiting, hid, ?_⟩
    split at haccepted
    · rename_i acked hpayload
      exact ⟨acked, hpayload⟩
    · cases haccepted
  | workspacesResult requestId =>
    rcases h.found hsettled with ⟨hwaiting, hid, haccepted⟩
    refine ⟨hwaiting, hid, ?_⟩
    split at haccepted
    · assumption
    · cases haccepted
  | sessionSnapshot commandId sessionId =>
    rcases h.found hsettled with ⟨hwaiting, hid, haccepted⟩
    refine ⟨hwaiting, hid, ?_⟩
    split at haccepted
    · rename_i requested hpayload
      rw [beq_iff_eq] at haccepted
      exact haccepted ▸ hpayload
    · cases haccepted
  | conversationResult reply =>
    rcases h.found hsettled with ⟨hwaiting, hid, haccepted⟩
    refine ⟨hwaiting, hid, ?_⟩
    split at haccepted
    · rename_i sessionId operation hpayload
      simp only [Bool.and_eq_true, beq_iff_eq] at haccepted
      rcases haccepted with ⟨⟨hsession, hkind⟩, haccepts⟩
      exact ⟨operation, hsession ▸ hpayload, hkind, operation.accepts_same haccepts⟩
    · cases haccepted
  | accountsSnapshot requestId host providers =>
    rcases h.found hsettled with ⟨hwaiting, hid, haccepted⟩
    refine ⟨hwaiting, hid, ?_⟩
    split at haccepted
    · rename_i requested hpayload
      refine ⟨requested, hpayload, ?_⟩
      rintro ids rfl
      -- the selection was compared before
      have hmatches : selectionMatches (some ids) providers = true := by
        by_contra hdiffer
        apply hrefused
        unfold snapshotRefused
        dsimp only
        rw [hid, hwaiting, Option.any_some, hpayload]
        dsimp only
        rw [Bool.eq_false_iff.mpr hdiffer]
        exact Bool.or_true _
      unfold selectionMatches at hmatches
      rw [Bool.and_eq_true, beq_iff_eq, List.all_eq_true] at hmatches
      exact ⟨hmatches.1, fun id hmember => List.contains_iff_mem.mp (hmatches.2 id hmember)⟩
    · cases haccepted
  | localAction reply =>
    have hmember := List.mem_of_find?_eq_some hsettled
    have hawaits := List.find?_some hsettled
    rcases List.mem_map.mp hmember with ⟨⟨id, found⟩, hentry, rfl⟩
    have hwaiting := Dict.get?_eq_some_iff.mpr hentry
    have hid := (h.keyed id found hwaiting).1
    subst hid
    refine ⟨hwaiting, ?_⟩
    unfold PendingCommand.awaits at hawaits
    split at hawaits
    · rename_i requestId sessionId action hpayload
      rw [Bool.and_eq_true, beq_iff_eq, beq_iff_eq] at hawaits
      rcases hawaits with ⟨rfl, rfl⟩
      -- only the condition says that the sessions are the same
      have hsession := hcorrelated found.command.id found hwaiting sessionId hpayload
      change found.command.payload = .localAction reply.requestId reply.sessionId reply.action
      rw [hpayload, hsession]
    · cases hawaits

theorem Tracks.receive (h : run.Tracks) (message : RunnerReply)
    (hcorrelated : run.Correlated (.receive message)) : (run.step (.receive message)).Tracks := by
  change Tracks { run.receive message with received := run.received + 1 }
  unfold CommandRun.receive
  split
  · rename_i hstate
    exact { h.bump with closed := fun hclosed => nomatch hclosed }
  · exact h.bump
  · rename_i message _ _ hostId _ _
    split
    · exact h.bump
    · rename_i hrefused
      split
      · exact h.bump
      · rename_i waiting hsettled
        rcases h.settledBy_right hcorrelated hrefused hsettled with ⟨hwaiting, hright⟩
        have hnumber : ∀ number, (run.outcomeOf message).received = some number →
            number = run.received ∧ run.received < run.received + 1 := by
          intro number hreceived
          rw [outcomeOf_received] at hreceived
          cases hreceived
          exact ⟨rfl, Nat.lt_succ_self _⟩
        exact h.settles hwaiting hright (Nat.le_succ _) hnumber
  · exact h.bump

/-! ## Sent commands -/

theorem Tracks.not_closed (h : run.Tracks) {state : PeerState} (hstate : state ≠ .closed) :
    Tracks { run with state } :=
  { h with closed := fun hclosed => absurd hclosed hstate }

theorem Tracks.waitsFor (h : run.Tracks) {command : AppCommand} {sending : List Nat}
    (hfree : run.pending.get? command.id = none) (hopen : run.state ≠ .closed) :
    Tracks { run with
      pending := run.pending.set command.id ⟨command, run.sent.length⟩
      sending
      sent := run.sent ++ [command] } := by
  have hold : ∀ {promise : Nat} {found : AppCommand}, run.sent[promise]? = some found →
      (run.sent ++ [command])[promise]? = some found := by
    intro promise found hfound
    rw [List.getElem?_append_left (List.getElem?_eq_some_iff.mp hfound).1]
    exact hfound
  have hnew : run.settled.get? run.sent.length = none := by
    cases hsettled : run.settled.get? run.sent.length with
    | none => rfl
    | some outcome => exact absurd (h.lt_length hsettled) (Nat.lt_irrefl _)
  constructor
  · intro id waiting hwaiting
    dsimp only at hwaiting ⊢
    rw [Dict.get?_set] at hwaiting
    split at hwaiting
    · rename_i hid
      cases hwaiting
      exact ⟨hid.symm, List.getElem?_concat_length, hnew⟩
    · rcases h.keyed id waiting hwaiting with ⟨hid, hcommand, hunsettled⟩
      exact ⟨hid, hold hcommand, hunsettled⟩
  · intro promise hlt hunsettled
    dsimp only at hlt hunsettled ⊢
    rw [List.length_append, List.length_singleton, Nat.lt_succ_iff_lt_or_eq] at hlt
    rcases hlt with hlt | rfl
    · rcases h.unsettled promise hlt hunsettled with ⟨id, waiting, hwaiting, hpromise⟩
      have hid : id ≠ command.id := by
        rintro rfl
        rw [hfree] at hwaiting
        cases hwaiting
      exact ⟨id, waiting, (Dict.get?_set_of_ne _ _ hid).trans hwaiting, hpromise⟩
    · exact ⟨command.id, ⟨command, run.sent.length⟩, Dict.get?_set_self _ _ _, rfl⟩
  · intro promise outcome hsettled
    rcases h.right promise outcome hsettled with ⟨found, hfound, hright⟩
    exact ⟨found, hold hfound, hright⟩
  · exact h.earlier
  · exact h.once
  · exact fun hclosed => absurd hclosed hopen

theorem Tracks.send (h : run.Tracks) (command : AppCommand) : (run.send command).Tracks := by
  unfold CommandRun.send
  split
  · rename_i hostId hstate
    split
    · exact h
    · rename_i hrefused
      rw [not_or, not_or, Option.not_isSome_iff_eq_none] at hrefused
      have hopen : run.state ≠ .closed := by
        rw [hstate]
        exact fun hclosed => by cases hclosed
      exact h.waitsFor hrefused.2.1 hopen
  · exact h

theorem Tracks.expire (h : run.Tracks) (promise : Nat) (reason : String) :
    (if run.waits promise = true then run.fail promise reason else run).Tracks := by
  split
  · rename_i hwaits
    rcases List.any_eq_true.mp hwaits with ⟨waiting, hmember, hpromise⟩
    rcases List.mem_map.mp hmember with ⟨⟨id, found⟩, hentry, rfl⟩
    rw [beq_iff_eq] at hpromise
    exact hpromise ▸ h.fail_waiting (Dict.get?_eq_some_iff.mpr hentry) reason
  · exact h

theorem Tracks.step (h : run.Tracks) (action : CommandAction)
    (hcorrelated : run.Correlated action) : (run.step action).Tracks := by
  cases action with
  | receive message => exact h.receive message hcorrelated
  | accept fails =>
    unfold CommandRun.step
    dsimp only
    split
    · rename_i hostId _
      have haccepted : Tracks { run with state := .accepted hostId } :=
        h.not_closed fun hclosed => nomatch hclosed
      split
      · exact haccepted.disconnect
      · exact haccepted
    · exact h
  | send command => exact h.send command
  | transportEnds throws =>
    unfold CommandRun.step
    dsimp only
    split
    · exact h
    · rename_i promise sending hsending
      have hended : Tracks { run with sending } := { h with }
      split
      · rename_i hthrows
        subst hthrows
        exact hended.fail
          (fun command waiting hcommand hwaiting =>
            hcorrelated promise sending command waiting hsending hcommand hwaiting) _
      · exact hended
  | timeout promise => exact h.expire promise _
  | abort promise => exact h.expire promise _
  | disconnect => exact h.disconnect

theorem Tracks.kept (h : run.Tracks) : run.Kept where
  right := h.right
  once := h.once
  final := fun action promise outcome hsettled => Grows.step run action promise outcome hsettled
  closed := by
    intro hclosed promise hlt
    by_contra hopen
    rw [Option.not_isSome_iff_eq_none] at hopen
    rcases h.unsettled promise hlt hopen with ⟨id, waiting, hwaiting, -⟩
    rw [h.closed hclosed id] at hwaiting
    cases hwaiting

/-! ## Runs -/

theorem commands_settled (actions : List CommandAction)
    (h : Meets CommandRun.step Correlated initial actions) :
    Always CommandRun.step Kept initial actions :=
  (always_of_meets (fun _ action htracks hcorrelated => htracks.step action hcorrelated)
    Tracks.initial h).mono fun _ htracks => htracks.kept

/-- A local action of the session `s1` and the start of a run that sends it. -/
def localActionCommand : AppCommand := ⟨"c1", .localAction "r1" "s1" "shell.run"⟩

def localActionSent : List CommandAction :=
  [.receive (.hostHello "h1"), .accept false, .send localActionCommand, .transportEnds false]

def localActionAnswer (sessionId : String) : CommandAction :=
  .receive (.localAction ⟨"r1", sessionId, "shell.run", false⟩)

theorem commands_settled_once :
    Always CommandRun.step Kept initial
      (localActionSent ++ [localActionAnswer "s1", localActionAnswer "s1", .timeout 0]) := by
  apply commands_settled
  refine ⟨trivial, trivial, trivial, trivial, ?_, ?_, trivial, trivial⟩
  · intro id waiting hwaiting sessionId hpayload
    have hmember := Dict.mem_values_of_get? hwaiting
    have hvalues : (run CommandRun.step initial localActionSent).pending.values =
        [⟨localActionCommand, 0⟩] := by decide
    have hmember' : waiting ∈ [(⟨localActionCommand, 0⟩ : PendingCommand)] := hvalues ▸ hmember
    rw [List.mem_singleton] at hmember'
    subst hmember'
    cases hpayload
    rfl
  · intro id waiting hwaiting
    have hmember := Dict.mem_values_of_get? hwaiting
    have hvalues : (run CommandRun.step initial
        (localActionSent ++ [localActionAnswer "s1"])).pending.values = [] := by decide
    have hmember' : waiting ∈ ([] : List PendingCommand) := hvalues ▸ hmember
    cases hmember'

/-- A reply of the session `s2` settles the promise of the session `s1`. -/
theorem reply_of_other_session :
    ¬Always CommandRun.step Kept initial (localActionSent ++ [localActionAnswer "s2"]) := by
  intro h
  have hlast := h.last
  have hsettled : (run CommandRun.step initial
      (localActionSent ++ [localActionAnswer "s2"])).settled.get? 0 =
      some (.resolved 1 (.localAction ⟨"r1", "s2", "shell.run", false⟩)) := by decide
  rcases hlast.right 0 _ hsettled with ⟨command, hcommand, hanswers⟩
  have hsent : (run CommandRun.step initial
      (localActionSent ++ [localActionAnswer "s2"])).sent[0]? = some localActionCommand := by decide
  rw [hsent] at hcommand
  cases hcommand
  have hpayload : localActionCommand.payload = .localAction "r1" "s2" "shell.run" := hanswers
  exact absurd hpayload (by decide)

end CommandRun

end HarnessControl.Sdk
