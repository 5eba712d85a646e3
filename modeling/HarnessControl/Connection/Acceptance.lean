import HarnessControl.State.CommandReceipts
import HarnessControl.Connection.Commands

/-!
# Accepted commands

Once the ack of a command is stored, its record, its receipt and its completion have to stay that
ack, and its handler has run for the last time.  Two steps break this: a handler that finishes
while the socket is closed, since the ack is sent inside the block whose failure records a nack,
and a malformed message under the id of an accepted command, since its nack replaces the record.
-/

namespace HarnessControl.Connection

open HarnessControl.Library HarnessControl.Protocol HarnessControl.State

/-! ## What an accepted command is owed -/

def AcceptedCommand.record (command : AcceptedCommand) : SettledCommandRecord :=
  .ack command.payloadHash command.snapshotPayload command.conversationPayload

def AcceptedCommand.receipt (command : AcceptedCommand) : CommandReceipt :=
  command.record.receipt command.settledAt

/-- The receipt has not expired. -/
def AcceptedCommand.fresh (command : AcceptedCommand) (options : StoreOptions) (now : Int) : Prop :=
  options.cutoff now ≤ command.settledAt

instance (command : AcceptedCommand) (options : StoreOptions) (now : Int) :
    Decidable (command.fresh options now) :=
  inferInstanceAs (Decidable (_ ≤ _))

def AcceptedCommand.quiet (command : AcceptedCommand) (reply : Reply) : Prop :=
  reply.commandId = command.commandId → reply.payloadHash = some command.payloadHash →
    reply.message.isNack = false

/-- The ack of a repetition, with the payloads of the first. -/
def AcceptedCommand.repeated (command : AcceptedCommand) (payloadHash : String) (now : Int) :
    List Reply :=
  [⟨command.commandId, some payloadHash, .ack ⟨command.commandId, now, true⟩⟩] ++
    (command.snapshotPayload.map fun snapshot =>
      ⟨command.commandId, some payloadHash, .sessionSnapshot snapshot⟩).toList ++
    (command.conversationPayload.map fun conversation =>
      ⟨command.commandId, some payloadHash, .conversationResult conversation⟩).toList

theorem AcceptedCommand.answer_record (command : AcceptedCommand) (payloadHash : String)
    (now : Int) :
    answer command.commandId payloadHash now true command.record =
      command.repeated payloadHash now := by
  unfold AcceptedCommand.record answer AcceptedCommand.repeated
  cases command.snapshotPayload <;> cases command.conversationPayload <;> rfl

/-- Record, receipt and completion are the ack, and no nack was sent since it was stored. -/
structure CommandState.Holds (state : CommandState) (command : AcceptedCommand) : Prop where
  record : state.records.get? command.commandId = some (.settled command.record)
  receipt : state.store.data.commandReceipts.get? command.commandId = some command.receipt
  file : ∃ data ∈ state.store.disk,
    data.commandReceipts.get? command.commandId = some command.receipt
  completion : state.completions.get? command.commandId = some command.record
  silence : ∀ reply ∈ state.replies.drop command.sentBefore, command.quiet reply

/-- Also, every delivery of the payload is answered by the ack, and the handler has run once. -/
structure CommandState.Keeps (runtime : Runtime) (state : CommandState)
    (command : AcceptedCommand) : Prop extends state.Holds command where
  answered : ∀ envelope written, commandIdFor envelope = command.commandId →
    hashCommandPayload runtime.host envelope = command.payloadHash →
    (state.deliver runtime envelope written).handled = state.handled ∧
    (state.deliver runtime envelope written).replies = state.replies ++
      -- a read of the receipts that cannot write the file throws instead
      if state.connected ∧
          (state.store.pruneReceipts runtime.options ⟨state.clock, written⟩).failure = none then
        command.repeated command.payloadHash state.clock
      else []
  resumed : ∀ index delivery, state.waiting[index]? = some delivery →
    delivery.commandId = command.commandId →
    (state.step runtime (.resume index)).replies = state.replies ++
      if state.connected then command.repeated delivery.payloadHash state.clock else []
  once : state.handled.count command.commandId = 1

/-- The step neither loses the ack that it has just stored nor replaces an accepted record. -/
def CommandState.undisturbed (runtime : Runtime) (state : CommandState) : CommandAction → Prop
  | .finish index (.returned _) none _ =>
    state.running[index]?.isSome → state.connected = true
  | .malformed (some envelope) _ _ =>
    ∀ command ∈ state.accepted, command.fresh runtime.options state.clock →
      command.commandId ≠ envelope.id
  | _ => True

/-! ## The order of events in the life of a command -/

/-- A handler runs once for each id, and an id is accepted after its handler has finished. -/
structure CommandState.Ledger (state : CommandState) : Prop where
  handled_nodup : state.handled.Nodup
  running_nodup : (state.running.map Delivery.commandId).Nodup
  running_handled : ∀ delivery ∈ state.running, delivery.commandId ∈ state.handled
  running_unresolved : ∀ delivery ∈ state.running,
    state.completions.get? delivery.commandId = none
  completed_handled : ∀ commandId record,
    state.completions.get? commandId = some record → commandId ∈ state.handled
  handled_recorded : ∀ commandId ∈ state.handled, state.records.get? commandId ≠ none
  accepted_handled : ∀ command ∈ state.accepted, command.commandId ∈ state.handled
  accepted_finished : ∀ command ∈ state.accepted, ∀ delivery ∈ state.running,
    delivery.commandId ≠ command.commandId

variable {runtime : Runtime} {state : CommandState}

theorem CommandState.Ledger.start (store : RunnerStore) (clock : Int) :
    (CommandState.start store clock).Ledger where
  handled_nodup := List.nodup_nil
  running_nodup := List.nodup_nil
  running_handled := fun _ h => nomatch h
  running_unresolved := fun _ h => nomatch h
  completed_handled := fun _ _ h => nomatch h
  handled_recorded := fun _ h => nomatch h
  accepted_handled := fun _ h => nomatch h
  accepted_finished := fun _ h => nomatch h

theorem CommandState.Ledger.send (h : state.Ledger) (replies : List Reply) :
    (state.send replies).Ledger := by
  unfold CommandState.send
  split
  · exact { h with }
  · exact h

theorem CommandState.Ledger.storeRecord (h : state.Ledger) (options : StoreOptions)
    (written : Bool) (commandId : String) (record : SettledCommandRecord) :
    (state.storeRecord options written commandId record).state.Ledger := by
  refine { h with handled_recorded := ?_ }
  intro other hother
  change (state.records.set commandId _).get? other ≠ none
  rw [Dict.get?_set]
  split
  · exact Option.some_ne_none _
  · exact h.handled_recorded other hother

theorem CommandState.Ledger.settle (h : state.Ledger) {commandId : String}
    (record : SettledCommandRecord) (hhandled : commandId ∈ state.handled)
    (hfinished : ∀ delivery ∈ state.running, delivery.commandId ≠ commandId) :
    (state.settle commandId record).Ledger := by
  unfold CommandState.settle
  split
  · exact h
  · refine { h with running_unresolved := ?_, completed_handled := ?_ }
    · intro delivery hdelivery
      change (state.completions.set commandId record).get? delivery.commandId = none
      rw [Dict.get?_set_of_ne _ _ (hfinished delivery hdelivery)]
      exact h.running_unresolved delivery hdelivery
    · intro other found hfound
      change (state.completions.set commandId record).get? other = some found at hfound
      rw [Dict.get?_set] at hfound
      by_cases hother : other = commandId
      · rw [hother]
        exact hhandled
      · rw [if_neg hother] at hfound
        exact h.completed_handled other found hfound

theorem CommandState.Ledger.handle (h : state.Ledger) (delivery : Delivery)
    (hnew : state.records.get? delivery.commandId = none) :
    CommandState.Ledger { state with
      records := state.records.set delivery.commandId (.pending delivery.payloadHash)
      running := state.running ++ [delivery]
      handled := state.handled ++ [delivery.commandId] } := by
  have hfresh : delivery.commandId ∉ state.handled := fun hmem =>
    h.handled_recorded delivery.commandId hmem hnew
  have hother : ∀ other ∈ state.running, other.commandId ≠ delivery.commandId :=
    fun other hmem heq => hfresh (heq ▸ h.running_handled other hmem)
  have hnone : state.completions.get? delivery.commandId = none := by
    cases hget : state.completions.get? delivery.commandId with
    | none => rfl
    | some record => exact absurd (h.completed_handled _ _ hget) hfresh
  constructor
  · exact h.handled_nodup.append (List.nodup_singleton _) (by simpa using hfresh)
  · rw [List.map_append]
    apply h.running_nodup.append (List.nodup_singleton _)
    simpa using hother
  · intro other hmem
    rcases List.mem_append.mp hmem with hold | hone
    · exact List.mem_append_left _ (h.running_handled other hold)
    · rw [List.mem_singleton.mp hone]
      exact List.mem_append_right _ (List.mem_singleton_self _)
  · intro other hmem
    rcases List.mem_append.mp hmem with hold | hone
    · exact h.running_unresolved other hold
    · rw [List.mem_singleton.mp hone]
      exact hnone
  · exact fun commandId record hget => List.mem_append_left _ (h.completed_handled _ _ hget)
  · intro commandId hmem
    change (state.records.set _ _).get? commandId ≠ none
    rw [Dict.get?_set]
    split
    · exact Option.some_ne_none _
    · rename_i hne
      rcases List.mem_append.mp hmem with hold | hone
      · exact h.handled_recorded commandId hold
      · exact absurd (List.mem_singleton.mp hone) hne
  · exact fun command hmem => List.mem_append_left _ (h.accepted_handled command hmem)
  · intro command hmem other hrunning
    rcases List.mem_append.mp hrunning with hold | hone
    · exact h.accepted_finished command hmem other hold
    · rw [List.mem_singleton.mp hone]
      exact fun heq => hfresh (heq ▸ h.accepted_handled command hmem)

theorem CommandState.Ledger.others (h : state.Ledger) {index : Nat} {delivery : Delivery}
    (hindex : state.running[index]? = some delivery) :
    ∀ other ∈ state.running.eraseIdx index, other.commandId ≠ delivery.commandId :=
  fun _ hmem => ne_of_mem_eraseIdx h.running_nodup hindex hmem

theorem CommandState.Ledger.erase (h : state.Ledger) (index : Nat) :
    CommandState.Ledger { state with running := state.running.eraseIdx index } := by
  have hsub := List.eraseIdx_sublist state.running index
  exact { h with
    running_nodup := h.running_nodup.sublist (hsub.map _)
    running_handled := fun delivery hmem => h.running_handled delivery (hsub.subset hmem)
    running_unresolved := fun delivery hmem => h.running_unresolved delivery (hsub.subset hmem)
    accepted_finished := fun command hcommand delivery hmem =>
      h.accepted_finished command hcommand delivery (hsub.subset hmem) }

theorem CommandState.Ledger.accept (h : state.Ledger) {delivery : Delivery}
    (result : CommandExecutionResult) (hhandled : delivery.commandId ∈ state.handled)
    (hfinished : ∀ other ∈ state.running, other.commandId ≠ delivery.commandId) :
    (state.accept delivery result).Ledger := by
  refine { h with accepted_handled := ?_, accepted_finished := ?_ }
  · intro other hmem
    rcases List.mem_append.mp hmem with hold | hone
    · exact h.accepted_handled other hold
    · rw [List.mem_singleton.mp hone]
      exact hhandled
  · intro other hmem
    rcases List.mem_append.mp hmem with hold | hone
    · exact h.accepted_finished other hold
    · rw [List.mem_singleton.mp hone]
      exact hfinished

/-! ## What the parts of a step leave alone -/

theorem CommandState.send_only (state : CommandState) (replies : List Reply) :
    state.send replies = { state with
      replies := state.replies ++ if state.connected then replies else [] } := by
  unfold CommandState.send
  split
  · rfl
  · rw [List.append_nil]

theorem CommandState.settle_only (state : CommandState) (commandId : String)
    (record : SettledCommandRecord) :
    ∃ completions, state.settle commandId record = { state with completions } := by
  unfold CommandState.settle
  split
  · exact ⟨state.completions, rfl⟩
  · exact ⟨_, rfl⟩

theorem CommandState.reject_only (runtime : Runtime) (state : CommandState) (delivery : Delivery)
    (error : HandlerError) (written : Bool) :
    ∃ store completions replies, state.reject runtime delivery error written = { state with
      records := state.records.set delivery.commandId (.settled (.nack delivery.payloadHash
        (createNackPayload delivery.commandId state.clock (toHcpError error))))
      store, completions, replies } := by
  unfold CommandState.reject
  dsimp only
  split
  · exact ⟨_, state.completions, state.replies, rfl⟩
  · rw [CommandState.send_only]
    rcases CommandState.settle_only (state.storeRecord runtime.options written delivery.commandId
      _).state delivery.commandId _ with ⟨completions, heq⟩
    rw [heq]
    exact ⟨_, completions, _, rfl⟩

/-! ## Keeping an accepted command -/

variable {command : AcceptedCommand}

theorem CommandState.Holds.store (h : state.Holds command) {after : RunnerStore}
    {except : Option String} {options : StoreOptions}
    (hframe : ReceiptFrame options state.clock except state.store after)
    (hexcept : except ≠ some command.commandId) (hfresh : command.fresh options state.clock) :
    CommandState.Holds { state with store := after } command := by
  have hmemory := hframe.memory command.commandId command.receipt hexcept h.receipt hfresh
  refine { h with receipt := hmemory, file := ?_ }
  rcases hframe.file with hsame | hwritten
  · change ∃ data ∈ after.disk, _
    rw [hsame]
    exact h.file
  · exact ⟨after.data, hwritten, hmemory⟩

theorem CommandState.Holds.recordOther (h : state.Holds command) {commandId : String}
    (hne : commandId ≠ command.commandId) (record : CommandRecord) :
    CommandState.Holds { state with records := state.records.set commandId record } command :=
  { h with record := (Dict.get?_set_of_ne _ _ hne.symm).trans h.record }

theorem CommandState.Holds.settle (h : state.Holds command) (commandId : String)
    (record : SettledCommandRecord) : (state.settle commandId record).Holds command := by
  unfold CommandState.settle
  split
  · exact h
  · rename_i hnone
    have hne : command.commandId ≠ commandId := by
      intro heq
      have hsome := h.completion
      rw [heq, hnone] at hsome
      cases hsome
    exact { h with completion := (Dict.get?_set_of_ne _ _ hne).trans h.completion }

theorem CommandState.Holds.send (h : state.Holds command) {replies : List Reply}
    (hquiet : ∀ reply ∈ replies, command.quiet reply) : (state.send replies).Holds command := by
  unfold CommandState.send
  split
  · refine { h with silence := ?_ }
    intro reply hreply
    change reply ∈ (state.replies ++ replies).drop command.sentBefore at hreply
    rw [List.drop_append] at hreply
    rcases List.mem_append.mp hreply with hold | hnew
    · exact h.silence reply hold
    · exact hquiet reply (List.mem_of_mem_drop hnew)
  · exact h

theorem CommandState.Holds.accept (h : state.Holds command) (delivery : Delivery)
    (result : CommandExecutionResult) : (state.accept delivery result).Holds command :=
  { h with }

theorem answer_commandId {commandId payloadHash : String} {now : Int} {duplicate : Bool}
    {record : SettledCommandRecord} {reply : Reply}
    (h : reply ∈ answer commandId payloadHash now duplicate record) :
    reply.commandId = commandId := by
  cases record with
  | ack hash snapshot conversation =>
    unfold answer at h
    rcases List.mem_map.mp h with ⟨message, -, rfl⟩
    rfl
  | nack hash nackPayload => rw [List.mem_singleton.mp h]

theorem answer_ack {commandId payloadHash hash : String} {now : Int} {duplicate : Bool}
    {snapshot : Option SessionSnapshot} {conversation : Option ConversationResult} {reply : Reply}
    (h : reply ∈ answer commandId payloadHash now duplicate (.ack hash snapshot conversation)) :
    reply.message.isNack = false := by
  unfold answer at h
  rcases List.mem_map.mp h with ⟨message, hmessage, rfl⟩
  change message.isNack = false
  simp only [List.mem_append, List.mem_singleton, Option.mem_toList, Option.map_eq_some_iff]
    at hmessage
  rcases hmessage with (rfl | ⟨payload, -, rfl⟩) | ⟨payload, -, rfl⟩ <;> rfl

theorem quiet_of_other {commandId payloadHash : String} {now : Int} {duplicate : Bool}
    {record : SettledCommandRecord} (hne : commandId ≠ command.commandId) :
    ∀ reply ∈ answer commandId payloadHash now duplicate record, command.quiet reply :=
  fun _ hreply hid _ => absurd ((answer_commandId hreply).symm.trans hid) hne

/-! ## Single steps -/

theorem CommandState.Holds.storeRecord (h : state.Holds command) {commandId : String}
    (hne : commandId ≠ command.commandId) (hfresh : command.fresh runtime.options state.clock)
    (written : Bool) (record : SettledCommandRecord) :
    (state.storeRecord runtime.options written commandId record).state.Holds command := by
  have hframe : ReceiptFrame runtime.options state.clock (some commandId) state.store
      (state.storeRecord runtime.options written commandId record).state.store :=
    RunnerStore.setCommandReceipt_receipts ⟨state.clock, written⟩ commandId _
  exact (h.recordOther hne (.settled record)).store hframe
    (fun heq => hne (Option.some.inj heq)) hfresh

theorem CommandState.Holds.reject (h : state.Holds command) {delivery : Delivery}
    (hne : delivery.commandId ≠ command.commandId)
    (hfresh : command.fresh runtime.options state.clock) (error : HandlerError) (written : Bool) :
    (state.reject runtime delivery error written).Holds command := by
  have hstored := h.storeRecord hne hfresh written (.nack delivery.payloadHash
    (createNackPayload delivery.commandId state.clock (toHcpError error)))
  unfold CommandState.reject
  dsimp only
  split
  · exact hstored
  · exact (hstored.settle _ _).send (quiet_of_other hne)

theorem CommandState.Ledger.reject (h : state.Ledger) {delivery : Delivery}
    (hhandled : delivery.commandId ∈ state.handled)
    (hfinished : ∀ other ∈ state.running, other.commandId ≠ delivery.commandId)
    (error : HandlerError) (written : Bool) :
    (state.reject runtime delivery error written).Ledger := by
  unfold CommandState.reject
  dsimp only
  split
  · exact h.storeRecord _ _ _ _
  · apply CommandState.Ledger.send
    exact (h.storeRecord _ _ _ _).settle _ hhandled hfinished

theorem CommandState.Ledger.deliver (h : state.Ledger) (envelope : Envelope) (written : Bool) :
    (state.deliver runtime envelope written).Ledger := by
  have hread : CommandState.Ledger { state with
      store := (state.store.pruneReceipts runtime.options ⟨state.clock, written⟩).state } :=
    { h with }
  unfold CommandState.deliver
  dsimp only
  split
  · exact hread
  · split
    · rename_i hnone
      exact hread.handle ⟨commandIdFor envelope, hashCommandPayload runtime.host envelope⟩
        (Option.or_eq_none_iff.mp hnone).1
    · split
      · split
        · exact { hread with }
        · exact hread.send _
      · exact hread.send _

theorem CommandState.Ledger.finish (h : state.Ledger) {delivery : Delivery}
    (hhandled : delivery.commandId ∈ state.handled)
    (hfinished : ∀ other ∈ state.running, other.commandId ≠ delivery.commandId)
    (outcome : HandlerOutcome) (ackFailure : Option HandlerError) (nackWritten : Bool) :
    (state.finish runtime delivery outcome ackFailure nackWritten).Ledger := by
  unfold CommandState.finish
  cases outcome with
  | threw error => exact h.reject hhandled hfinished error nackWritten
  | returned result =>
    dsimp only
    generalize SettledCommandRecord.ack delivery.payloadHash result.snapshotPayload
      result.conversationPayload = record
    have hstored := h.storeRecord runtime.options ackFailure.isNone delivery.commandId record
    cases ackFailure with
    | some error => exact hstored.reject hhandled hfinished error nackWritten
    | none =>
      have hsettled := hstored.settle record hhandled hfinished
      obtain ⟨completions, heq⟩ := settle_only (state.storeRecord runtime.options
        (none : Option HandlerError).isNone delivery.commandId record).state delivery.commandId
        record
      dsimp only
      rw [heq] at hsettled ⊢
      have haccepted := hsettled.accept result hhandled hfinished
      split
      · exact haccepted.send _
      · exact haccepted.reject hhandled hfinished notConnected nackWritten

/-- No step takes the ledger out of order, also where an ack is lost. -/
theorem CommandState.Ledger.step (h : state.Ledger) (action : CommandAction) :
    (state.step runtime action).Ledger := by
  cases action with
  | deliver envelope written => exact h.deliver envelope written
  | finish index outcome ackFailure nackWritten =>
    unfold CommandState.step
    dsimp only
    cases hindex : state.running[index]? with
    | none => exact h
    | some delivery =>
      exact (h.erase index).finish
        (h.running_handled delivery (List.mem_of_getElem? hindex)) (h.others hindex) outcome
        ackFailure nackWritten
  | resume index =>
    unfold CommandState.step
    dsimp only
    split
    · exact h
    · split
      · exact h
      · have hrest : CommandState.Ledger { state with waiting := state.waiting.eraseIdx index } :=
          { h with }
        exact hrest.send _
  | malformed envelope message written =>
    unfold CommandState.step CommandState.malformed
    cases envelope with
    | none => exact h.send _
    | some envelope =>
      dsimp only
      split
      · exact h.storeRecord _ _ _ _
      · exact (h.storeRecord _ _ _ _).send _
  | socket isOpen => exact { h with }
  | elapse milliseconds => exact { h with }
  | storeCall action written => cases action <;> exact { h with }

theorem CommandState.Ledger.run (h : state.Ledger) (actions : List CommandAction) :
    (Library.run (CommandState.step runtime) state actions).Ledger :=
  (always_of_inv (fun _ action h => h.step action) h actions).last

/-- Every fresh accepted command is as it was accepted. -/
def CommandState.HoldsFresh (runtime : Runtime) (state : CommandState) : Prop :=
  ∀ command ∈ state.accepted, command.fresh runtime.options state.clock → state.Holds command

theorem CommandState.HoldsFresh.send (h : state.HoldsFresh runtime) {replies : List Reply}
    (hquiet : ∀ command ∈ state.accepted, command.fresh runtime.options state.clock →
      ∀ reply ∈ replies, command.quiet reply) : (state.send replies).HoldsFresh runtime := by
  intro command hmem hfresh
  rw [CommandState.send_only] at hmem hfresh
  exact (h command hmem hfresh).send (hquiet command hmem hfresh)

theorem CommandState.HoldsFresh.deliver (h : state.HoldsFresh runtime) (envelope : Envelope)
    (written : Bool) : (state.deliver runtime envelope written).HoldsFresh runtime := by
  have hframe : ReceiptFrame runtime.options state.clock none state.store
      (state.store.pruneReceipts runtime.options ⟨state.clock, written⟩).state :=
    RunnerStore.pruneReceipts_receipts ⟨state.clock, written⟩
  have hread : CommandState.HoldsFresh runtime { state with
      store := (state.store.pruneReceipts runtime.options ⟨state.clock, written⟩).state } :=
    fun command hmem hfresh =>
      (h command hmem hfresh).store hframe (fun heq => nomatch heq) hfresh
  unfold CommandState.deliver
  dsimp only
  split
  · exact hread
  · split
    · -- a new id: it was not accepted
      rename_i hnone
      have hnew : state.records.get? (commandIdFor envelope) = none :=
        (Option.or_eq_none_iff.mp hnone).1
      intro command hmem hfresh
      have hheld := hread command hmem hfresh
      have hne : commandIdFor envelope ≠ command.commandId := by
        intro heq
        have hsome : state.records.get? command.commandId = _ := hheld.record
        rw [← heq, hnew] at hsome
        cases hsome
      exact { hheld.recordOther hne _ with }
    · rename_i record hexisting
      -- the record of an accepted command is its ack
      have hack : ∀ command ∈ state.accepted, command.fresh runtime.options state.clock →
          commandIdFor envelope = command.commandId → record = .settled command.record := by
        intro command hmem hfresh heq
        have hsome : state.records.get? command.commandId = _ := (hread command hmem hfresh).record
        rw [heq, hsome] at hexisting
        exact (Option.some.inj hexisting).symm
      split
      · split
        · exact fun command hmem hfresh => { hread command hmem hfresh with }
        · apply hread.send
          intro command hmem hfresh reply hreply hid _
          have heq := (answer_commandId hreply).symm.trans hid
          cases hack command hmem hfresh heq
          exact answer_ack hreply
      · rename_i hdiffers
        apply hread.send
        intro command hmem hfresh reply hreply hid hhash
        cases List.mem_singleton.mp hreply
        rw [hack command hmem hfresh hid] at hdiffers
        exact absurd (Option.some.inj hhash).symm hdiffers

theorem CommandState.holds_stored {delivery : Delivery} (result : CommandExecutionResult)
    (hnone : state.completions.get? delivery.commandId = none) (options : StoreOptions) :
    let record := SettledCommandRecord.ack delivery.payloadHash result.snapshotPayload
      result.conversationPayload
    ((state.storeRecord options true delivery.commandId record).state.settle delivery.commandId
      record).Holds
      { toDelivery := delivery
        snapshotPayload := result.snapshotPayload
        conversationPayload := result.conversationPayload
        settledAt := state.clock
        sentBefore := state.replies.length } := by
  intro record
  have hkept : Dict.get? ((state.store.data.commandReceipts.set delivery.commandId
      (record.receipt state.clock)).filter fun _ receipt => decide (options.cutoff state.clock ≤
        receipt.settledAt)) delivery.commandId = some (record.receipt state.clock) := by
    rw [Dict.get?_filter, Dict.get?_set_self]
    apply Option.filter_some_pos
    apply decide_eq_true
    change options.cutoff state.clock ≤ state.clock
    have hpos := options.receipt_retention_pos
    unfold StoreOptions.cutoff
    omega
  unfold CommandState.settle
  split
  · rename_i record hsome
    change state.completions.get? delivery.commandId = some record at hsome
    rw [hnone] at hsome
    cases hsome
  · constructor
    · exact Dict.get?_set_self _ _ _
    · exact hkept
    · exact ⟨_, rfl, hkept⟩
    · exact Dict.get?_set_self _ _ _
    · intro reply hreply
      change reply ∈ state.replies.drop state.replies.length at hreply
      rw [List.drop_length] at hreply
      cases hreply

theorem CommandState.HoldsFresh.finish (h : state.HoldsFresh runtime) {delivery : Delivery}
    (hnone : state.completions.get? delivery.commandId = none)
    (hother : ∀ command ∈ state.accepted, delivery.commandId ≠ command.commandId)
    (outcome : HandlerOutcome) (ackFailure : Option HandlerError) (nackWritten : Bool)
    (hconnected : ∀ result, outcome = .returned result → ackFailure = none →
      state.connected = true) :
    (state.finish runtime delivery outcome ackFailure nackWritten).HoldsFresh runtime := by
  have hreject : ∀ {next : CommandState} (error : HandlerError), next.HoldsFresh runtime →
      next.accepted = state.accepted →
      (next.reject runtime delivery error nackWritten).HoldsFresh runtime := by
    intro next error hnext hacceptedEq command hmem hfresh
    rcases next.reject_only runtime delivery error nackWritten with ⟨store, completions, replies, heq⟩
    rw [heq] at hmem hfresh
    exact (hnext command hmem hfresh).reject (hother command (hacceptedEq ▸ hmem)) hfresh
      error nackWritten
  have hstored : ∀ written record, (state.storeRecord runtime.options written delivery.commandId
      record).state.HoldsFresh runtime :=
    fun written record command hmem hfresh =>
      (h command hmem hfresh).storeRecord (hother command hmem) hfresh written record
  unfold CommandState.finish
  cases outcome with
  | threw error => exact hreject error h rfl
  | returned result =>
    cases ackFailure with
    | some error => exact hreject error (hstored false _) rfl
    | none =>
      have hopen : state.connected = true := hconnected result rfl rfl
      have hnew := holds_stored result hnone runtime.options
      dsimp only at hnew ⊢
      generalize hrecord : SettledCommandRecord.ack delivery.payloadHash result.snapshotPayload
        result.conversationPayload = record at hnew ⊢
      have hothers := fun command hmem hfresh =>
        (hstored true record command hmem hfresh).settle delivery.commandId record
      rcases (state.storeRecord runtime.options true delivery.commandId
        record).state.settle_only delivery.commandId record with ⟨completions, heq⟩
      rw [Option.isNone_none, heq]
      rw [heq] at hnew hothers
      split
      · intro command hmem hfresh
        rw [CommandState.send_only] at hmem hfresh
        rcases List.mem_append.mp hmem with hprior | hone
        · exact ((hothers command hprior hfresh).accept delivery result).send
            (quiet_of_other (hother command hprior))
        · rw [List.mem_singleton.mp hone]
          apply (hnew.accept delivery result).send
          intro reply hreply _ _
          rw [← hrecord] at hreply
          exact answer_ack hreply
      · rename_i hclosed
        exact absurd hopen hclosed

theorem CommandState.HoldsFresh.malformed (h : state.HoldsFresh runtime)
    (envelope : Option Envelope) (message : String) (written : Bool)
    (hother : ∀ received ∈ envelope, ∀ command ∈ state.accepted,
      command.fresh runtime.options state.clock → command.commandId ≠ received.id) :
    (state.malformed runtime envelope message written).HoldsFresh runtime := by
  unfold CommandState.malformed
  cases envelope with
  | none =>
    dsimp only [Option.elim_none]
    apply h.send
    intro command _ _ reply hreply _ hhash
    -- no payload hash could be computed
    cases List.mem_singleton.mp hreply
    cases hhash
  | some envelope =>
    have hstored (record : SettledCommandRecord) : (state.storeRecord runtime.options written
        envelope.id record).state.HoldsFresh runtime := fun command hmem hfresh =>
      (h command hmem hfresh).storeRecord
        (hother envelope rfl command hmem hfresh).symm hfresh written record
    dsimp only [Option.elim_some]
    split
    · exact hstored _
    · apply (hstored _).send
      intro command hmem hfresh reply hreply hid _
      cases List.mem_singleton.mp hreply
      exact absurd hid.symm (hother envelope rfl command hmem hfresh)

/-- The ledger, and every fresh accepted command as it was accepted. -/
structure CommandState.Tracks (runtime : Runtime) (state : CommandState) : Prop where
  ledger : state.Ledger
  holds : ∀ command ∈ state.accepted, command.fresh runtime.options state.clock →
    state.Holds command

theorem CommandState.Tracks.holdsFresh (h : state.Tracks runtime) (action : CommandAction)
    (hcondition : state.undisturbed runtime action) :
    (state.step runtime action).HoldsFresh runtime := by
  have hfreshHeld : state.HoldsFresh runtime := h.holds
  cases action with
  | deliver envelope written => exact hfreshHeld.deliver envelope written
  | finish index outcome ackFailure nackWritten =>
    unfold CommandState.step
    dsimp only
    cases hindex : state.running[index]? with
    | none => exact h.holds
    | some delivery =>
      have hmem := List.mem_of_getElem? hindex
      have herased : CommandState.HoldsFresh runtime
          { state with running := state.running.eraseIdx index } :=
        fun command hcommand hfresh => { h.holds command hcommand hfresh with }
      apply herased.finish (h.ledger.running_unresolved delivery hmem)
        (fun command hcommand => h.ledger.accepted_finished command hcommand delivery hmem)
      intro result houtcome hack
      subst houtcome hack
      exact hcondition (by rw [hindex]; rfl)
  | resume index =>
    unfold CommandState.step
    dsimp only
    split
    · exact h.holds
    · split
      · exact h.holds
      · rename_i delivery _ _ record hrecord
        have hmoved : CommandState.HoldsFresh runtime
            { state with waiting := state.waiting.eraseIdx index } :=
          fun command hmem hfresh => { h.holds command hmem hfresh with }
        apply hmoved.send
        intro command hmem hfresh reply hreply hid _
        have heq := (answer_commandId hreply).symm.trans hid
        rw [heq, (h.holds command hmem hfresh).completion] at hrecord
        cases hrecord
        exact answer_ack hreply
  | malformed envelope message written =>
    apply hfreshHeld.malformed envelope message written
    intro received hreceived command hmem hfresh
    cases hreceived
    exact hcondition command hmem hfresh
  | socket isOpen => exact fun command hmem hfresh => { h.holds command hmem hfresh with }
  | elapse milliseconds =>
    intro command hmem hfresh
    have hearlier : command.fresh runtime.options state.clock := by
      change runtime.options.cutoff (state.clock + milliseconds) ≤ command.settledAt at hfresh
      change runtime.options.cutoff state.clock ≤ command.settledAt
      unfold StoreOptions.cutoff at hfresh ⊢
      omega
    exact { h.holds command hmem hearlier with }
  | storeCall action written =>
    have hcall : ∀ call : StoreAction, call.receiptId? = none → CommandState.HoldsFresh runtime
        { state with
          store := (state.store.perform runtime ⟨state.clock, written⟩ call).state } := by
      intro call hid command hmem hfresh
      have hframe : ReceiptFrame runtime.options state.clock call.receiptId? state.store
          (state.store.perform runtime ⟨state.clock, written⟩ call).state :=
        state.store.perform_receipts ⟨state.clock, written⟩ call
      rw [hid] at hframe
      exact (h.holds command hmem hfresh).store hframe (fun heq => nomatch heq) hfresh
    cases action with
    | setCommandReceipt commandId receipt => exact h.holds
    | _ => exact hcall _ rfl

theorem CommandState.Tracks.step (h : state.Tracks runtime) (action : CommandAction)
    (hcondition : state.undisturbed runtime action) :
    (state.step runtime action).Tracks runtime :=
  ⟨h.ledger.step action, h.holdsFresh action hcondition⟩

/-! ## Every run -/

theorem CommandState.Tracks.keeps (h : state.Tracks runtime) {command : AcceptedCommand}
    (hmem : command ∈ state.accepted) (hfresh : command.fresh runtime.options state.clock) :
    state.Keeps runtime command := by
  have hheld := h.holds command hmem hfresh
  refine { hheld with answered := ?_, resumed := ?_, once := ?_ }
  · intro envelope written hid hhash
    unfold CommandState.deliver
    dsimp only
    rw [hid, hheld.record, Option.some_or]
    split
    · rename_i hfailure
      rw [if_neg (fun hboth => hfailure hboth.2), List.append_nil]
      exact ⟨rfl, rfl⟩
    · rename_i hread
      have hpayload : (CommandRecord.settled command.record).payloadHash =
          hashCommandPayload runtime.host envelope := hhash.symm
      dsimp only
      rw [if_pos hpayload, CommandState.send_only, hhash]
      refine ⟨rfl, ?_⟩
      rw [not_not] at hread
      simp only [hread, and_true, command.answer_record]
  · intro index delivery hindex hid
    unfold CommandState.step
    dsimp only
    rw [hindex]
    dsimp only
    rw [hid, hheld.completion]
    dsimp only
    rw [CommandState.send_only, command.answer_record]
  · exact List.count_eq_one_of_mem h.ledger.handled_nodup (h.ledger.accepted_handled command hmem)

theorem not_keeps_of_nack {command : AcceptedCommand} {payloadHash : String}
    {nackPayload : CommandNack}
    (hnack : state.records.get? command.commandId =
      some (.settled (.nack payloadHash nackPayload))) : ¬state.Keeps runtime command := by
  intro hkeeps
  rw [hkeeps.record] at hnack
  cases hnack

theorem CommandState.finish_closed (runtime : Runtime) {state : CommandState}
    (hclosed : ¬state.connected = true) (delivery : Delivery) (result : CommandExecutionResult)
    (nackWritten : Bool) :
    ∃ store records completions replies, state.finish runtime delivery (.returned result) none
      nackWritten = { state.accept delivery result with store, records, completions, replies } ∧
      ∃ nackPayload, records.get? delivery.commandId =
        some (.settled (.nack delivery.payloadHash nackPayload)) := by
  unfold CommandState.finish
  dsimp only
  rcases CommandState.settle_only _ delivery.commandId _ with ⟨completions, heq⟩
  rw [heq]
  split
  · rename_i hopen
    exact absurd hopen hclosed
  · rcases CommandState.reject_only runtime _ delivery notConnected nackWritten with
      ⟨store, resolved, replies, hreject⟩
    rw [hreject]
    exact ⟨store, _, resolved, replies, rfl, _, Dict.get?_set_self _ _ _⟩

theorem CommandState.malformed_only (runtime : Runtime) (state : CommandState)
    (envelope : Envelope) (message : String) (written : Bool) :
    ∃ store replies nackPayload, state.malformed runtime (some envelope) message written =
      { state with
        records := state.records.set envelope.id
          (.settled (.nack (hashCommandPayload runtime.host envelope) nackPayload))
        store, replies } := by
  unfold CommandState.malformed
  dsimp only [Option.elim_some]
  split
  · exact ⟨_, _, _, rfl⟩
  · rw [CommandState.send_only]
    exact ⟨_, _, _, rfl⟩

theorem CommandState.lost_of_disturbed (action : CommandAction)
    (hdisturbed : ¬state.undisturbed runtime action) :
    ¬∀ command ∈ (state.step runtime action).accepted,
      command.fresh runtime.options (state.step runtime action).clock →
      (state.step runtime action).Keeps runtime command := by
  intro hall
  cases action with
  | finish index outcome ackFailure nackWritten =>
    cases outcome with
    | threw error => exact hdisturbed trivial
    | returned result =>
      cases ackFailure with
      | some error => exact hdisturbed trivial
      | none =>
        change ¬(state.running[index]?.isSome → state.connected = true) at hdisturbed
        rw [Classical.not_imp] at hdisturbed
        rcases Option.isSome_iff_exists.mp hdisturbed.1 with ⟨delivery, hindex⟩
        have herased : ¬CommandState.connected
            { state with running := state.running.eraseIdx index } = true := hdisturbed.2
        rcases CommandState.finish_closed runtime herased delivery result nackWritten with
          ⟨store, records, completions, replies, heq, nackPayload, hnack⟩
        unfold CommandState.step at hall
        simp only [hindex, heq] at hall
        have hkeeps := hall _ (List.mem_append_right _ (List.mem_singleton_self _)) (by
          change runtime.options.cutoff state.clock ≤ state.clock
          have hpos := runtime.options.receipt_retention_pos
          unfold StoreOptions.cutoff
          omega)
        exact not_keeps_of_nack hnack hkeeps
  | malformed envelope message written =>
    cases envelope with
    | none => exact hdisturbed trivial
    | some envelope =>
      have hreused : ∃ command ∈ state.accepted,
          command.fresh runtime.options state.clock ∧ command.commandId = envelope.id := by
        by_contra hnone
        exact hdisturbed fun command hmem hfresh heq => hnone ⟨command, hmem, hfresh, heq⟩
      rcases hreused with ⟨command, hmem, hfresh, heq⟩
      rcases state.malformed_only runtime envelope message written with
        ⟨store, replies, nackPayload, hstep⟩
      unfold CommandState.step at hall
      simp only [hstep] at hall
      apply not_keeps_of_nack _ (hall command hmem hfresh)
      · exact hashCommandPayload runtime.host envelope
      · exact nackPayload
      · rw [heq]
        exact Dict.get?_set_self _ _ _
  | deliver envelope written => exact hdisturbed trivial
  | resume index => exact hdisturbed trivial
  | socket isOpen => exact hdisturbed trivial
  | elapse milliseconds => exact hdisturbed trivial
  | storeCall action written => exact hdisturbed trivial

/-- Accepted commands are kept in exactly the runs whose steps are all undisturbed. -/
theorem accepted_commands_kept (runtime : Runtime) (store : RunnerStore) (clock : Int)
    (actions : List CommandAction) :
    Always (CommandState.step runtime)
      (fun state => ∀ command ∈ state.accepted, command.fresh runtime.options state.clock →
        state.Keeps runtime command)
      (CommandState.start store clock) actions ↔
    Meets (CommandState.step runtime) (CommandState.undisturbed runtime)
      (CommandState.start store clock) actions := by
  have hstart : (CommandState.start store clock).Tracks runtime :=
    ⟨CommandState.Ledger.start store clock, fun _ hmem => nomatch hmem⟩
  have hstep : ∀ (state : CommandState) action, state.Tracks runtime →
      state.undisturbed runtime action → (state.step runtime action).Tracks runtime :=
    fun state action h => h.step action
  constructor
  · exact meets_of_always hstep
      (fun state action _ hdisturbed => state.lost_of_disturbed action hdisturbed) hstart
  · intro hmeets
    apply (always_of_meets hstep hstart hmeets).mono
    exact fun state htracks command hmem hfresh => htracks.keeps hmem hfresh

/-- A command is lost when the socket closes while its handler runs, and when a later message under
its id is malformed. -/
theorem accepted_command_lost :
    ¬Always (CommandState.step plainRuntime)
      (fun state => ∀ command ∈ state.accepted, command.fresh plainRuntime.options state.clock →
        state.Keeps plainRuntime command)
      (CommandState.start RunnerStore.fresh 0)
      [.socket true, .deliver pauseCommand true, .socket false,
        .finish 0 (.returned ⟨none, none⟩) none true] ∧
    ¬Always (CommandState.step plainRuntime)
      (fun state => ∀ command ∈ state.accepted, command.fresh plainRuntime.options state.clock →
        state.Keeps plainRuntime command)
      (CommandState.start RunnerStore.fresh 0)
      [.socket true, .deliver pauseCommand true, .finish 0 (.returned ⟨none, none⟩) none true,
        .malformed (some pauseCommand) "Invalid message." true] := by
  constructor
  · intro h
    have hkeeps := h.last _ (List.mem_singleton_self _) (by decide)
    exact not_keeps_of_nack rfl hkeeps
  · intro h
    have hkeeps := h.last _ (List.mem_singleton_self _) (by decide)
    exact not_keeps_of_nack rfl hkeeps

end HarnessControl.Connection
