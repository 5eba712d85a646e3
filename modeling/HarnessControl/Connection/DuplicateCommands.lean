import HarnessControl.Connection.Acceptance
import HarnessControl.Connection.PayloadEquality

/-!
# Deliveries that repeat a command

A delivery is a duplicate where the payload under its id has the same hash.  The type of the message
is no part of what is hashed, and the order of keys that the locale ties is.
-/

namespace HarnessControl.Connection

open HarnessControl.Library HarnessControl.Protocol HarnessControl.State

/-! ## Messages -/

/-- `CONTROL_PLANE_COMMAND_MESSAGE_TYPES`. -/
inductive ControlPlaneCommandMessageType where
  | sessionStart
  | conversationRequest
  | sessionSnapshotRequest
  | turnSend
  | turnCancel
  | sessionStop
  | approvalRespond
  | inputRespond
  | toolServersDetach
deriving DecidableEq

structure CommandMessage extends Envelope where
  type : ControlPlaneCommandMessageType

/-- The same type, and payloads that are equal up to the order of keys. -/
def CommandMessage.same (first second : CommandMessage) : Bool :=
  decide (first.type = second.type) && first.payload.deepEqual second.payload

/-! ## What is made of a delivery -/

inductive Treatment where
  | handled
  | duplicate (record : CommandRecord)
  | mismatch
deriving DecidableEq

namespace CommandState

/-- `existingRecord`. -/
def existingRecord (commandId : String) (state : CommandState) : Option CommandRecord :=
  (state.records.get? commandId).or
    ((state.store.data.commandReceipts.get? commandId).map fun receipt =>
      .settled (commandRecordFromReceipt receipt))

def treatment (host : Host) (envelope : Envelope) (state : CommandState) : Treatment :=
  match state.existingRecord (commandIdFor envelope) with
  | none => .handled
  | some record =>
    if record.payloadHash = hashCommandPayload host envelope then .duplicate record
    else .mismatch

def treat (host : Host) (envelope : Envelope) (state : CommandState) : Treatment → CommandState
  | .handled =>
    { state with
      records := state.records.set (commandIdFor envelope)
        (.pending (hashCommandPayload host envelope))
      running := state.running ++ [⟨commandIdFor envelope, hashCommandPayload host envelope⟩]
      handled := state.handled ++ [commandIdFor envelope] }
  | .duplicate (.pending _) =>
    { state with
      waiting := state.waiting ++ [⟨commandIdFor envelope, hashCommandPayload host envelope⟩] }
  | .duplicate (.settled record) =>
    state.send (answer (commandIdFor envelope) (hashCommandPayload host envelope) state.clock true
      record)
  | .mismatch =>
    state.send [⟨commandIdFor envelope, some (hashCommandPayload host envelope),
      .nack (mismatchNack (commandIdFor envelope) state.clock)⟩]

theorem deliver_eq (runtime : Runtime) (envelope : Envelope) (written : Bool)
    (state : CommandState) :
    state.deliver runtime envelope written =
      let read := state.store.pruneReceipts runtime.options ⟨state.clock, written⟩
      let state := { state with store := read.state }
      if read.failure ≠ none then state
      else state.treat runtime.host envelope (state.treatment runtime.host envelope) := by
  unfold deliver treatment existingRecord
  dsimp only
  split_ifs with hfailure
  · rfl
  · generalize Option.or _ _ = existing
    cases existing with
    | none => rfl
    | some record =>
      dsimp only
      split_ifs
      · cases record <;> rfl
      · rfl

theorem unseen_of_handled {host : Host} {envelope : Envelope} {state : CommandState}
    (h : state.treatment host envelope = .handled) :
    state.records.get? (commandIdFor envelope) = none := by
  unfold treatment existingRecord at h
  cases hrecord : state.records.get? (commandIdFor envelope) with
  | none => rfl
  | some record =>
    rw [hrecord, Option.some_or] at h
    dsimp only at h
    split at h <;> cases h

/-! ## What is remembered of a command -/

/-- The record under the id of the command is the one that it left. -/
def Remembers (host : Host) (envelope : Envelope) (state : CommandState) : Prop :=
  ∃ record, state.existingRecord (commandIdFor envelope) = some record ∧
    record.payloadHash = hashCommandPayload host envelope

/-- A record in memory, and the handlers that may still replace it. -/
structure Carries (delivery : Delivery) (state : CommandState) : Prop where
  recorded : ∃ record, state.records.get? delivery.commandId = some record ∧
    record.payloadHash = delivery.payloadHash
  running : ∀ other ∈ state.running, other.commandId = delivery.commandId →
    other.payloadHash = delivery.payloadHash

/-- A message that is no command and bears the id replaces the record. -/
def KeepsRecord (commandId : String) : CommandAction → Prop
  | .malformed (some envelope) _ _ => envelope.id ≠ commandId
  | _ => True

namespace Carries

variable {runtime : Runtime} {state : CommandState} {delivery : Delivery}

theorem send (h : state.Carries delivery) (replies : List Reply) :
    (state.send replies).Carries delivery := by
  rw [send_only]
  exact { h with }

theorem of_records {other : CommandState} (h : state.Carries delivery)
    (hrecords : other.records = state.records) (hrunning : other.running = state.running) :
    other.Carries delivery where
  recorded := by
    rw [hrecords]
    exact h.recorded
  running := by
    rw [hrunning]
    exact h.running

theorem set (h : state.Carries delivery) {commandId : String} {record : CommandRecord}
    (hrecord : commandId = delivery.commandId → record.payloadHash = delivery.payloadHash) :
    Carries delivery { state with records := state.records.set commandId record } where
  recorded := by
    show ∃ found, (state.records.set commandId record).get? delivery.commandId = some found ∧ _
    by_cases hid : delivery.commandId = commandId
    · rw [hid, Dict.get?_set_self]
      exact ⟨record, rfl, hrecord hid.symm⟩
    · rw [Dict.get?_set_of_ne _ _ hid]
      exact h.recorded
  running := h.running

theorem reject (h : state.Carries delivery) {other : Delivery} (error : HandlerError)
    (written : Bool)
    (hother : other.commandId = delivery.commandId → other.payloadHash = delivery.payloadHash) :
    (state.reject runtime other error written).Carries delivery := by
  obtain ⟨store, completions, replies, hreject⟩ := reject_only runtime state other error written
  rw [hreject]
  exact (h.set hother).of_records rfl rfl

theorem storeRecord (h : state.Carries delivery) {other : Delivery} (written : Bool)
    {record : SettledCommandRecord} (hrecord : record.payloadHash = other.payloadHash)
    (hother : other.commandId = delivery.commandId → other.payloadHash = delivery.payloadHash) :
    (state.storeRecord runtime.options written other.commandId record).state.Carries delivery := by
  have hset : Carries delivery
      { state with records := state.records.set other.commandId (.settled record) } :=
    h.set fun hid => hrecord.trans (hother hid)
  exact hset.of_records rfl rfl

theorem settle (h : state.Carries delivery) (commandId : String) (record : SettledCommandRecord) :
    (state.settle commandId record).Carries delivery := by
  obtain ⟨completions, hsettle⟩ := settle_only state commandId record
  rw [hsettle]
  exact h.of_records rfl rfl

theorem accept (h : state.Carries delivery) (other : Delivery) (result : CommandExecutionResult) :
    (state.accept other result).Carries delivery :=
  h.of_records rfl rfl

theorem finish (h : state.Carries delivery) {other : Delivery} (outcome : HandlerOutcome)
    (ackFailure : Option HandlerError) (nackWritten : Bool)
    (hother : other.commandId = delivery.commandId → other.payloadHash = delivery.payloadHash) :
    (state.finish runtime other outcome ackFailure nackWritten).Carries delivery := by
  unfold CommandState.finish
  cases outcome with
  | threw error => exact h.reject error nackWritten hother
  | returned result =>
    have hstored : Carries delivery (state.storeRecord runtime.options ackFailure.isNone
        other.commandId (.ack other.payloadHash result.snapshotPayload
          result.conversationPayload)).state :=
      h.storeRecord ackFailure.isNone rfl hother
    cases ackFailure with
    | some error => exact hstored.reject error nackWritten hother
    | none =>
      dsimp only
      have haccepted := (hstored.settle other.commandId (.ack other.payloadHash
        result.snapshotPayload result.conversationPayload)).accept other result
      split
      · exact haccepted.send _
      · exact haccepted.reject notConnected nackWritten hother

theorem treat (h : state.Carries delivery) (host : Host) (envelope : Envelope) :
    (state.treat host envelope (state.treatment host envelope)).Carries delivery := by
  cases htreatment : state.treatment host envelope with
  | handled =>
    have hne : commandIdFor envelope ≠ delivery.commandId := by
      intro hid
      obtain ⟨record, hrecord, -⟩ := h.recorded
      have hunseen := unseen_of_handled htreatment
      rw [hid, hrecord] at hunseen
      cases hunseen
    have hset : Carries delivery { state with
        records := state.records.set (commandIdFor envelope)
          (.pending (hashCommandPayload host envelope)) } :=
      h.set fun hid => absurd hid hne
    exact {
      recorded := hset.recorded
      running := by
        intro other hin hid
        obtain hold | hnew := List.mem_append.mp hin
        · exact h.running other hold hid
        · rw [List.mem_singleton.mp hnew] at hid
          exact absurd hid hne }
  | duplicate record =>
    cases record with
    | pending payloadHash => exact h.of_records rfl rfl
    | settled record => exact h.send _
  | mismatch => exact h.send _

/-- Whatever happens but a message that is no command, the record stays that of the command. -/
theorem step (h : state.Carries delivery) (action : CommandAction)
    (hkeeps : KeepsRecord delivery.commandId action) :
    (state.step runtime action).Carries delivery := by
  cases action with
  | deliver envelope written =>
    show (state.deliver runtime envelope written).Carries delivery
    rw [deliver_eq]
    dsimp only
    have hread : Carries delivery { state with
        store := (state.store.pruneReceipts runtime.options ⟨state.clock, written⟩).state } :=
      h.of_records rfl rfl
    split
    · exact hread
    · exact hread.treat runtime.host envelope
  | finish index outcome ackFailure nackWritten =>
    unfold CommandState.step
    dsimp only
    cases hindex : state.running[index]? with
    | none => exact h
    | some other =>
      have hrest : Carries delivery
          { state with running := state.running.eraseIdx index } :=
        { recorded := h.recorded
          running := fun found hin => h.running found (List.mem_of_mem_eraseIdx hin) }
      exact hrest.finish outcome ackFailure nackWritten
        (h.running other (List.mem_of_getElem? hindex))
  | resume index =>
    unfold CommandState.step
    dsimp only
    split
    · exact h
    · split
      · exact h
      · have hrest : Carries delivery
            { state with waiting := state.waiting.eraseIdx index } :=
          h.of_records rfl rfl
        exact hrest.send _
  | malformed envelope message written =>
    cases envelope with
    | none => exact h.send _
    | some envelope =>
      obtain ⟨store, replies, nackPayload, hmalformed⟩ :=
        malformed_only runtime state envelope message written
      show (state.malformed runtime (some envelope) message written).Carries delivery
      rw [hmalformed]
      exact (h.set fun hid => absurd hid hkeeps).of_records rfl rfl
  | socket isOpen => exact h.of_records rfl rfl
  | elapse milliseconds => exact h.of_records rfl rfl
  | storeCall action written => cases action <;> exact h.of_records rfl rfl

end Carries

theorem remembers_of_carries {host : Host} {envelope : Envelope} {state : CommandState}
    (h : state.Carries ⟨commandIdFor envelope, hashCommandPayload host envelope⟩) :
    state.Remembers host envelope := by
  obtain ⟨record, hrecord, hhash⟩ := h.recorded
  refine ⟨record, ?_, hhash⟩
  unfold existingRecord
  rw [hrecord, Option.some_or]

def Handles (runtime : Runtime) (envelope : Envelope) (written : Bool) (state : CommandState) :
    Prop :=
  (state.step runtime (.deliver envelope written)).handled =
    state.handled ++ [commandIdFor envelope]

theorem send_handled (state : CommandState) (replies : List Reply) :
    (state.send replies).handled = state.handled := by
  rw [send_only]

theorem Handles.carries {runtime : Runtime} {envelope : Envelope} {written : Bool}
    {state : CommandState} (h : state.Handles runtime envelope written) (hledger : state.Ledger) :
    (state.step runtime (.deliver envelope written)).Carries
      ⟨commandIdFor envelope, hashCommandPayload runtime.host envelope⟩ := by
  have hunchanged : state.handled ≠ state.handled ++ [commandIdFor envelope] := by simp
  unfold Handles at h
  change (state.deliver runtime envelope written).handled = _ at h
  show (state.deliver runtime envelope written).Carries _
  rw [deliver_eq] at h ⊢
  dsimp only at h ⊢
  have hread : CommandState.Ledger { state with
      store := (state.store.pruneReceipts runtime.options ⟨state.clock, written⟩).state } :=
    { hledger with }
  split at h
  · exact absurd h hunchanged
  · rename_i hsuccess
    rw [if_neg hsuccess]
    generalize htreatment : treatment runtime.host envelope _ = treated at h ⊢
    cases treated with
    | handled =>
      refine ⟨⟨_, Dict.get?_set_self _ _ _, rfl⟩, ?_⟩
      intro other hin hid
      obtain hold | hnew := List.mem_append.mp hin
      · -- a handler of the same id would have left a record
        have hrecorded := hread.handled_recorded _ (hread.running_handled other hold)
        rw [show other.commandId = commandIdFor envelope from hid] at hrecorded
        exact absurd (unseen_of_handled htreatment) hrecorded
      · rw [List.mem_singleton.mp hnew]
    | duplicate record =>
      cases record with
      | pending payloadHash => exact absurd h hunchanged
      | settled record => exact absurd ((send_handled _ _).symm.trans h) hunchanged
    | mismatch => exact absurd ((send_handled _ _).symm.trans h) hunchanged

end CommandState

/-! ## Duplicates -/

/-- The second command is a duplicate where it is the same, and a mismatch otherwise. -/
def CommandState.DetectsDuplicate (host : Host) (first second : CommandMessage)
    (state : CommandState) : Prop :=
  if first.same second then ∃ record, state.treatment host second.toEnvelope = .duplicate record
  else state.treatment host second.toEnvelope = .mismatch

theorem hash_eq_iff {host : Host} (hhost : SerialisesJson host) {first second : Envelope}
    (hfirst : first.payload.wellKeyed = true) (hsecond : second.payload.wellKeyed = true)
    (hsha : hashCommandPayload host first = hashCommandPayload host second →
      stableStringify host first.payload = stableStringify host second.payload) :
    hashCommandPayload host first = hashCommandPayload host second ↔
      first.payload.deepEqual second.payload = true ∧
        first.payload.tiesAgree host.localeLe second.payload = true := by
  rw [← stableStringify_eq_iff hhost first.payload second.payload hfirst hsecond]
  constructor
  · exact hsha
  · intro htext
    unfold hashCommandPayload
    rw [htext]

/-- Equal payloads have their ties in the same order exactly for equal types. -/
def CommandMessage.ToldBy (host : Host) (first second : CommandMessage) : Prop :=
  first.payload.deepEqual second.payload = true →
    (first.payload.tiesAgree host.localeLe second.payload = true ↔ first.type = second.type)

theorem CommandState.Remembers.detects_iff {host : Host} (hhost : SerialisesJson host)
    {first second : CommandMessage} (hfirst : first.payload.wellKeyed = true)
    (hsecond : second.payload.wellKeyed = true)
    (hid : commandIdFor first.toEnvelope = commandIdFor second.toEnvelope)
    (hsha : hashCommandPayload host first.toEnvelope = hashCommandPayload host second.toEnvelope →
      stableStringify host first.payload = stableStringify host second.payload)
    {state : CommandState} (hheld : state.Remembers host first.toEnvelope) :
    state.DetectsDuplicate host first second ↔ first.ToldBy host second := by
  obtain ⟨record, hrecord, hhash⟩ := hheld
  have htreatment : state.treatment host second.toEnvelope =
      if hashCommandPayload host first.toEnvelope = hashCommandPayload host second.toEnvelope then
        .duplicate record
      else .mismatch := by
    unfold CommandState.treatment
    rw [← hid, hrecord]
    dsimp only
    rw [hhash]
  have hhashes := hash_eq_iff hhost hfirst hsecond hsha
  unfold CommandState.DetectsDuplicate CommandMessage.same CommandMessage.ToldBy
  rw [htreatment]
  by_cases hequal : first.payload.deepEqual second.payload = true
  · by_cases hties : first.payload.tiesAgree host.localeLe second.payload = true
    · -- the hashes agree, so a command of another type is a duplicate too
      rw [if_pos (hhashes.mpr ⟨hequal, hties⟩)]
      by_cases htype : first.type = second.type <;> simp [hequal, hties, htype]
    · rw [if_neg fun heq => hties (hhashes.mp heq).2]
      by_cases htype : first.type = second.type <;> simp [hequal, hties, htype]
  · rw [if_neg fun heq => hequal (hhashes.mp heq).1]
    simp [hequal]

/-- Of two commands with one id, the second is taken for a duplicate of the first where it is one, and
only there, if equal payloads have their ties in the same order exactly for equal types: in every
state that remembers the first, and so from the moment it is handled on, whatever arrives except a
message that is no command and bears its id. -/
theorem duplicates_detected (runtime : Runtime) (hhost : SerialisesJson runtime.host)
    (first second : CommandMessage) (hfirst : first.payload.wellKeyed = true)
    (hsecond : second.payload.wellKeyed = true)
    (hid : commandIdFor first.toEnvelope = commandIdFor second.toEnvelope)
    (hsha : hashCommandPayload runtime.host first.toEnvelope =
        hashCommandPayload runtime.host second.toEnvelope →
      stableStringify runtime.host first.payload = stableStringify runtime.host second.payload) :
    (∀ state : CommandState, state.Remembers runtime.host first.toEnvelope →
      (state.DetectsDuplicate runtime.host first second ↔ first.ToldBy runtime.host second)) ∧
    ∀ (store : RunnerStore) (clock : Int) (earlier later : List CommandAction) (written : Bool),
      let state := run (CommandState.step runtime) (CommandState.start store clock) earlier
      state.Handles runtime first.toEnvelope written →
      (∀ action ∈ later, CommandState.KeepsRecord (commandIdFor first.toEnvelope) action) →
      Always (CommandState.step runtime)
        (fun state =>
          state.DetectsDuplicate runtime.host first second ↔ first.ToldBy runtime.host second)
        (state.step runtime (.deliver first.toEnvelope written)) later := by
  refine ⟨fun state hheld => hheld.detects_iff hhost hfirst hsecond hid hsha, ?_⟩
  intro store clock earlier later written state hhandles hkeeps
  have hledger : state.Ledger := (CommandState.Ledger.start store clock).run earlier
  have hall : Always (CommandState.step runtime)
      (CommandState.Carries ⟨commandIdFor first.toEnvelope,
        hashCommandPayload runtime.host first.toEnvelope⟩)
      (state.step runtime (.deliver first.toEnvelope written)) later :=
    always_of_meets (fun state action h hkeep => h.step action hkeep) (hhandles.carries hledger)
      (Meets.of_forall hkeeps _)
  exact hall.mono fun _ h =>
    (CommandState.remembers_of_carries h).detects_iff hhost hfirst hsecond hid hsha

/-! ### Two commands with one payload -/

/-- A strict object of texts that are not empty, the first of them required. -/
def textFields (required : String) (optional : List String) : Json → Bool
  | .obj fields =>
    (fields.get? required).isSome &&
      fields.keys.all fun key => (key == required || optional.contains key) &&
        match fields.get? key with
        | some (.str s) => s != ""
        | _ => false
  | _ => false

def hcpSessionStopPayloadSchema : Json → Bool := textFields "session_id" ["reason"]

def hcpSessionSnapshotRequestPayloadSchema : Json → Bool := textFields "session_id" []

def sessionText : String := "\x7b\"session_id\":\"session-1\"\x7d"

/-- The digest of `sessionText`. -/
def sessionHash : String := "61423a47a5f1e776bc3dac707695ce66c71e10644a6de148786963de859ebdeb"

/-- It hashes two texts, and orders keys by their characters. -/
def textHost : Host :=
  { plainHost with
    stringify := leafText
    sha256 := fun text => if text = sessionText then sessionHash else emptyHash
    sha256_hex := by
      intro text
      split <;> decide }

theorem numberChar_of_isDigit {c : Char} (h : c.isDigit = true) : numberChar c = true := by
  unfold numberChar
  rw [h, Bool.true_or]

theorem digits_chars (n : Nat) : n.repr ≠ "" ∧ ∀ c ∈ n.repr.toList, c.isDigit = true := by
  constructor
  · intro hempty
    have hlist := Nat.toList_repr (n := n)
    rw [hempty] at hlist
    exact Nat.toDigits_ne_nil hlist.symm
  · intro c hc
    rw [Nat.toList_repr] at hc
    exact Nat.isDigit_of_mem_toDigits (by decide) (by decide) hc

theorem digits_injective {m n : Nat} (h : m.repr = n.repr) : m = n := by
  have hlist := congrArg String.toList h
  rw [Nat.toList_repr, Nat.toList_repr] at hlist
  rw [← Nat.ofDigitChars_ten_toDigits (n := m), hlist, Nat.ofDigitChars_ten_toDigits]

theorem repr_negSucc (n : Nat) : (Int.negSucc n).repr.toList = '-' :: (n + 1).repr.toList := by
  show ("-" ++ (n + 1).repr).toList = _
  rw [String.toList_append]
  rfl

theorem repr_chars (value : Int) :
    value.repr ≠ "" ∧ ∀ c ∈ value.repr.toList, numberChar c = true := by
  cases value with
  | ofNat n =>
    obtain ⟨hne, hdigits⟩ := digits_chars n
    exact ⟨hne, fun c hc => numberChar_of_isDigit (hdigits c hc)⟩
  | negSucc n =>
    constructor
    · intro hempty
      have hlist := repr_negSucc n
      rw [hempty] at hlist
      cases hlist
    · intro c hc
      rw [repr_negSucc] at hc
      obtain rfl | hdigit := List.mem_cons.mp hc
      · decide
      · exact numberChar_of_isDigit ((digits_chars (n + 1)).2 c hdigit)

theorem repr_ofNat_ne_negSucc (m n : Nat) : m.repr ≠ (Int.negSucc n).repr := by
  intro heq
  have hminus : '-' ∈ m.repr.toList := by
    rw [heq, repr_negSucc]
    exact List.mem_cons_self
  exact absurd ((digits_chars m).2 '-' hminus) (by decide)

theorem repr_injective {value other : Int} (h : value.repr = other.repr) : value = other := by
  cases value with
  | ofNat m =>
    cases other with
    | ofNat n => exact congrArg Int.ofNat (digits_injective h)
    | negSucc n => exact absurd h (repr_ofNat_ne_negSucc m n)
  | negSucc m =>
    cases other with
    | ofNat n => exact absurd h.symm (repr_ofNat_ne_negSucc n m)
    | negSucc n =>
      have hlist := congrArg String.toList h
      rw [repr_negSucc, repr_negSucc] at hlist
      have hdigits := digits_injective (String.toList_injective (List.cons.inj hlist).2)
      rw [Nat.succ.inj hdigits]

theorem textHost_serialises : SerialisesJson textHost where
  leaves := {
    null := rfl
    bool := fun _ => rfl
    str := fun _ => rfl
    num := repr_chars
    num_injective := fun _ _ => repr_injective }
  locale_trans a b c hab hbc := by
    have hle := String.le_trans (of_decide_eq_true hab) (of_decide_eq_true hbc)
    exact decide_eq_true hle
  locale_total a b := by
    rw [Bool.or_eq_true]
    exact (String.le_total a b).imp decide_eq_true decide_eq_true

/-- `harness.session.stop`. -/
def stopCommand : CommandMessage := ⟨pauseCommand, .sessionStop⟩

/-- `harness.session.snapshot.request` under the same id. -/
def snapshotCommand : CommandMessage := ⟨pauseCommand, .sessionSnapshotRequest⟩

/-- The stop was delivered and its handler runs. -/
def stopping : CommandState :=
  (CommandState.start RunnerStore.fresh 0).treat textHost stopCommand.toEnvelope .handled

theorem stopping_remembers : stopping.Remembers textHost stopCommand.toEnvelope :=
  ⟨.pending (hashCommandPayload textHost stopCommand.toEnvelope), by decide +kernel, rfl⟩

/-- A snapshot request is answered as a repetition of the stop. -/
theorem snapshot_taken_for_stop :
    hcpSessionStopPayloadSchema stopCommand.payload = true ∧
      hcpSessionSnapshotRequestPayloadSchema snapshotCommand.payload = true ∧
      commandIdFor stopCommand.toEnvelope = commandIdFor snapshotCommand.toEnvelope ∧
      stopping.Remembers textHost stopCommand.toEnvelope ∧
      ¬stopping.DetectsDuplicate textHost stopCommand snapshotCommand := by
  refine ⟨by decide, by decide, rfl, stopping_remembers, ?_⟩
  intro hdetects
  have hmismatch : stopping.treatment textHost snapshotCommand.toEnvelope = .mismatch := hdetects
  revert hmismatch
  decide +kernel

def stopRuntime : Runtime := { plainRuntime with host := textHost }

/-- The stop is delivered, and delivered again while its handler runs and after it has failed. -/
theorem duplicates_detected_repeated :
    stopping.DetectsDuplicate textHost stopCommand stopCommand ∧
      Always (CommandState.step stopRuntime)
        (fun state => state.DetectsDuplicate textHost stopCommand stopCommand ↔
          stopCommand.ToldBy textHost stopCommand)
        ((CommandState.start RunnerStore.fresh 0).step stopRuntime
          (.deliver stopCommand.toEnvelope true))
        [.deliver stopCommand.toEnvelope true, .finish 0 (.threw notConnected) none true] := by
  have hdetected := duplicates_detected stopRuntime textHost_serialises stopCommand stopCommand rfl
    rfl rfl fun _ => rfl
  have hties : stopCommand.payload.tiesAgree textHost.localeLe stopCommand.payload = true := by
    decide +kernel
  have hhandles : (CommandState.start RunnerStore.fresh 0).Handles stopRuntime
      stopCommand.toEnvelope true := by
    unfold CommandState.Handles
    decide +kernel
  refine ⟨(hdetected.1 stopping stopping_remembers).mpr fun _ => ⟨fun _ => rfl, fun _ => hties⟩,
    hdetected.2 RunnerStore.fresh 0 [] _ true hhandles ?_⟩
  intro action hmem
  obtain rfl | rfl := List.mem_pair.mp hmem <;> trivial

end HarnessControl.Connection
