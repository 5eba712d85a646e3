import HarnessControl.Connection.LocalActions

/-!
# Answers to local actions

Each request id is dispatched once and its record is settled by that dispatch, so that every
identical delivery can be answered.  Three steps break this: a dispatch that throws leaves the
record pending for good, a receipt that cannot be written leaves the deliveries that wait for the
completion waiting, and a read of the receipts that cannot write the file drops its delivery.
-/

namespace HarnessControl.Connection

open HarnessControl.Library HarnessControl.Protocol HarnessControl.State

/-! ## What the deliveries are owed -/

def LocalActionResult.fresh (result : LocalActionResult) (options : StoreOptions) (now : Int) :
    Prop :=
  options.cutoff now ≤ result.settledAt

/-- The dispatch that a delivery waits for is running, or has resolved its completion. -/
def LocalActionState.Awaited (state : LocalActionState) (delivery : LocalActionDelivery) : Prop :=
  (∃ executing ∈ state.running, executing.requestId = delivery.requestId) ∨
    ∃ record, state.completions.get? delivery.requestId = some record ∧
      state.records.get? delivery.requestId = some (.settled record)

/-- The bookkeeping of deliveries, dispatches and records. -/
structure LocalActionState.Ledger (options : StoreOptions) (state : LocalActionState) : Prop where
  /-- The executor runs at most once for a request id. -/
  once : (state.executed.map fun execution => execution.requestId).Nodup
  /-- A record is pending only while its dispatch runs. -/
  pending : ∀ requestId payloadHash requestPayload,
    state.records.get? requestId = some (.pending payloadHash requestPayload) →
    ⟨requestId, payloadHash, requestPayload⟩ ∈ state.running
  awaited : ∀ delivery ∈ state.waiting, state.Awaited delivery
  /-- Every dispatch that was started is running or has a result. -/
  ended : ∀ execution ∈ state.executed, execution.toLocalActionDelivery ∈ state.running ∨
    ∃ result ∈ state.results, result.toLocalActionDelivery = execution.toLocalActionDelivery
  /-- The record of a result is never replaced, nor is its receipt while it is kept. -/
  kept : ∀ result ∈ state.results,
    state.records.get? result.requestId = some (.settled result.record) ∧
    (result.fresh options state.clock →
      state.store.data.localActionReceipts.get? result.requestId =
        some (result.record.receipt result.settledAt))
  /-- Since its dispatch was started, a payload is answered with the one record. -/
  replied : ∀ execution ∈ state.executed, ∀ reply ∈ state.replies.drop execution.sentBefore,
    reply.requestId = execution.requestId → reply.payloadHash = execution.payloadHash →
    state.records.get? execution.requestId = some (.settled reply.record)
  /-- No identical delivery was dropped. -/
  missed : state.missed = []

/-- Also, what happens to a delivery whose id has a record, and to one whose wait is over. -/
structure LocalActionState.Answers (runtime : Runtime) (texts : DispatchTexts)
    (state : LocalActionState) : Prop extends state.Ledger runtime.options where
  /-- The executor is not run and the records stay, whatever the payload. -/
  guarded : ∀ envelope emission written record,
    state.existing runtime.options (localActionDelivery runtime.host envelope).requestId =
      some record →
    (state.deliver runtime texts envelope emission written).executed = state.executed ∧
    (state.deliver runtime texts envelope emission written).records = state.records
  /-- An identical delivery is answered from a settled record. -/
  answered : ∀ envelope emission written record,
    state.existing runtime.options (localActionDelivery runtime.host envelope).requestId =
      some (.settled record) →
    record.payloadHash = (localActionDelivery runtime.host envelope).payloadHash →
    (state.store.pruneReceipts runtime.options ⟨state.clock, written⟩).failure = none →
    ∃ store, state.deliver runtime texts envelope emission written =
      { state with store }.send (localActionDelivery runtime.host envelope) record
  /-- An identical delivery joins the wait for a pending record. -/
  joined : ∀ envelope emission written requestPayload,
    state.existing runtime.options (localActionDelivery runtime.host envelope).requestId =
      some (.pending (localActionDelivery runtime.host envelope).payloadHash requestPayload) →
    (state.store.pruneReceipts runtime.options ⟨state.clock, written⟩).failure = none →
    (state.deliver runtime texts envelope emission written).waiting =
      state.waiting ++ [localActionDelivery runtime.host envelope]
  /-- A delivery whose wait is over is answered with the record of the execution. -/
  resumed : ∀ index delivery, state.waiting[index]? = some delivery →
    (∀ executing ∈ state.running, executing.requestId ≠ delivery.requestId) →
    ∃ record, state.records.get? delivery.requestId = some (.settled record) ∧
      state.step runtime texts (.resume index) =
        { state with waiting := state.waiting.eraseIdx index }.send delivery record

/-! ## Steps that keep every delivery answerable -/

/-- The payload of an error is one that the protocol admits; its message is not empty. -/
def reportable (schemas : PayloadSchemas) (texts : DispatchTexts) (request : Json) (now : Int)
    (failure : LocalActionFailure) (events : List HarnessEvent) : Prop :=
  schemas.localActionError (errorPayload texts request failure events now) = true

/-- The end of a dispatch is a response, or a failure that can be reported. -/
def DispatchEnd.reported (schemas : PayloadSchemas) (texts : DispatchTexts) (request : Json)
    (now : Int) : DispatchEnd → Prop
  | .stopped => reportable schemas texts request now stoppedSession []
  | .contextFailed failure => reportable schemas texts request now failure []
  | .responded output events =>
    let payload := responsePayload texts request output events now
    schemas.localActionResponse payload = true ∨
      reportable schemas texts request now (.error (texts.issues payload)) []
  | .failed failure (some (.emitted events)) => reportable schemas texts request now failure events
  | .failed failure none | .failed failure (some .denied) =>
    reportable schemas texts request now failure []
  -- the events of the failure could not be recorded
  | .failed _ (some .threw) => False

/-- The dispatch that ends is reported, a receipt that cannot be written is awaited by nobody, and
a read of the receipts that cannot write the file drops no identical delivery. -/
def LocalActionState.answerable (runtime : Runtime) (texts : DispatchTexts)
    (state : LocalActionState) : LocalActionAction → Prop
  | .deliver envelope _ written =>
    let delivery := localActionDelivery runtime.host envelope
    (state.existing runtime.options delivery.requestId).any (fun record =>
      record.payloadHash == delivery.payloadHash) = true →
    (state.store.pruneReceipts runtime.options ⟨state.clock, written⟩).failure = none
  | .finish index ending written =>
    ∀ delivery, state.running[index]? = some delivery →
      ending.reported runtime.schemas texts delivery.requestPayload state.clock ∧
      (written = false → ∀ other ∈ state.waiting, other.requestId ≠ delivery.requestId)
  | _ => True

theorem errorOutcome_isSome (schemas : PayloadSchemas) (texts : DispatchTexts) (request : Json)
    (now : Int) (failure : LocalActionFailure) {emission : Option Emission}
    {events : List HarnessEvent} (hevents : Emission.events emission = some events) :
    (errorOutcome schemas texts request now failure emission).isSome ↔
      reportable schemas texts request now failure events := by
  unfold errorOutcome reportable
  rw [hevents, Option.bind_some]
  dsimp only
  split
  · rename_i hvalid
    simp [hvalid]
  · rename_i hinvalid
    simp [hinvalid]

theorem dispatch_isSome (schemas : PayloadSchemas) (texts : DispatchTexts) (request : Json)
    (now : Int) (ending : DispatchEnd) :
    (dispatch schemas texts request now ending).isSome ↔
      ending.reported schemas texts request now := by
  cases ending with
  | stopped => exact errorOutcome_isSome schemas texts request now stoppedSession rfl
  | contextFailed failure => exact errorOutcome_isSome schemas texts request now failure rfl
  | responded output events =>
    unfold dispatch DispatchEnd.reported
    dsimp only
    split
    · rename_i hvalid
      exact ⟨fun _ => Or.inl hvalid, fun _ => rfl⟩
    · rename_i hinvalid
      rw [errorOutcome_isSome schemas texts request now _ rfl, or_iff_right hinvalid]
  | failed failure emission =>
    cases emission with
    | none => exact errorOutcome_isSome schemas texts request now failure rfl
    | some emission =>
      cases emission with
      | emitted events => exact errorOutcome_isSome schemas texts request now failure rfl
      | denied => exact errorOutcome_isSome schemas texts request now failure rfl
      | threw =>
        constructor
        · intro h
          cases h
        · intro h
          cases h

/-! ## Parts of a step -/

/-- The ledger, and how records, running dispatches and completions belong together. -/
structure LocalActionState.Tracks (options : StoreOptions) (state : LocalActionState) : Prop
    extends state.Ledger options where
  running_nodup : (state.running.map LocalActionDelivery.requestId).Nodup
  running_pending : ∀ delivery ∈ state.running, state.records.get? delivery.requestId =
    some (.pending delivery.payloadHash delivery.requestPayload)
  completed : ∀ requestId record, state.completions.get? requestId = some record →
    state.records.get? requestId = some (.settled record)
  executed_recorded : ∀ execution ∈ state.executed, ∃ record,
    state.records.get? execution.requestId = some record ∧
      record.payloadHash = execution.payloadHash

variable {options : StoreOptions} {runtime : Runtime} {texts : DispatchTexts}
  {state : LocalActionState}

theorem LocalActionState.Tracks.start (store : RunnerStore) (clock : Int) :
    (LocalActionState.start store clock).Tracks options where
  once := List.nodup_nil
  pending := fun _ _ _ h => nomatch h
  awaited := fun _ h => nomatch h
  ended := fun _ h => nomatch h
  kept := fun _ h => nomatch h
  replied := fun _ h => nomatch h
  missed := rfl
  running_nodup := List.nodup_nil
  running_pending := fun _ h => nomatch h
  completed := fun _ _ h => nomatch h
  executed_recorded := fun _ h => nomatch h

theorem LocalActionState.send_only (state : LocalActionState) (delivery : LocalActionDelivery)
    (record : SettledLocalActionRecord) :
    state.send delivery record = { state with
      replies := state.replies ++
        if state.connected then [⟨delivery.requestId, delivery.payloadHash, record⟩] else [] } := by
  unfold LocalActionState.send
  split
  · rfl
  · rw [List.append_nil]

theorem LocalActionState.Tracks.send (h : state.Tracks options) {delivery : LocalActionDelivery}
    {record : SettledLocalActionRecord}
    (hone : ∀ execution ∈ state.executed, delivery.requestId = execution.requestId →
      delivery.payloadHash = execution.payloadHash →
      state.records.get? execution.requestId = some (.settled record)) :
    (state.send delivery record).Tracks options := by
  unfold LocalActionState.send
  split
  · refine { h with replied := ?_ }
    intro execution hexecution reply hreply hid hhash
    change reply ∈ List.drop execution.sentBefore (state.replies ++ _) at hreply
    rw [List.drop_append] at hreply
    rcases List.mem_append.mp hreply with hold | hnew
    · exact h.replied execution hexecution reply hold hid hhash
    · have hsent := List.mem_singleton.mp (List.mem_of_mem_drop hnew)
      subst hsent
      exact hone execution hexecution hid hhash
  · exact h

theorem LocalActionState.Tracks.store (h : state.Tracks options) {after : RunnerStore}
    (hkept : ∀ result ∈ state.results,
      LocalReceiptKept options state.clock result.requestId state.store.data after.data) :
    LocalActionState.Tracks options { state with store := after } := by
  refine { h with kept := ?_ }
  intro result hresult
  refine ⟨(h.kept result hresult).1, fun hfresh => ?_⟩
  exact hkept result hresult _ ((h.kept result hresult).2 hfresh) hfresh

theorem LocalActionState.Tracks.read (h : state.Tracks options) (written : Bool) :
    LocalActionState.Tracks options
      { state with store := (state.store.pruneReceipts options ⟨state.clock, written⟩).state } := by
  apply h.store
  intro result _
  have hdata : (state.store.pruneReceipts options ⟨state.clock, written⟩).state.data =
      state.store.data.prune options state.clock := RunnerStore.pruneReceipts_data _
  rw [hdata]
  exact (LocalReceiptKept.of_eq rfl).prune

theorem LocalActionState.Tracks.execute (h : state.Tracks options) (delivery : LocalActionDelivery)
    (hnew : state.records.get? delivery.requestId = none) :
    LocalActionState.Tracks options { state with
      records := state.records.set delivery.requestId
        (.pending delivery.payloadHash delivery.requestPayload)
      running := state.running ++ [delivery]
      executed := state.executed ++
        [{ toLocalActionDelivery := delivery, sentBefore := state.replies.length }] } := by
  have hother : ∀ {requestId : String} {record : LocalActionRecord},
      state.records.get? requestId = some record → requestId ≠ delivery.requestId := by
    intro requestId record hrecord heq
    rw [heq, hnew] at hrecord
    cases hrecord
  have hset : ∀ {requestId : String} {record : LocalActionRecord},
      state.records.get? requestId = some record →
      (state.records.set delivery.requestId
        (.pending delivery.payloadHash delivery.requestPayload)).get? requestId = some record :=
    fun hrecord => (Dict.get?_set_of_ne _ _ (hother hrecord)).trans hrecord
  constructor
  · constructor
    · -- the id has no record, so it was not executed
      change (List.map _ (state.executed ++ [_])).Nodup
      rw [List.map_append]
      apply h.once.append (List.nodup_singleton _)
      intro requestId hmem hone
      rcases List.mem_map.mp hmem with ⟨execution, hexecution, rfl⟩
      rcases h.executed_recorded execution hexecution with ⟨record, hrecord, -⟩
      exact hother hrecord (List.mem_singleton.mp hone)
    · intro requestId payloadHash requestPayload hpending
      change Dict.get? (state.records.set _ _) requestId = _ at hpending
      rw [Dict.get?_set] at hpending
      split at hpending
      · rename_i heq
        cases hpending
        rw [heq]
        exact List.mem_append_right _ (List.mem_singleton_self _)
      · exact List.mem_append_left _ (h.pending _ _ _ hpending)
    · intro other hmem
      rcases h.awaited other hmem with ⟨executing, hexecuting, hid⟩ | ⟨record, hdone, hrecord⟩
      · exact Or.inl ⟨executing, List.mem_append_left _ hexecuting, hid⟩
      · exact Or.inr ⟨record, hdone, hset hrecord⟩
    · intro execution hmem
      rcases List.mem_append.mp hmem with hold | hone
      · rcases h.ended execution hold with hrunning | hresult
        · exact Or.inl (List.mem_append_left _ hrunning)
        · exact Or.inr hresult
      · rw [List.mem_singleton.mp hone]
        exact Or.inl (List.mem_append_right _ (List.mem_singleton_self _))
    · intro result hresult
      exact ⟨hset (h.kept result hresult).1, (h.kept result hresult).2⟩
    · intro execution hmem reply hreply hid hhash
      rcases List.mem_append.mp hmem with hold | hone
      · exact hset (h.replied execution hold reply hreply hid hhash)
      · -- nothing was sent since
        rw [List.mem_singleton.mp hone] at hreply
        change reply ∈ state.replies.drop state.replies.length at hreply
        rw [List.drop_length] at hreply
        cases hreply
    · exact h.missed
  · change (List.map _ (state.running ++ [_])).Nodup
    rw [List.map_append]
    apply h.running_nodup.append (List.nodup_singleton _)
    intro requestId hmem hone
    rcases List.mem_map.mp hmem with ⟨executing, hexecuting, rfl⟩
    exact hother (h.running_pending executing hexecuting) (List.mem_singleton.mp hone)
  · intro executing hmem
    rcases List.mem_append.mp hmem with hold | hone
    · exact hset (h.running_pending executing hold)
    · rw [List.mem_singleton.mp hone]
      exact Dict.get?_set_self _ _ _
  · intro requestId record hdone
    exact hset (h.completed requestId record hdone)
  · intro execution hmem
    rcases List.mem_append.mp hmem with hold | hone
    · rcases h.executed_recorded execution hold with ⟨record, hrecord, hhash⟩
      exact ⟨record, hset hrecord, hhash⟩
    · rw [List.mem_singleton.mp hone]
      exact ⟨_, Dict.get?_set_self _ _ _, rfl⟩

/-! ## Deliveries -/

theorem LocalActionState.existing_of_record {requestId : String} {record : LocalActionRecord}
    (h : state.records.get? requestId = some record) (options : StoreOptions) :
    state.existing options requestId = some record := by
  unfold LocalActionState.existing
  rw [h, Option.some_or]

theorem LocalActionState.Tracks.existing_executed (h : state.Tracks options)
    {execution : LocalActionExecution} (hexecution : execution ∈ state.executed)
    {record : LocalActionRecord}
    (hexisting : state.existing options execution.requestId = some record) :
    state.records.get? execution.requestId = some record ∧
      record.payloadHash = execution.payloadHash := by
  rcases h.executed_recorded execution hexecution with ⟨found, hfound, hhash⟩
  rw [LocalActionState.existing_of_record hfound] at hexisting
  cases hexisting
  exact ⟨hfound, hhash⟩

theorem LocalActionState.record_of_pending {requestId payloadHash : String} {requestPayload : Json}
    (h : state.existing options requestId = some (.pending payloadHash requestPayload)) :
    state.records.get? requestId = some (.pending payloadHash requestPayload) := by
  unfold LocalActionState.existing at h
  rcases Option.or_eq_some_iff.mp h with hrecord | ⟨-, hreceipt⟩
  · exact hrecord
  · rcases Option.map_eq_some_iff.mp hreceipt with ⟨receipt, -, heq⟩
    cases heq

theorem LocalActionState.Tracks.mismatch (h : state.Tracks options)
    {delivery : LocalActionDelivery}
    (hother : ∀ execution ∈ state.executed, delivery.requestId = execution.requestId →
      delivery.payloadHash ≠ execution.payloadHash) (emission : Emission) :
    (state.mismatch runtime texts delivery emission).Tracks options := by
  unfold LocalActionState.mismatch
  dsimp only
  split
  · apply h.send
    intro execution hexecution hid hhash
    exact absurd hhash (hother execution hexecution hid)
  · split
    · exact h
    · apply LocalActionState.Tracks.send
      · exact { h with awaited := h.awaited }
      · intro execution hexecution hid hhash
        exact absurd hhash (hother execution hexecution hid)

theorem LocalActionState.Tracks.wait (h : state.Tracks options) {delivery : LocalActionDelivery}
    (hrunning : ∃ executing ∈ state.running, executing.requestId = delivery.requestId) :
    LocalActionState.Tracks options { state with waiting := state.waiting ++ [delivery] } := by
  refine { h with awaited := ?_ }
  intro other hmem
  rcases List.mem_append.mp hmem with hold | hone
  · exact h.awaited other hold
  · rw [List.mem_singleton.mp hone]
    exact Or.inl hrunning

theorem LocalActionState.Tracks.deliver (h : state.Tracks runtime.options) (envelope : Envelope)
    (emission : Emission) (written : Bool)
    (hcondition : state.answerable runtime texts (.deliver envelope emission written)) :
    (state.deliver runtime texts envelope emission written).Tracks runtime.options := by
  have hread := h.read written
  unfold LocalActionState.deliver
  dsimp only
  split
  · rename_i hfailure
    split
    · rename_i hidentical
      exact absurd (hcondition hidentical) hfailure
    · exact hread
  · split
    · rename_i hnone
      unfold LocalActionState.existing at hnone
      exact hread.execute _ (Option.or_eq_none_iff.mp hnone).1
    · rename_i record hexisting
      split
      · split
        · rename_i payloadHash requestPayload _
          apply hread.wait
          exact ⟨_, h.pending _ _ _ (LocalActionState.record_of_pending hexisting), rfl⟩
        · rename_i settled _
          apply hread.send
          intro execution hexecution hid _
          rw [hid] at hexisting
          exact (h.existing_executed hexecution hexisting).1
      · rename_i hdiffers
        apply hread.mismatch
        intro execution hexecution hid hhash
        rw [hid] at hexisting
        exact hdiffers ((h.existing_executed hexecution hexisting).2.trans hhash.symm)

/-! ## The end of a dispatch -/

theorem RunnerStore.localReceipt_stored (store : RunnerStore) (options : StoreOptions) (now : Int)
    (written : Bool) (requestId : String) (record : SettledLocalActionRecord) :
    (store.setLocalActionReceipt options ⟨now, written⟩ requestId
      (record.receipt now)).state.data.localActionReceipts.get? requestId =
        some (record.receipt now) := by
  unfold RunnerStore.setLocalActionReceipt
  rw [RunnerStore.write_data]
  change ((store.data.localActionReceipts.set requestId _).filter _).get? requestId = _
  rw [Dict.get?_filter, Dict.get?_set_self]
  apply Option.filter_some_pos
  apply decide_eq_true
  change now - options.receiptRetentionMs ≤ now
  have hpos := options.receipt_retention_pos
  omega

theorem RunnerStore.localReceipt_others (store : RunnerStore) (options : StoreOptions)
    (moment : Moment) {written requestId : String} (hne : requestId ≠ written)
    (receipt : LocalActionReceipt) :
    LocalReceiptKept options moment.now requestId store.data
      (store.setLocalActionReceipt options moment written receipt).state.data := by
  unfold RunnerStore.setLocalActionReceipt
  rw [RunnerStore.write_data]
  apply LocalReceiptKept.prune
  apply LocalReceiptKept.of_eq
  exact Dict.get?_set_of_ne _ _ hne

theorem RunnerStore.localReceipt_failure (store : RunnerStore) (options : StoreOptions) (now : Int)
    (written : Bool) (requestId : String) (receipt : LocalActionReceipt) :
    (store.setLocalActionReceipt options ⟨now, written⟩ requestId receipt).failure = none ↔
      written = true := by
  cases written with
  | true => exact ⟨fun _ => rfl, fun _ => rfl⟩
  | false =>
    constructor
    · intro h
      cases h
    · intro h
      cases h

theorem LocalActionState.Tracks.settle (h : state.Tracks options) {index : Nat}
    {delivery : LocalActionDelivery} (hindex : state.running[index]? = some delivery)
    (outcome : LocalActionOutcome) (written : Bool)
    {completions : Dict String SettledLocalActionRecord}
    (hcompletions : ∀ requestId, completions.get? requestId =
      if written = true ∧ requestId = delivery.requestId then some (delivery.settledBy outcome)
      else state.completions.get? requestId)
    (hunawaited : written = false →
      ∀ other ∈ state.waiting, other.requestId ≠ delivery.requestId) :
    LocalActionState.Tracks options { state with
      running := state.running.eraseIdx index
      records := state.records.set delivery.requestId (.settled (delivery.settledBy outcome))
      store := (state.store.setLocalActionReceipt options ⟨state.clock, written⟩
        delivery.requestId ((delivery.settledBy outcome).receipt state.clock)).state
      results := state.results ++
        [{ toLocalActionDelivery := delivery, outcome, settledAt := state.clock }]
      completions } := by
  have hmem : delivery ∈ state.running := List.mem_of_getElem? hindex
  have hsub := List.eraseIdx_sublist state.running index
  have hpending := h.running_pending delivery hmem
  have hothers : ∀ executing ∈ state.running.eraseIdx index,
      executing.requestId ≠ delivery.requestId :=
    fun _ hexecuting => ne_of_mem_eraseIdx h.running_nodup hindex hexecuting
  -- a record that is already settled is another one
  have hset : ∀ {requestId : String} {record : SettledLocalActionRecord},
      state.records.get? requestId = some (.settled record) →
      requestId ≠ delivery.requestId ∧
        (state.records.set delivery.requestId (.settled (delivery.settledBy outcome))).get?
          requestId = some (.settled record) := by
    intro requestId record hrecord
    have hne : requestId ≠ delivery.requestId := by
      intro heq
      rw [heq, hpending] at hrecord
      cases hrecord
    exact ⟨hne, (Dict.get?_set_of_ne _ _ hne).trans hrecord⟩
  constructor
  · constructor
    · exact h.once
    · intro requestId payloadHash requestPayload hrecord
      change Dict.get? (state.records.set _ _) requestId = _ at hrecord
      rw [Dict.get?_set] at hrecord
      split at hrecord
      · cases hrecord
      · rename_i hne
        apply mem_eraseIdx_of_ne (h.pending _ _ _ hrecord)
        intro heq
        rw [hindex] at heq
        cases heq
        exact hne rfl
    · intro other hother
      rcases h.awaited other hother with ⟨executing, hexecuting, hid⟩ | ⟨record, hdone, hrecord⟩
      · by_cases heq : other.requestId = delivery.requestId
        · -- the delivery waits for this dispatch
          cases hwritten : written with
          | false => exact absurd heq (hunawaited hwritten other hother)
          | true =>
            refine Or.inr ⟨delivery.settledBy outcome, ?_, ?_⟩
            · change completions.get? other.requestId = _
              rw [hcompletions, if_pos ⟨hwritten, heq⟩]
            · change Dict.get? (state.records.set _ _) other.requestId = _
              rw [heq, Dict.get?_set_self]
        · refine Or.inl ⟨executing, ?_, hid⟩
          apply mem_eraseIdx_of_ne hexecuting
          intro hsame
          rw [hindex] at hsame
          cases hsame
          exact heq hid.symm
      · refine Or.inr ⟨record, ?_, (hset hrecord).2⟩
        change completions.get? other.requestId = _
        rw [hcompletions, if_neg (fun hboth => (hset hrecord).1 hboth.2)]
        exact hdone
    · intro execution hexecution
      rcases h.ended execution hexecution with hrunning | ⟨result, hresult, heq⟩
      · by_cases heq : execution.toLocalActionDelivery = delivery
        · exact Or.inr ⟨_, List.mem_append_right _ (List.mem_singleton_self _), heq.symm⟩
        · apply Or.inl
          apply mem_eraseIdx_of_ne hrunning
          intro hsame
          rw [hindex] at hsame
          exact heq (Option.some.inj hsame).symm
      · exact Or.inr ⟨result, List.mem_append_left _ hresult, heq⟩
    · intro result hresult
      rcases List.mem_append.mp hresult with hold | hone
      · have hrecord := hset (h.kept result hold).1
        refine ⟨hrecord.2, fun hfresh => ?_⟩
        have hreceipt := (h.kept result hold).2 hfresh
        exact RunnerStore.localReceipt_others state.store options ⟨state.clock, written⟩ hrecord.1
          _ _ hreceipt hfresh
      · rw [List.mem_singleton.mp hone]
        refine ⟨Dict.get?_set_self _ _ _, fun _ => ?_⟩
        exact RunnerStore.localReceipt_stored state.store options state.clock written
          delivery.requestId (delivery.settledBy outcome)
    · intro execution hexecution reply hreply hid hhash
      exact (hset (h.replied execution hexecution reply hreply hid hhash)).2
    · exact h.missed
  · exact h.running_nodup.sublist (hsub.map _)
  · intro executing hexecuting
    exact (Dict.get?_set_of_ne _ _ (hothers executing hexecuting)).trans
      (h.running_pending executing (hsub.subset hexecuting))
  · intro requestId record hdone
    change completions.get? requestId = some record at hdone
    rw [hcompletions] at hdone
    split at hdone
    · rename_i hboth
      cases hdone
      change Dict.get? (state.records.set _ _) requestId = _
      rw [hboth.2, Dict.get?_set_self]
    · exact (hset (h.completed requestId record hdone)).2
  · intro execution hexecution
    rcases h.executed_recorded execution hexecution with ⟨record, hrecord, hhash⟩
    by_cases heq : execution.requestId = delivery.requestId
    · refine ⟨.settled (delivery.settledBy outcome), ?_, ?_⟩
      · change Dict.get? (state.records.set _ _) execution.requestId = _
        rw [heq, Dict.get?_set_self]
      · rw [heq, hpending] at hrecord
        cases hrecord
        exact hhash
    · exact ⟨record, (Dict.get?_set_of_ne _ _ heq).trans hrecord, hhash⟩

theorem LocalActionState.Tracks.finish (h : state.Tracks runtime.options) {index : Nat}
    {delivery : LocalActionDelivery} (hindex : state.running[index]? = some delivery)
    {ending : DispatchEnd} {written : Bool}
    (hreported : ending.reported runtime.schemas texts delivery.requestPayload state.clock)
    (hunawaited : written = false →
      ∀ other ∈ state.waiting, other.requestId ≠ delivery.requestId) :
    (LocalActionState.finish runtime texts delivery ending written
      { state with running := state.running.eraseIdx index }).Tracks runtime.options := by
  have hsome := (dispatch_isSome runtime.schemas texts delivery.requestPayload state.clock
    ending).mpr hreported
  unfold LocalActionState.finish
  dsimp only
  split
  · rename_i hnone
    rw [hnone] at hsome
    cases hsome
  · rename_i outcome _
    split
    · rename_i hfailure
      rw [ne_eq, RunnerStore.localReceipt_failure, Bool.not_eq_true] at hfailure
      apply h.settle hindex outcome written _ hunawaited
      intro requestId
      rw [if_neg]
      intro hboth
      rw [hfailure] at hboth
      cases hboth.1
    · rename_i hfailure
      rw [not_not, RunnerStore.localReceipt_failure] at hfailure
      apply LocalActionState.Tracks.send
      · apply h.settle hindex outcome written _ hunawaited
        intro requestId
        rw [Dict.get?_set]
        simp only [hfailure, true_and]
      · intro execution _ hid _
        change Dict.get? (state.records.set _ _) execution.requestId = _
        rw [← hid, Dict.get?_set_self]

theorem LocalActionState.Tracks.resume (h : state.Tracks runtime.options) (index : Nat) :
    (state.step runtime texts (.resume index)).Tracks runtime.options := by
  unfold LocalActionState.step
  dsimp only
  split
  · exact h
  · split
    · exact h
    · rename_i delivery _ _ record hdone
      have hsub := List.eraseIdx_sublist state.waiting index
      have hmoved : LocalActionState.Tracks runtime.options
          { state with waiting := state.waiting.eraseIdx index } :=
        { h with awaited := fun other hother => h.awaited other (hsub.subset hother) }
      apply hmoved.send
      intro execution _ hid _
      rw [← hid]
      exact h.completed delivery.requestId record hdone

theorem LocalActionState.Tracks.step (h : state.Tracks runtime.options)
    (action : LocalActionAction) (hcondition : state.answerable runtime texts action) :
    (state.step runtime texts action).Tracks runtime.options := by
  cases action with
  | deliver envelope emission written => exact h.deliver envelope emission written hcondition
  | finish index ending written =>
    unfold LocalActionState.step
    dsimp only
    split
    · exact h
    · rename_i delivery hindex
      have hboth := hcondition delivery hindex
      exact h.finish hindex hboth.1 hboth.2
  | resume index => exact h.resume index
  | socket isOpen => exact { h with awaited := h.awaited }
  | elapse milliseconds =>
    refine { h with kept := ?_ }
    intro result hresult
    refine ⟨(h.kept result hresult).1, fun hfresh => (h.kept result hresult).2 ?_⟩
    change runtime.options.cutoff (state.clock + milliseconds) ≤ result.settledAt at hfresh
    change runtime.options.cutoff state.clock ≤ result.settledAt
    unfold StoreOptions.cutoff at hfresh ⊢
    omega
  | storeCall action written =>
    have hcall : ∀ call : StoreAction,
        (∀ requestId receipt, call ≠ .setLocalActionReceipt requestId receipt) →
        LocalActionState.Tracks runtime.options { state with
          store := (state.store.perform runtime ⟨state.clock, written⟩ call).state } := by
      intro call hother
      apply h.store
      intro result _
      exact RunnerStore.perform_localReceipt ⟨state.clock, written⟩ call result.requestId
        (hother result.requestId)
    cases action with
    | setLocalActionReceipt requestId receipt => exact h
    | _ => exact hcall _ (fun _ _ heq => nomatch heq)

/-! ## Every run -/

theorem LocalActionState.mismatch_only (runtime : Runtime) (texts : DispatchTexts)
    (state : LocalActionState) (delivery : LocalActionDelivery) (emission : Emission) :
    ∃ mismatchRecords replies, state.mismatch runtime texts delivery emission =
      { state with mismatchRecords, replies } := by
  unfold LocalActionState.mismatch
  dsimp only
  split
  · rw [LocalActionState.send_only]
    exact ⟨_, _, rfl⟩
  · split
    · exact ⟨_, _, rfl⟩
    · rw [LocalActionState.send_only]
      exact ⟨_, _, rfl⟩

theorem LocalActionState.deliver_guarded (runtime : Runtime) (texts : DispatchTexts)
    (state : LocalActionState) (envelope : Envelope) (emission : Emission) (written : Bool)
    {record : LocalActionRecord}
    (hexisting : state.existing runtime.options
      (localActionDelivery runtime.host envelope).requestId = some record) :
    (state.deliver runtime texts envelope emission written).executed = state.executed ∧
    (state.deliver runtime texts envelope emission written).records = state.records := by
  unfold LocalActionState.deliver
  dsimp only
  rw [hexisting]
  dsimp only
  split
  · split <;> exact ⟨rfl, rfl⟩
  · split
    · split
      · exact ⟨rfl, rfl⟩
      · rw [LocalActionState.send_only]
        exact ⟨rfl, rfl⟩
    · rcases LocalActionState.mismatch_only runtime texts _
        (localActionDelivery runtime.host envelope) emission with ⟨mismatchRecords, replies, heq⟩
      rw [heq]
      exact ⟨rfl, rfl⟩

theorem LocalActionState.Tracks.answers (h : state.Tracks runtime.options) :
    state.Answers runtime texts := by
  refine { h with guarded := ?_, answered := ?_, joined := ?_, resumed := ?_ }
  · intro envelope emission written record hexisting
    exact state.deliver_guarded runtime texts envelope emission written hexisting
  · intro envelope emission written record hexisting hhash hread
    refine ⟨(state.store.pruneReceipts runtime.options ⟨state.clock, written⟩).state, ?_⟩
    unfold LocalActionState.deliver
    dsimp only
    rw [hexisting]
    dsimp only
    have hpayload : (LocalActionRecord.settled record).payloadHash =
        (localActionDelivery runtime.host envelope).payloadHash := hhash
    rw [if_neg (not_not.mpr hread), if_pos hpayload]
  · intro envelope emission written requestPayload hexisting hread
    unfold LocalActionState.deliver
    dsimp only
    rw [hexisting]
    dsimp only
    have hpayload : (LocalActionRecord.pending (localActionDelivery runtime.host
        envelope).payloadHash requestPayload).payloadHash =
          (localActionDelivery runtime.host envelope).payloadHash := rfl
    rw [if_neg (not_not.mpr hread), if_pos hpayload]
  · intro index delivery hindex hover
    rcases h.awaited delivery (List.mem_of_getElem? hindex) with
      ⟨executing, hexecuting, hid⟩ | ⟨record, hdone, hrecord⟩
    · exact absurd hid (hover executing hexecuting)
    · refine ⟨record, hrecord, ?_⟩
      unfold LocalActionState.step
      dsimp only
      rw [hindex]
      dsimp only
      rw [hdone]

theorem LocalActionState.Tracks.stranded (h : state.Tracks runtime.options) {index : Nat}
    {delivery : LocalActionDelivery} (hindex : state.running[index]? = some delivery)
    {ending : DispatchEnd} {written : Bool}
    (hunreported : ¬ending.reported runtime.schemas texts delivery.requestPayload state.clock) :
    ¬(LocalActionState.finish runtime texts delivery ending written
      { state with running := state.running.eraseIdx index }).Ledger runtime.options := by
  intro hledger
  have hnone : dispatch runtime.schemas texts delivery.requestPayload state.clock ending = none := by
    rw [← dispatch_isSome, Option.not_isSome_iff_eq_none] at hunreported
    exact hunreported
  unfold LocalActionState.finish at hledger
  simp only [hnone] at hledger
  have hrecord := h.running_pending delivery (List.mem_of_getElem? hindex)
  have hrunning := hledger.pending _ _ _ hrecord
  exact ne_of_mem_eraseIdx h.running_nodup hindex hrunning rfl

theorem LocalActionState.Tracks.abandoned (h : state.Tracks runtime.options) {index : Nat}
    {delivery other : LocalActionDelivery} (hindex : state.running[index]? = some delivery)
    {ending : DispatchEnd}
    (hreported : ending.reported runtime.schemas texts delivery.requestPayload state.clock)
    (hother : other ∈ state.waiting) (hid : other.requestId = delivery.requestId) :
    ¬(LocalActionState.finish runtime texts delivery ending false
      { state with running := state.running.eraseIdx index }).Ledger runtime.options := by
  intro hledger
  rw [← dispatch_isSome] at hreported
  rcases Option.isSome_iff_exists.mp hreported with ⟨outcome, houtcome⟩
  have hfailure : (state.store.setLocalActionReceipt runtime.options ⟨state.clock, false⟩
      delivery.requestId ((delivery.settledBy outcome).receipt state.clock)).failure ≠ none := by
    rw [ne_eq, RunnerStore.localReceipt_failure]
    exact Bool.false_ne_true
  unfold LocalActionState.finish at hledger
  simp only [houtcome, if_pos hfailure] at hledger
  rcases hledger.awaited other hother with ⟨executing, hexecuting, hsame⟩ | ⟨record, hdone, -⟩
  · exact ne_of_mem_eraseIdx h.running_nodup hindex hexecuting (hsame.trans hid)
  · -- nothing resolved the completion before
    have hsettled := h.completed other.requestId record hdone
    rw [hid, h.running_pending delivery (List.mem_of_getElem? hindex)] at hsettled
    cases hsettled

theorem LocalActionState.Tracks.lost (h : state.Tracks runtime.options)
    (action : LocalActionAction) (hcondition : ¬state.answerable runtime texts action) :
    ¬(state.step runtime texts action).Answers runtime texts := by
  intro hanswers
  cases action with
  | deliver envelope emission written =>
    unfold LocalActionState.answerable at hcondition
    dsimp only at hcondition
    rw [Classical.not_imp] at hcondition
    have hmissed := hanswers.missed
    unfold LocalActionState.step LocalActionState.deliver at hmissed
    simp only [hcondition.2, hcondition.1, h.missed, ne_eq, not_false_eq_true, if_true] at hmissed
    cases hmissed
  | finish index ending written =>
    unfold LocalActionState.answerable at hcondition
    rw [not_forall] at hcondition
    rcases hcondition with ⟨delivery, hdelivery⟩
    rw [Classical.not_imp] at hdelivery
    have hledger := hanswers.toLedger
    unfold LocalActionState.step at hledger
    simp only [hdelivery.1] at hledger
    by_cases hreported :
        ending.reported runtime.schemas texts delivery.requestPayload state.clock
    · have hawaited := fun hall => hdelivery.2 ⟨hreported, hall⟩
      rw [imp_false, Classical.not_imp] at hawaited
      rcases hawaited with ⟨rfl, hsome⟩
      simp only [not_forall, not_not] at hsome
      rcases hsome with ⟨other, hother, hid⟩
      exact h.abandoned hdelivery.1 hreported hother hid hledger
    · exact h.stranded hdelivery.1 hreported hledger
  | resume index => exact hcondition trivial
  | socket isOpen => exact hcondition trivial
  | elapse milliseconds => exact hcondition trivial
  | storeCall action written => exact hcondition trivial

/-- Local actions are answered in exactly the runs whose steps are all answerable. -/
theorem local_actions_answered (runtime : Runtime) (texts : DispatchTexts) (store : RunnerStore)
    (clock : Int) (actions : List LocalActionAction) :
    Always (LocalActionState.step runtime texts) (LocalActionState.Answers runtime texts)
      (LocalActionState.start store clock) actions ↔
    Meets (LocalActionState.step runtime texts) (LocalActionState.answerable runtime texts)
      (LocalActionState.start store clock) actions := by
  have hstart : (LocalActionState.start store clock).Tracks runtime.options :=
    LocalActionState.Tracks.start store clock
  have hstep : ∀ (state : LocalActionState) action, state.Tracks runtime.options →
      state.answerable runtime texts action →
      (state.step runtime texts action).Tracks runtime.options :=
    fun state action h => h.step action
  constructor
  · apply meets_of_always hstep _ hstart
    exact fun state action h => h.lost action
  · intro hmeets
    apply (always_of_meets hstep hstart hmeets).mono
    exact fun state h => h.answers

/-! ## An executor that throws an empty message -/

def messageRuntime : Runtime :=
  { plainRuntime with
    schemas := { plainSchemas with
      localActionError := fun payload =>
        ((payload.field? "error").bind fun error => error.field? "message") != some (.str "") } }

def plainTexts : DispatchTexts := ⟨fun _ => "2026-01-01T00:00:00.000Z", fun _ => "Invalid input"⟩

def readRequest : Envelope :=
  ⟨"message-1", .obj (.cons "request_id" (.str "request-1")
    (.cons "action" (.str "local.filesystem.read") .nil))⟩

/-- The error of the executor cannot be reported, and the record stays pending. -/
theorem local_action_stranded :
    ¬Always (LocalActionState.step messageRuntime plainTexts)
      (LocalActionState.Answers messageRuntime plainTexts)
      (LocalActionState.start RunnerStore.fresh 0)
      [.socket true, .deliver readRequest .denied true,
        .finish 0 (.failed (.error "") none) true] := by
  rw [local_actions_answered]
  intro hmeets
  have hreported := (hmeets.2.2.1 _ rfl).1
  revert hreported
  change ¬(_ = true)
  decide

end HarnessControl.Connection
