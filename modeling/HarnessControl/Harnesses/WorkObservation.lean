import HarnessControl.Harnesses.ChildWork

/-!
# Observations of native work

What an adapter reports about the work of its session.  `#event` compares a report with the stored
record of the work, numbers it, and makes it the new record; custody that comes with a report is
compared with the custody of the parent.
-/

namespace HarnessControl.Harnesses

open HarnessControl.Library HarnessControl.Protocol HarnessControl.State

/-! ## Reports -/

structure NativeWorkObservation where
  workId : String
  nativeReference : String
  originTurnId : String
  parentWorkId : Option String
  kind : WorkKind
  background : Bool
  status : WorkStatus
  supportsCancel : Bool
  summary : Option String := none
  model : Option String := none
  progress : Option WorkProgress := none
  contentRef : Option Json := none

/-- `harnessNativeWorkObservationSchema`. -/
def NativeWorkObservation.valid (schemas : PayloadSchemas) (observation : NativeWorkObservation) :
    Bool :=
  identity observation.workId && identity observation.nativeReference &&
  identity observation.originTurnId && optionally identity observation.parentWorkId &&
  optionally (fun text => decide (utf16Length text ≤ 2048)) observation.summary &&
  optionally identity observation.model && optionally WorkProgress.valid observation.progress &&
  optionally schemas.contentReference observation.contentRef

/-- The record that the report becomes; a control of the work stays on it. -/
def NativeWorkObservation.record (observation : NativeWorkObservation)
    (previous : Option NativeWorkRecord) : NativeWorkRecord where
  workId := observation.workId
  nativeReference := observation.nativeReference
  originTurnId := observation.originTurnId
  parentWorkId := observation.parentWorkId
  kind := observation.kind
  background := observation.background
  status := observation.status
  supportsCancel := observation.supportsCancel
  summary := observation.summary
  model := observation.model
  progress := observation.progress
  contentRef := observation.contentRef
  revision := previous.elim 0 NativeWorkRecord.revision + 1
  control := previous.bind NativeWorkRecord.control

section Record

variable (observation : NativeWorkObservation) (previous : Option NativeWorkRecord)

@[simp] theorem record_workId : (observation.record previous).workId = observation.workId := rfl

@[simp] theorem record_status : (observation.record previous).status = observation.status := rfl

@[simp] theorem record_originTurnId :
    (observation.record previous).originTurnId = observation.originTurnId := rfl

end Record

structure WorkExecution where
  nativeReference : String
  originTurnId : String
  parentWorkId : Option String
  kind : WorkKind
deriving DecidableEq

def NativeWorkRecord.execution (work : NativeWorkRecord) : WorkExecution :=
  ⟨work.nativeReference, work.originTurnId, work.parentWorkId, work.kind⟩

def NativeWorkObservation.execution (observation : NativeWorkObservation) : WorkExecution :=
  ⟨observation.nativeReference, observation.originTurnId, observation.parentWorkId,
    observation.kind⟩

/-! ## Events of a work -/

def WorkKind.text : WorkKind → String
  | .agent => "agent"
  | .task => "task"
  | .command => "command"

def WorkStatus.text : WorkStatus → String
  | .running => "running"
  | .waiting => "waiting"
  | .completed => "completed"
  | .failed => "failed"
  | .cancelled => "cancelled"
  | .unknown => "unknown"

def WorkProgress.toJson (progress : WorkProgress) : Json :=
  .obj (JsonFields.ofList ([("total_tokens", .num progress.totalTokens),
    ("tool_uses", .num progress.toolUses), ("duration_ms", .num progress.durationMs)] ++
    textField "last_tool_name" progress.lastToolName))

def CancelControl.toJson (control : CancelControl) : Json :=
  .obj (JsonFields.ofList [("command_id", .str control.commandId),
    ("request_hash", .str control.requestHash), ("action", .str "cancel"),
    ("phase", .str (match control.phase with
      | .pending => "pending"
      | .accepted => "accepted"))])

def optionalField {α : Type} (key : String) (toJson : α → Json) (value : Option α) :
    List (String × Json) :=
  (value.map fun value => (key, toJson value)).toList

def NativeWorkRecord.toJson (work : NativeWorkRecord) : Json :=
  .obj (JsonFields.ofList ([("work_id", .str work.workId),
    ("native_reference", .str work.nativeReference), ("origin_turn_id", .str work.originTurnId)] ++
    textField "parent_work_id" work.parentWorkId ++
    [("kind", .str (WorkKind.text work.kind)), ("background", .bool work.background),
      ("status", .str (WorkStatus.text work.status)), ("supports_cancel", .bool work.supportsCancel)] ++
    textField "summary" work.summary ++ textField "model" work.model ++
    optionalField "progress" WorkProgress.toJson work.progress ++
    optionalField "content_ref" id work.contentRef ++ [("revision", .num work.revision)] ++
    optionalField "control" CancelControl.toJson work.control))

/-- The data of `native.work.updated`. -/
def updatedData (work : NativeWorkRecord) : Json :=
  .obj (JsonFields.ofList [("work", NativeWorkRecord.toJson work)])

/-- The data of `native.work.retired`; the retirement is the next revision of the work. -/
def retiredData (work : NativeWorkRecord) : Json :=
  .obj (JsonFields.ofList [("work_id", .str work.workId), ("revision", .num (work.revision + 1))])

/-- The event that `#event` makes; an empty turn id is left out. -/
def nextEvent (store : RunnerStore) (now : Int) (sessionId : String) (turnId : Option String)
    (eventType : String) (data : Json) : HarnessEvent where
  sessionId
  turnId := turnId.filter (· != "")
  sequence := store.data.nextEventSequence sessionId
  eventType
  createdAt := now
  data

/-! ## Comparison with the stored record -/

def LiveSession.ownsWork (session : LiveSession) : Bool :=
  session.nativeWorkOwnerAvailable == some true

def NativeWorkObservation.parent? (observation : NativeWorkObservation) (state : NativeWorkState) :
    Option NativeWorkRecord :=
  observation.parentWorkId.bind state.work?

/-- Why `#event` refuses a report of native work. -/
def observationProblem (session : LiveSession) (state : NativeWorkState) (turnId : Option String)
    (observation : NativeWorkObservation) : Option HarnessError :=
  let previous := state.items.get? observation.workId
  let parent := observation.parent? state
  firstError [
    errorIf (!session.ownsWork && (previous.isNone ||
        !(isNativeWorkTerminal observation.status) && observation.status != .unknown))
      "native_work_owner_unavailable"
      "A lost native owner may only reconcile retained work; it cannot admit active work.",
    errorIf (state.retired.get? observation.workId).isSome "native_work_retired"
      "A retired native execution cannot be reopened.",
    errorIf (previous.isNone && !(session.turnIds.contains observation.originTurnId) &&
        !(parent.any fun parent => parent.originTurnId == observation.originTurnId) ||
      (turnId.any fun turnId => turnId != "" && turnId != observation.originTurnId) ||
      observation.parentWorkId.any fun id => parent.isNone || id == observation.workId)
      "native_work_binding" "Native work requires an admitted origin and an owned parent.",
    errorIf (previous.any fun old => NativeWorkRecord.execution old != observation.execution)
      "native_work_binding" "A native execution's identity and origin cannot change.",
    errorIf (previous.any fun old => isNativeWorkTerminal old.status &&
        old.status != observation.status)
      "native_work_terminal" "Completed native work cannot return to an active state.",
    errorIf (observation.background && !session.adapter.sessionEvents ||
        observation.supportsCancel && !session.adapter.cancelNativeWork)
      "native_work_unsupported"
      "Native work cannot advertise unimplemented observation or cancellation ownership."]

/-- Why `#event` refuses the custody that comes with a report. -/
def custodyProblem (session : LiveSession) (state : NativeWorkState)
    (parent : Option NativeWorkRecord) (work : NativeWorkRecord) (proof : NativeWorkCustody) :
    Option HarnessError :=
  let root := session.nativeWorkRootReference.or session.nativeThreadId
  let held (field : NativeWorkCustody → String) : Option String :=
    match parent with
    | some parent => (state.custody.get? parent.workId).map field
    | none => root
  let retained := state.custody.get? work.workId
  firstError [
    errorIf (proof.source != session.driverKind || proof.workId != work.workId ||
        proof.nativeReference != work.nativeReference ||
        proof.originTurnId != work.originTurnId || proof.parentWorkId != work.parentWorkId ||
        work.kind != .agent || ((held (·.nativeReference)).all (· == "")) ||
        some proof.parentNativeReference != held (·.nativeReference) ||
        some proof.rootNativeReference != held (·.rootNativeReference))
      "native_work_custody_binding" "Child custody requires the admitted native parent and root.",
    errorIf (retained.any fun old =>
        { proof with nativeExecutionReference := old.nativeExecutionReference } != old ||
        old.nativeExecutionReference.isSome &&
        old.nativeExecutionReference != proof.nativeExecutionReference)
      "native_work_custody_binding" "An admitted child's custody cannot change.",
    errorIf ((retained.isNone || (retained.any fun old => old.nativeExecutionReference.isNone) &&
        proof.nativeExecutionReference.isSome) && !session.ownsWork)
      "native_work_custody_binding" "A lost execution owner cannot admit child custody."]

/-- The work state that a report leads to, with the new record of the work. -/
def observeWork (schemas : PayloadSchemas) (session : Option LiveSession)
    (state : Option NativeWorkState) (turnId : Option String)
    (observation : NativeWorkObservation) (custody : Option NativeWorkCustody) :
    Except OperationFailure (NativeWorkState × NativeWorkRecord) :=
  match session.filter (·.adapter.nativeWork), state with
  | some session, some state =>
    if !(observation.valid schemas) then .error (.store .invalid)
    else
      match observationProblem session state turnId observation with
      | some error => .error (.thrown error)
      | none =>
        let work := observation.record (state.items.get? observation.workId)
        if !(NativeWorkRecord.valid schemas work) then .error (.store .invalid)
        else
          let next := { state with items := state.items.set work.workId work }
          match custody with
          | none => .ok (next, work)
          | some proof =>
            if !proof.valid then .error (.store .invalid)
            else
              match custodyProblem session state (observation.parent? state) work proof with
              | some error => .error (.thrown error)
              | none =>
                .ok ({ next with custody := state.custody.set work.workId proof }, work)
  | _, _ => .error (.thrown ⟨"native_work_unsupported",
    "Native work requires the owning adapter's declared contract."⟩)

/-! ## What an admitted report shows -/

/-- A new record continues the work that it is about, or admits new work. -/
structure Continues (state : NativeWorkState) (work : NativeWorkRecord) : Prop where
  unretired : state.retired.get? work.workId = none
  follows : ∀ old ∈ state.items.get? work.workId,
    NativeWorkRecord.execution work = NativeWorkRecord.execution old ∧
    old.revision < work.revision ∧
    (isNativeWorkTerminal old.status = true → work.status = old.status)

/-- What the checks of `#event` show of a report that is admitted. -/
structure ObservedWork (session : LiveSession) (state : NativeWorkState)
    (work : NativeWorkRecord) : Prop where
  continues : Continues state work
  parent : ∀ id ∈ work.parentWorkId, ∃ parent, state.work? id = some parent
  origin : state.items.get? work.workId = none → work.originTurnId ∈ session.turnIds ∨
    ∃ id ∈ work.parentWorkId, ∃ parent, state.work? id = some parent ∧
      parent.originTurnId = work.originTurnId
  ownerless : session.ownsWork = false → (state.items.get? work.workId).isSome = true ∧
    (isNativeWorkTerminal work.status = true ∨ work.status = .unknown)

theorem observationProblem_none {session : LiveSession} {state : NativeWorkState}
    {turnId : Option String} {observation : NativeWorkObservation}
    (h : observationProblem session state turnId observation = none) :
    ObservedWork session state (observation.record (state.items.get? observation.workId)) := by
  unfold observationProblem at h
  simp only [firstError_eq_none, List.forall_mem_cons, errorIf_eq_none, Bool.or_eq_false_iff] at h
  rcases h with ⟨howner, hretired, ⟨⟨horigin, -⟩, hparent⟩, hexecution, hterminal, -⟩
  have hfound : ∀ id ∈ observation.parentWorkId, ∃ parent, state.work? id = some parent := by
    intro id hid
    rw [Option.mem_def] at hid
    rw [NativeWorkObservation.parent?, hid, Option.any_some, Option.bind_some,
      Bool.or_eq_false_iff] at hparent
    exact Option.isSome_iff_exists.mp (by simpa using hparent.1)
  refine ⟨⟨by simpa using hretired, ?_⟩, hfound, ?_, ?_⟩
  · intro old hold
    have hitem : state.items.get? observation.workId = some old := hold
    rw [hitem, Option.any_some] at hexecution hterminal
    rw [hitem]
    refine ⟨?_, Int.lt_succ _, fun hdone => ?_⟩
    · have hsame : NativeWorkRecord.execution old = observation.execution := by
        simpa using hexecution
      rw [hsame]
      rfl
    · rw [hdone, Bool.true_and] at hterminal
      have hstatus : old.status = observation.status := by simpa using hterminal
      exact hstatus.symm
  · intro hnew
    have hitem : state.items.get? observation.workId = none := hnew
    rw [hitem, Option.isNone_none, Bool.true_and, Bool.and_eq_false_iff] at horigin
    rcases horigin with hturn | hroot
    · exact Or.inl (by simpa using hturn)
    · right
      unfold NativeWorkObservation.parent? at hroot
      cases hid : observation.parentWorkId with
      | none => simp [hid] at hroot
      | some id =>
        rcases hfound id hid with ⟨parent, hparent'⟩
        rw [hid, Option.bind_some, hparent', Option.any_some] at hroot
        exact ⟨id, hid, parent, hparent', by simpa using hroot⟩
  · intro hlost
    rw [hlost, Bool.not_false, Bool.true_and, Bool.or_eq_false_iff, Bool.and_eq_false_iff] at howner
    rcases howner with ⟨hknown, hstatus⟩
    refine ⟨?_, ?_⟩
    · change (state.items.get? observation.workId).isSome = true
      rw [← Option.not_isNone, hknown]
      rfl
    · rcases hstatus with hdone | hunknown
      · exact Or.inl (by simpa using hdone)
      · exact Or.inr (by simpa using hunknown)

theorem observeWork_ok {schemas : PayloadSchemas} {session : Option LiveSession}
    {state : Option NativeWorkState} {turnId : Option String}
    {observation : NativeWorkObservation} {custody : Option NativeWorkCustody}
    {next : NativeWorkState} {work : NativeWorkRecord}
    (h : observeWork schemas session state turnId observation custody = .ok (next, work)) :
    ∃ owner before, session = some owner ∧ state = some before ∧
      next.items = before.items.set work.workId work ∧ next.retired = before.retired ∧
      ObservedWork owner before work := by
  unfold observeWork at h
  split at h
  · rename_i owner before howner
    have hsession : session = some owner := (Option.filter_eq_some_iff.mp howner).1
    split at h
    · cases h
    · split at h
      · cases h
      · rename_i hproblem
        have hobserved := observationProblem_none hproblem
        dsimp only at h
        split at h
        · cases h
        · split at h
          · cases h
            exact ⟨owner, before, hsession, rfl, rfl, rfl, hobserved⟩
          · split at h
            · cases h
            · split at h
              · cases h
              · cases h
                exact ⟨owner, before, hsession, rfl, rfl, rfl, hobserved⟩
  · cases h

end HarnessControl.Harnesses
