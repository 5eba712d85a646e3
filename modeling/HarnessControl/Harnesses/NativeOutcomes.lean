import HarnessControl.Harnesses.NativeInteractions

/-!
# Outcomes of native requests

A request that was announced is pending until its promise is settled, and the settlement goes with
one outcome event, unless the journal refuses a lost event.  This rests on two things that the
owner does not check itself: nothing settles a request while the event of its outcome is being
emitted, and a publication that fails has not been answered before it failed.
-/

namespace HarnessControl.Harnesses

open HarnessControl.Library HarnessControl.Protocol

/-! ## What an owner promises -/

/-- The event tells that the promise of the request was settled in this way. -/
def NativeEvent.tells (event : NativeEvent) (requestId : String) (settlement : Settlement) : Prop :=
  event.announces = false ∧ event.requestId = requestId ∧
  match event, settlement with
  | .approvalResolved response, .resolved (.approval decision feedback) =>
    response.decision = decision ∧ response.feedback = feedback
  | .inputResolved _ _ _, .resolved (.input _) => True
  | .lost _ _ reason, .rejected error => reason = lostReason error
  | _, _ => False

def Settlement.isRejected : Settlement → Bool
  | .resolved _ => false
  | .rejected _ => true

def InteractionState.settled (state : InteractionState) (requestId : String) : Prop :=
  requestId ∈ state.settlements.map Prod.fst

/-- Settlements and outcome events happen once for a request, and each event is consistent. -/
structure InteractionState.Consistent (state : InteractionState) : Prop where
  settlesOnce : (state.settlements.map Prod.fst).Nodup
  outcomeOnce : ((state.events.filter fun event => !event.announces).map
    NativeEvent.requestId).Nodup
  told : ∀ event ∈ state.events, event.announces = false →
    ∃ settlement, (event.requestId, settlement) ∈ state.settlements ∧
      event.tells event.requestId settlement
  /-- A request that was announced is settled or pending. -/
  announced : ∀ event ∈ state.events, event.announces = true →
    state.settled event.requestId ∨ ∃ request ∈ state.pending, request.id = event.requestId

/-- The contract of an owner, without exceptions. -/
structure InteractionState.Contract (owner : NativeOwner) (state : InteractionState) : Prop
    extends state.Consistent where
  recorded : ∀ requestId settlement, (requestId, settlement) ∈ state.settlements →
    (∃ event ∈ state.events, event.announces = true ∧ event.requestId = requestId) →
    ∃ event ∈ state.events, event.tells requestId settlement
  silent : ∀ publication ∈ state.published, publication.closed = false
  repeated : ∀ response ∈ state.accepted,
    state.resolved.get? response.requestId = some (owner.fingerprint response) →
    state.judge owner response = .repeated

/-- What an owner keeps: the journal may refuse a lost event, an approval that awaited the file
system may be published late, and a closed owner refuses every response. -/
structure InteractionState.Kept (owner : NativeOwner) (state : InteractionState) : Prop
    extends state.Consistent where
  recorded : ∀ requestId settlement, (requestId, settlement) ∈ state.settlements →
    (∃ event ∈ state.events, event.tells requestId settlement) ∨
      (settlement.isRejected = true ∧ requestId ∈ state.unrecorded)
  unrecorded : ∀ requestId ∈ state.unrecorded, ∀ event ∈ state.events,
    event.announces = false → event.requestId ≠ requestId
  silent : ∀ publication ∈ state.published, publication.closed = true →
    publication.located = true
  repeated : ∀ response ∈ state.accepted,
    state.resolved.get? response.requestId = some (owner.fingerprint response) →
    state.judge owner response =
      if state.closed then .refused responseBinding else .repeated
  /-- The timer of a pending request settles it, whether or not the event can be emitted. -/
  expiring : ∀ request ∈ state.pending, state.frames = [] → request.expires ≤ state.clock →
    ∀ thrown, ((state.step owner .expire).step owner (.emitted thrown)).settlements =
      state.settlements ++ [(request.id, .rejected expiredRequest)]

/-! ## Calls from inside an emission -/

def Verdict.accepts : Verdict → Bool
  | .accepted _ _ _ => true
  | _ => false

/-- No outcome is being emitted. -/
def InteractionState.unsettling (state : InteractionState) : Prop :=
  ∀ frame ∈ state.frames, frame.settles = false

/-- No call from inside the emission of an outcome settles the request again, and a publication
that throws was not answered from inside. -/
def InteractionState.undisturbed (owner : NativeOwner) (state : InteractionState) :
    InteractionAction → Prop
  | .respond response => (state.judge owner response).accepts = true → state.unsettling
  | .abort signal =>
    signal ∉ state.aborted → (∃ request ∈ state.pending, request.signal = signal) →
      state.unsettling
  | .close => state.pending.isSome = true → state.unsettling
  | .emitted (some _) =>
    ∀ request event frames, state.frames = .publishing request event :: frames →
      state.pending.isSome = true
  | _ => True

/-! ## Responses -/

/-- The response passes the binding check of an owner that is open. -/
def NativeOwner.admits (owner : NativeOwner) : NativeResponse → Bool
  | .approval response =>
    (owner.checkResponse false response.sessionId response.actorId response.turnId none).isNone
  | .input response =>
    (owner.checkResponse false response.sessionId response.actorId response.turnId
      response.requestScope).isNone

variable {owner : NativeOwner} {state : InteractionState}

theorem NativeOwner.checkResponse_closed (sessionId actorId : String)
    (turnId requestScope : Option String) :
    owner.checkResponse true sessionId actorId turnId requestScope = some responseBinding := by
  unfold NativeOwner.checkResponse
  rw [if_pos (Or.inl rfl)]

theorem InteractionState.judge_accepted {response : NativeResponse} {request : PendingRequest}
    {event : NativeEvent} {reply : NativeReply}
    (h : state.judge owner response = .accepted request event reply) :
    state.pending = some request ∧ event.tells request.id (.resolved reply) ∧
      owner.admits response = true := by
  cases response with
  | approval response =>
    unfold InteractionState.judge InteractionState.judgeApproval at h
    dsimp only at h
    split at h
    · cases h
    · rename_i hcheck
      have hadmits : owner.admits (.approval response) = true := by
        cases hclosed : state.closed with
        | true =>
          rw [hclosed, NativeOwner.checkResponse_closed] at hcheck
          cases hcheck
        | false =>
          rw [hclosed] at hcheck
          unfold NativeOwner.admits
          dsimp only
          rw [hcheck]
          rfl
      split at h
      · cases h
      · split at h
        · cases h
        · rename_i hpending
          split at h
          · cases h
          · split at h
            · cases h
            · rename_i hmatches
              split at h
              · cases h
              · cases h
                have hid : request.id = response.requestId := by
                  by_contra hne
                  exact hmatches (Or.inl hne)
                exact ⟨hpending, ⟨rfl, hid.symm, rfl, rfl⟩, hadmits⟩
  | input response =>
    unfold InteractionState.judge InteractionState.judgeInput at h
    dsimp only at h
    split at h
    · cases h
    · rename_i hcheck
      have hadmits : owner.admits (.input response) = true := by
        cases hclosed : state.closed with
        | true =>
          rw [hclosed, NativeOwner.checkResponse_closed] at hcheck
          cases hcheck
        | false =>
          rw [hclosed] at hcheck
          unfold NativeOwner.admits
          dsimp only
          rw [hcheck]
          rfl
      split at h
      · cases h
      · split at h
        · cases h
        · rename_i hpending
          split at h
          · cases h
          · split at h
            · cases h
            · split at h
              · cases h
              · cases h
                exact ⟨hpending, ⟨rfl, rfl, trivial⟩, hadmits⟩

theorem InteractionState.judge_remembered {response : NativeResponse}
    (hadmits : owner.admits response = true)
    (hremembered : state.resolved.get? response.requestId = some (owner.fingerprint response)) :
    state.judge owner response = if state.closed then .refused responseBinding else .repeated := by
  cases response with
  | approval response =>
    unfold InteractionState.judge InteractionState.judgeApproval
    dsimp only
    cases hclosed : state.closed with
    | true =>
      rw [NativeOwner.checkResponse_closed]
      rfl
    | false =>
      unfold NativeOwner.admits at hadmits
      rw [Option.isNone_iff_eq_none.mp hadmits]
      dsimp only
      have hsame : state.resolved.get? response.requestId =
        some (owner.fingerprint (.approval response)) := hremembered
      rw [if_pos hsame]
      rfl
  | input response =>
    unfold InteractionState.judge InteractionState.judgeInput
    dsimp only
    cases hclosed : state.closed with
    | true =>
      rw [NativeOwner.checkResponse_closed]
      rfl
    | false =>
      unfold NativeOwner.admits at hadmits
      rw [Option.isNone_iff_eq_none.mp hadmits]
      dsimp only
      have hsame : state.resolved.get? response.requestId =
        some (owner.fingerprint (.input response)) := hremembered
      rw [if_pos hsame]
      rfl

/-! ## The invariant -/

def NativeOwner.Drawn (owner : NativeOwner) (count : Nat) (id : String) : Prop :=
  ∃ drawn < count, id = "native-" ++ owner.uuid drawn

theorem NativeOwner.Drawn.succ {count : Nat} {id : String} (h : owner.Drawn count id) :
    owner.Drawn (count + 1) id := by
  rcases h with ⟨drawn, hlt, heq⟩
  exact ⟨drawn, by omega, heq⟩

theorem NativeOwner.not_drawn (owner : NativeOwner) (count : Nat) :
    ¬owner.Drawn count ("native-" ++ owner.uuid count) := by
  rintro ⟨drawn, hlt, heq⟩
  have hsame : owner.uuid count = owner.uuid drawn := (String.append_right_inj _).mp heq
  have hcount := owner.uuid_injective hsame
  omega

/-- What an open call of `emit` relies on. -/
def Frame.Sound (owner : NativeOwner) (current : Option Stage) (pending : Option PendingRequest) :
    Frame → Prop
  | .publishing request event =>
    event.announces = true ∧ event.requestId = request.id ∧
      current = some (.serving request.id) ∧ ∀ found ∈ pending, found = request
  | .resolving request event response reply =>
    pending = some request ∧ event.tells request.id (.resolved reply) ∧
      owner.admits response = true
  | .losing request _ => pending = some request

structure InteractionState.Tracks (owner : NativeOwner) (state : InteractionState) : Prop
    extends state.Consistent where
  recorded : ∀ requestId settlement, (requestId, settlement) ∈ state.settlements →
    (∃ event ∈ state.events, event.tells requestId settlement) ∨
      (settlement.isRejected = true ∧ requestId ∈ state.unrecorded)
  unrecorded : ∀ requestId ∈ state.unrecorded, state.settled requestId ∧
    ∀ event ∈ state.events, event.announces = false → event.requestId ≠ requestId
  silent : ∀ publication ∈ state.published, publication.closed = true →
    publication.located = true
  admitted : ∀ response ∈ state.accepted, owner.admits response = true
  frames : ∀ frame ∈ state.frames, frame.Sound owner state.current state.pending
  innermost : ∀ frame ∈ state.frames.tail, frame.settles = false
  pending : ∀ request ∈ state.pending,
    state.current = some (.serving request.id) ∧ ¬state.settled request.id
  serving : ∀ id, state.current = some (.serving id) → owner.Drawn state.drawn id ∧
    (state.settled id ∨ ∃ request ∈ state.pending, request.id = id)
  preparing : ∀ id signal params, state.current = some (.preparing id signal params) →
    owner.Drawn state.drawn id ∧ ¬state.settled id
  drawn : ∀ id, state.settled id → owner.Drawn state.drawn id

theorem InteractionState.Tracks.start (clock : Int) :
    (InteractionState.start clock).Tracks owner where
  settlesOnce := List.nodup_nil
  outcomeOnce := List.nodup_nil
  told := fun _ h => nomatch h
  announced := fun _ h => nomatch h
  recorded := fun _ _ h => nomatch h
  unrecorded := fun _ h => nomatch h
  silent := fun _ h => nomatch h
  admitted := fun _ h => nomatch h
  frames := fun _ h => nomatch h
  innermost := fun _ h => nomatch h
  pending := fun _ h => nomatch h
  serving := fun _ h => nomatch h
  preparing := fun _ _ _ h => nomatch h
  drawn := fun _ h => nomatch h

theorem InteractionState.Tracks.not_pending (h : state.Tracks owner)
    (hcurrent : ∀ id, state.current ≠ some (.serving id)) : state.pending = none := by
  cases hpending : state.pending with
  | none => rfl
  | some request => exact absurd (h.pending request hpending).1 (hcurrent request.id)

/-! ## Operations -/

theorem InteractionState.Tracks.leave (h : state.Tracks owner) (hframes : state.frames = [])
    (hpending : state.pending = none) : state.leave.Tracks owner := by
  refine { h with frames := ?_, pending := ?_, serving := ?_, preparing := ?_ }
  · intro frame hframe
    change frame ∈ state.frames at hframe
    rw [hframes] at hframe
    cases hframe
  · intro request hrequest
    change state.pending = some request at hrequest
    rw [hpending] at hrequest
    cases hrequest
  · intro id hcurrent
    cases hcurrent
  · intro id signal params hcurrent
    cases hcurrent

theorem InteractionState.Tracks.wait (h : state.Tracks owner) (hframes : state.frames = [])
    (hpending : state.pending = none) {request : PendingRequest} {event : NativeEvent}
    {located : Bool} (hdrawn : owner.Drawn state.drawn request.id)
    (hnew : ¬state.settled request.id) (hannounces : event.announces = true)
    (hid : event.requestId = request.id) (hopen : state.closed = true → located = true) :
    (state.wait request event located).Tracks owner := by
  unfold InteractionState.wait
  split
  · exact h.leave hframes hpending
  · refine { h with
      announced := ?_, silent := ?_, frames := ?_, innermost := ?_, pending := ?_, serving := ?_
      preparing := ?_ }
    · intro announced hmem hannounced
      rcases h.announced announced hmem hannounced with hsettled | ⟨found, hfound, -⟩
      · exact Or.inl hsettled
      · rw [hpending] at hfound
        cases hfound
    · intro publication hmem hclosed
      rcases List.mem_append.mp hmem with hold | hone
      · exact h.silent publication hold hclosed
      · rw [List.mem_singleton.mp hone] at hclosed ⊢
        exact hopen hclosed
    · intro frame hframe
      rw [List.mem_singleton.mp hframe]
      refine ⟨hannounces, hid, rfl, fun found hfound => ?_⟩
      exact (Option.some.inj hfound).symm
    · intro frame hframe
      cases hframe
    · intro found hfound
      cases hfound
      exact ⟨rfl, hnew⟩
    · intro id hcurrent
      cases hcurrent
      exact ⟨hdrawn, Or.inr ⟨request, rfl, rfl⟩⟩
    · intro id signal params hcurrent
      cases hcurrent

theorem InteractionState.Tracks.approve (h : state.Tracks owner) (hframes : state.frames = [])
    (hpending : state.pending = none) {id : String} (hdrawn : owner.Drawn state.drawn id)
    (hnew : ¬state.settled id) (signal : Nat) (params : ApprovalParams) (grantPath : String)
    {located : Bool} (hopen : state.closed = true → located = true) :
    (state.approve owner id signal params grantPath located).Tracks owner := by
  unfold InteractionState.approve
  dsimp only
  split
  · exact h.leave hframes hpending
  · exact h.wait hframes hpending hdrawn hnew rfl rfl hopen

theorem InteractionState.Tracks.draw (h : state.Tracks owner) (hcurrent : state.current = none) :
    InteractionState.Tracks owner { state with drawn := state.drawn + 1 } := by
  refine { h with serving := ?_, preparing := ?_, drawn := fun id hid => (h.drawn id hid).succ }
  · intro id hserving
    change state.current = _ at hserving
    rw [hcurrent] at hserving
    cases hserving
  · intro id signal params hpreparing
    change state.current = _ at hpreparing
    rw [hcurrent] at hpreparing
    cases hpreparing

theorem NativeOwner.bind_closed {nativeTurn : Option String} {binding : Option NativeBinding} :
    owner.bind true nativeTurn binding ≠ none := by
  unfold NativeOwner.bind
  split
  · exact Option.some_ne_none _
  · split
    · exact Option.some_ne_none _
    · rw [if_pos rfl]
      exact Option.some_ne_none _

theorem InteractionState.Tracks.operate (h : state.Tracks owner) (hframes : state.frames = [])
    (hcurrent : state.current = none) (nativeTurn : Option String) (call : NativeCall) :
    (state.operate owner nativeTurn call).Tracks owner := by
  have hpending : state.pending = none := by
    apply h.not_pending
    intro id hserving
    rw [hcurrent] at hserving
    cases hserving
  have hdraw := h.draw hcurrent
  have hdrawn : owner.Drawn (state.drawn + 1) ("native-" ++ owner.uuid state.drawn) :=
    ⟨state.drawn, by omega, rfl⟩
  have hnew : ¬state.settled ("native-" ++ owner.uuid state.drawn) := fun hsettled =>
    owner.not_drawn state.drawn (h.drawn _ hsettled)
  unfold InteractionState.operate
  dsimp only
  split
  · exact h.leave hframes hpending
  · exact h.leave hframes hpending
  · exact h.leave hframes hpending
  · exact h.leave hframes hpending
  all_goals
    rename_i hadmitted _
    have hopen : state.closed = true → False := by
      intro hclosed
      rw [hclosed] at hadmitted
      exact NativeOwner.bind_closed (Option.or_eq_none_iff.mp hadmitted).1
  · split
    · exact hdraw.approve hframes hpending hdrawn hnew _ _ _ fun hclosed => (hopen hclosed).elim
    · refine { hdraw with frames := ?_, pending := ?_, serving := ?_, preparing := ?_ }
      · intro frame hframe
        change frame ∈ state.frames at hframe
        rw [hframes] at hframe
        cases hframe
      · intro request hrequest
        change state.pending = some request at hrequest
        rw [hpending] at hrequest
        cases hrequest
      · intro id hserving
        cases hserving
      · intro id signal params hpreparing
        cases hpreparing
        exact ⟨hdrawn, hnew⟩
  · split
    · exact h.leave hframes hpending
    · exact hdraw.wait hframes hpending hdrawn hnew rfl rfl fun hclosed => (hopen hclosed).elim
  · exact hdraw.wait hframes hpending hdrawn hnew rfl rfl fun hclosed => (hopen hclosed).elim

/-! ## Emissions -/

theorem InteractionState.Tracks.push (h : state.Tracks owner) {frame : Frame}
    (hsound : frame.Sound owner state.current state.pending) (hunsettling : state.unsettling) :
    InteractionState.Tracks owner { state with frames := frame :: state.frames } := by
  refine { h with frames := ?_, innermost := hunsettling }
  intro other hother
  rcases List.mem_cons.mp hother with rfl | hmem
  · exact hsound
  · exact h.frames other hmem

theorem InteractionState.Tracks.pop (h : state.Tracks owner) {frame : Frame} {frames : List Frame}
    (hframes : state.frames = frame :: frames) :
    InteractionState.Tracks owner { state with frames } := by
  have htail : ∀ inner ∈ frames, inner.settles = false := by
    have hinnermost := h.innermost
    rw [hframes, List.tail_cons] at hinnermost
    exact hinnermost
  have hinner : ∀ inner ∈ frames.tail, inner.settles = false :=
    fun inner hmem => htail inner (List.mem_of_mem_tail hmem)
  refine { h with frames := ?_, innermost := hinner }
  intro inner hinner
  apply h.frames
  rw [hframes]
  exact List.mem_cons_of_mem frame hinner

theorem InteractionState.Tracks.published (h : state.Tracks owner) {request : PendingRequest}
    {event : NativeEvent} {frames : List Frame}
    (hframes : state.frames = .publishing request event :: frames) :
    InteractionState.Tracks owner { state with frames, events := state.events ++ [event] } := by
  have hsound := h.frames (.publishing request event) (by rw [hframes]; exact List.mem_cons_self)
  rcases hsound with ⟨hannounces, hid, hcurrent, -⟩
  have hpopped := h.pop hframes
  have hfilter : (state.events ++ [event]).filter (fun event => !event.announces) =
      state.events.filter fun event => !event.announces := by
    rw [List.filter_append, List.filter_singleton, hannounces]
    exact List.append_nil _
  refine { hpopped with
    outcomeOnce := ?_, told := ?_, announced := ?_, recorded := ?_, unrecorded := ?_ }
  · change ((List.filter _ (state.events ++ [event])).map _).Nodup
    rw [hfilter]
    exact h.outcomeOnce
  · intro other hmem hother
    rcases List.mem_append.mp hmem with hold | hone
    · exact h.told other hold hother
    · rw [List.mem_singleton.mp hone, hannounces] at hother
      cases hother
  · intro other hmem hother
    rcases List.mem_append.mp hmem with hold | hone
    · exact h.announced other hold hother
    · rw [List.mem_singleton.mp hone, hid]
      exact (h.serving request.id hcurrent).2
  · intro requestId settlement hmem
    rcases h.recorded requestId settlement hmem with ⟨other, hother, htells⟩ | hrefused
    · exact Or.inl ⟨other, List.mem_append_left _ hother, htells⟩
    · exact Or.inr hrefused
  · intro requestId hmem
    refine ⟨(h.unrecorded requestId hmem).1, fun other hother houtcome => ?_⟩
    rcases List.mem_append.mp hother with hold | hone
    · exact (h.unrecorded requestId hmem).2 other hold houtcome
    · rw [List.mem_singleton.mp hone, hannounces] at houtcome
      cases houtcome

theorem InteractionState.Tracks.outcome (h : state.Tracks owner) {request : PendingRequest}
    {frame : Frame} {frames : List Frame} (hframes : state.frames = frame :: frames)
    (hpending : state.pending = some request) {settlement : Settlement}
    {event : Option NativeEvent} (htells : ∀ e ∈ event, e.tells request.id settlement)
    (hrefused : event = none → settlement.isRejected = true) (resolved : Dict String String)
    {accepted : List NativeResponse}
    (haccepted : ∀ response ∈ accepted, owner.admits response = true) :
    InteractionState.Tracks owner
      (InteractionState.settle request.id settlement { state with
        frames
        events := state.events ++ event.toList
        unrecorded := state.unrecorded ++ if event.isNone then [request.id] else []
        resolved, accepted }) := by
  have hpopped := h.pop hframes
  have hserved := h.pending request hpending
  have hunsettled : ∀ e ∈ state.events, e.announces = false → e.requestId ≠ request.id := by
    intro e he houtcome heq
    rcases h.told e he houtcome with ⟨found, hfound, -⟩
    rw [heq] at hfound
    exact hserved.2 (List.mem_map_of_mem hfound)
  have hmap : (state.settlements ++ [(request.id, settlement)]).map Prod.fst =
      state.settlements.map Prod.fst ++ [request.id] := by
    rw [List.map_append]
    rfl
  have hsettled : ∀ id, InteractionState.settled (InteractionState.settle request.id settlement
      state) id ↔ state.settled id ∨ id = request.id := by
    intro id
    unfold InteractionState.settled InteractionState.settle
    rw [hmap, List.mem_append, List.mem_singleton]
  constructor
  · constructor
    · change ((state.settlements ++ [(request.id, settlement)]).map Prod.fst).Nodup
      rw [hmap]
      apply h.settlesOnce.append (List.nodup_singleton _)
      intro id hid hone
      rw [List.mem_singleton.mp hone] at hid
      exact hserved.2 hid
    · change ((List.filter _ (state.events ++ event.toList)).map _).Nodup
      rw [List.filter_append, List.map_append]
      cases event with
      | none => exact h.outcomeOnce.append List.nodup_nil fun _ _ hnone => nomatch hnone
      | some e =>
        have he := htells e rfl
        rw [Option.toList_some, List.filter_singleton, he.1]
        apply h.outcomeOnce.append (List.nodup_singleton _)
        intro id hid hone
        rcases List.mem_map.mp hid with ⟨other, hother, rfl⟩
        rw [List.mem_filter, Bool.not_eq_true'] at hother
        exact hunsettled other hother.1 hother.2 ((List.mem_singleton.mp hone).trans he.2.1)
    · intro e he houtcome
      rcases List.mem_append.mp he with hold | hone
      · rcases h.told e hold houtcome with ⟨found, hfound, htold⟩
        exact ⟨found, List.mem_append_left _ hfound, htold⟩
      · rw [Option.mem_toList] at hone
        have hnew := htells e hone
        rw [hnew.2.1]
        exact ⟨settlement, List.mem_append_right _ (List.mem_singleton_self _), hnew⟩
    · intro e he hannounces
      rcases List.mem_append.mp he with hold | hone
      · left
        apply (hsettled e.requestId).mpr
        rcases h.announced e hold hannounces with hbefore | ⟨found, hfound, hid⟩
        · exact Or.inl hbefore
        · rw [hpending] at hfound
          cases hfound
          exact Or.inr hid.symm
      · rw [Option.mem_toList] at hone
        have hnot := (htells e hone).1
        rw [hannounces] at hnot
        cases hnot
  · intro id found hfound
    rcases List.mem_append.mp hfound with hold | hone
    · rcases h.recorded id found hold with ⟨e, he, htold⟩ | hold
      · exact Or.inl ⟨e, List.mem_append_left _ he, htold⟩
      · exact Or.inr ⟨hold.1, List.mem_append_left _ hold.2⟩
    · cases List.mem_singleton.mp hone
      cases event with
      | none => exact Or.inr ⟨hrefused rfl, List.mem_append_right _ (List.mem_singleton_self _)⟩
      | some e =>
        exact Or.inl ⟨e, List.mem_append_right _ (List.mem_singleton_self _), htells e rfl⟩
  · intro id hid
    rcases List.mem_append.mp hid with hold | hone
    · refine ⟨(hsettled id).mpr (Or.inl (h.unrecorded id hold).1), fun e he houtcome heq => ?_⟩
      rcases List.mem_append.mp he with hbefore | hnew
      · exact (h.unrecorded id hold).2 e hbefore houtcome heq
      · rw [Option.mem_toList] at hnew
        apply hserved.2
        rw [← (htells e hnew).2.1, heq]
        exact (h.unrecorded id hold).1
    · cases event with
      | none =>
        cases List.mem_singleton.mp hone
        refine ⟨(hsettled request.id).mpr (Or.inr rfl), fun e he houtcome => ?_⟩
        rcases List.mem_append.mp he with hbefore | hnew
        · exact hunsettled e hbefore houtcome
        · cases hnew
      | some e => cases hone
  · exact h.silent
  · exact haccepted
  · -- the calls around this one publish the request
    intro inner hinner
    have hsound := hpopped.frames inner hinner
    have hpublishing := h.innermost inner (by rw [hframes]; exact hinner)
    cases inner with
    | publishing found requested =>
      exact ⟨hsound.1, hsound.2.1, hsound.2.2.1, fun _ hnone => nomatch hnone⟩
    | resolving found resolvedEvent response reply => cases hpublishing
    | losing found error => cases hpublishing
  · exact hpopped.innermost
  · intro found hnone
    cases hnone
  · intro id hcurrent
    refine ⟨(h.serving id hcurrent).1, Or.inl ?_⟩
    apply (hsettled id).mpr
    rcases (h.serving id hcurrent).2 with hbefore | ⟨found, hfound, hid⟩
    · exact Or.inl hbefore
    · rw [hpending] at hfound
      cases hfound
      exact Or.inr hid.symm
  · intro id signal params hcurrent
    change state.current = _ at hcurrent
    rw [hserved.1] at hcurrent
    cases hcurrent
  · intro id hid
    rcases (hsettled id).mp hid with hbefore | rfl
    · exact h.drawn id hbefore
    · exact (h.serving request.id hserved.1).1

theorem InteractionState.Tracks.emitted (h : state.Tracks owner) (thrown : Option NativeError)
    (hcondition : state.undisturbed owner (.emitted thrown)) :
    (state.emitted owner thrown).Tracks owner := by
  cases hframes : state.frames with
  | nil =>
    unfold InteractionState.emitted
    rw [hframes]
    exact h
  | cons frame frames =>
    have hsound := h.frames frame (by rw [hframes]; exact List.mem_cons_self)
    have hinnermost := h.innermost
    rw [hframes, List.tail_cons] at hinnermost
    unfold InteractionState.emitted
    rw [hframes]
    cases frame with
    | publishing request event =>
      cases thrown with
      | none => exact h.published hframes
      | some error =>
        -- the request is still pending, so that it can be lost
        have hpending := hcondition request event frames hframes
        rcases Option.isSome_iff_exists.mp hpending with ⟨found, hfound⟩
        have hsame : found = request := hsound.2.2.2 found hfound
        rw [hsame] at hfound
        exact (h.pop hframes).push hfound hinnermost
    | resolving request event response reply =>
      cases thrown with
      | none =>
        have haccepted : ∀ other ∈ state.accepted ++ [response],
            owner.admits other = true := by
          intro other hother
          rcases List.mem_append.mp hother with hold | hone
          · exact h.admitted other hold
          · rw [List.mem_singleton.mp hone]
            exact hsound.2.2
        have htells : ∀ e ∈ some event, e.tells request.id (.resolved reply) := by
          intro e he
          cases he
          exact hsound.2.1
        have hrefused : some event = none → (Settlement.resolved reply).isRejected = true :=
          fun hnone => nomatch hnone
        have hout := h.outcome hframes hsound.1 htells hrefused
          (remember state.resolved request.id (owner.fingerprint response)) haccepted
        simp only [Option.isNone_some, Bool.false_eq_true, if_false, List.append_nil,
          Option.toList_some] at hout
        exact hout
      | some error => exact h.pop hframes
    | losing request error =>
      have hrefused : (Settlement.rejected error).isRejected = true := rfl
      cases thrown with
      | none =>
        have htells : ∀ e ∈ some (lostEvent request error),
            e.tells request.id (.rejected error) := by
          intro e he
          cases he
          exact ⟨rfl, rfl, rfl⟩
        have hout := h.outcome hframes hsound htells (fun _ => hrefused) state.resolved
          h.admitted
        simp only [Option.isNone_some, Bool.false_eq_true, if_false, List.append_nil,
          Option.toList_some] at hout
        exact hout
      | some thrown =>
        have htells : ∀ e ∈ (none : Option NativeEvent),
            e.tells request.id (.rejected error) := by
          intro e he
          cases he
        have hout := h.outcome hframes hsound htells (fun _ => hrefused) state.resolved
          h.admitted
        simp only [Option.isNone_none, if_true, Option.toList_none, List.append_nil] at hout
        exact hout

/-! ## Every run -/

theorem InteractionState.Tracks.step (h : state.Tracks owner) (action : InteractionAction)
    (hcondition : state.undisturbed owner action) : (state.step owner action).Tracks owner := by
  cases action with
  | request call =>
    unfold InteractionState.step InteractionState.request
    dsimp only
    split
    · split <;> exact { h with told := h.told }
    · split
      · exact h
      · exact { h with told := h.told }
    · exact h
  | begin nativeTurn =>
    unfold InteractionState.step
    dsimp only
    split
    · rename_i call queue hframes hcurrent _
      have hqueue : InteractionState.Tracks owner { state with queue } :=
        { h with told := h.told }
      exact hqueue.operate hframes hcurrent nativeTurn call
    · exact h
  | located grantPath =>
    unfold InteractionState.step
    dsimp only
    split
    · rename_i id signal params path hframes hcurrent
      have hprepared := h.preparing id signal params hcurrent
      have hpending : state.pending = none := by
        apply h.not_pending
        intro other hserving
        rw [hcurrent] at hserving
        cases hserving
      exact h.approve hframes hpending hprepared.1 hprepared.2 signal params path fun _ => rfl
    · rename_i id signal params hframes hcurrent
      apply h.leave hframes
      apply h.not_pending
      intro other hserving
      rw [hcurrent] at hserving
      cases hserving
    · exact h
  | finish =>
    unfold InteractionState.step
    dsimp only
    split
    · rename_i id hframes hcurrent
      split
      · rename_i hsettled
        apply h.leave hframes
        cases hpending : state.pending with
        | none => rfl
        | some request =>
          have hserved := h.pending request hpending
          rw [hcurrent] at hserved
          cases hserved.1
          exact absurd hsettled hserved.2
      · exact h
    · exact h
  | respond response =>
    unfold InteractionState.step InteractionState.respond
    dsimp only
    split
    · exact h
    · exact h
    · rename_i request event reply hjudge
      have hanswer := InteractionState.judge_accepted hjudge
      refine h.push hanswer (hcondition ?_)
      rw [hjudge]
      rfl
  | emitted thrown => exact h.emitted thrown hcondition
  | abort signal =>
    unfold InteractionState.step
    dsimp only
    split
    · exact h
    · rename_i hfirst
      have haborted : InteractionState.Tracks owner
          { state with aborted := state.aborted ++ [signal] } := { h with told := h.told }
      split
      · rename_i request hpending
        split
        · rename_i hsignal
          exact haborted.push hpending (hcondition hfirst ⟨request, hpending, hsignal⟩)
        · exact haborted
      · exact haborted
  | expire =>
    unfold InteractionState.step
    dsimp only
    split
    · rename_i request hframes hpending
      split
      · have hsound : Frame.Sound owner state.current state.pending
            (.losing request expiredRequest) := hpending
        apply h.push hsound
        intro frame hframe
        rw [hframes] at hframe
        cases hframe
      · exact h
    · exact h
  | close =>
    have hclosed : InteractionState.Tracks owner { state with closed := true } :=
      { h with told := h.told }
    unfold InteractionState.step
    dsimp only
    split
    · rename_i request hpending
      have hsound : Frame.Sound owner state.current state.pending
          (.losing request closedRequest) := hpending
      apply hclosed.push hsound
      apply hcondition
      exact Option.isSome_iff_exists.mpr ⟨request, hpending⟩
    · exact hclosed
  | elapse milliseconds => exact { h with told := h.told }

theorem InteractionState.Tracks.kept (h : state.Tracks owner) : state.Kept owner := by
  refine { h with unrecorded := fun id hid => (h.unrecorded id hid).2, repeated := ?_, expiring := ?_ }
  · intro response hresponse hremembered
    exact InteractionState.judge_remembered (h.admitted response hresponse) hremembered
  · intro request hpending hframes hexpired thrown
    have hfail : state.step owner .expire = state.fail request expiredRequest := by
      unfold InteractionState.step
      rw [hframes, show state.pending = some request from hpending]
      dsimp only
      rw [if_pos hexpired]
    rw [hfail]
    unfold InteractionState.step InteractionState.emitted InteractionState.fail
    cases thrown with
    | none => rfl
    | some error => rfl

/-- An owner keeps the outcomes of its requests in every run that no call disturbs. -/
theorem native_outcomes_kept (owner : NativeOwner) (clock : Int) (actions : List InteractionAction)
    (hundisturbed : Meets (InteractionState.step owner) (InteractionState.undisturbed owner)
      (InteractionState.start clock) actions) :
    Always (InteractionState.step owner) (InteractionState.Kept owner)
      (InteractionState.start clock) actions := by
  have hstart : (InteractionState.start clock).Tracks owner := InteractionState.Tracks.start clock
  apply (always_of_meets (fun state action h => h.step action) hstart hundisturbed).mono
  exact fun state h => h.kept

/-- An owner in an admitted turn, whose identities are numbered. -/
def plainOwner : NativeOwner :=
  { sessionId := "session-1", turnId := some "turn-1", threadId := "thread-1"
    sandboxMode := "danger_full_access", executionProfile := none, firstTurn := none
    sha256 := id, fingerprint := fun response => response.requestId
    admitsFeedback := fun _ => true
    uuid := fun drawn => String.ofList (List.replicate drawn 'a')
    uuid_injective := by
      intro first second h
      have hlists := String.ofList_injective h
      exact (List.replicate_inj.mp hlists).1 }

def commandCall : NativeCall :=
  { binding := some ⟨"thread-1", some "turn-1", "item-1"⟩, identity := none, signal := 0
    request := .approval (some ⟨.command, "ls", none, false, none, false⟩) }

def acceptance : NativeResponse :=
  .approval ⟨"session-1", some "turn-1", "native-", "ls", "accept", none, "actor-1"⟩

/-- An approval is published and accepted, and its owner is closed. -/
def answeredRun : List InteractionAction :=
  [.request commandCall, .begin (some "turn-1"), .emitted none, .respond acceptance, .emitted none,
    .close]

theorem native_outcomes_kept_answered :
    Always (InteractionState.step plainOwner) (InteractionState.Kept plainOwner)
      (InteractionState.start 0) answeredRun := by
  apply native_outcomes_kept
  refine ⟨trivial, trivial, trivial, ?_, trivial, ?_, trivial⟩
  · intro _ frame hframe
    cases hframe
  · intro _ frame hframe
    cases hframe

/-- A closed owner refuses what it accepted before, and an owner whose journal is unavailable loses
a request without an event. -/
theorem native_contract_excepted :
    ¬Always (InteractionState.step plainOwner) (InteractionState.Contract plainOwner)
      (InteractionState.start 0) answeredRun ∧
    ¬Always (InteractionState.step plainOwner) (InteractionState.Contract plainOwner)
      (InteractionState.start 0)
      [.request commandCall, .begin (some "turn-1"), .emitted none, .close,
        .emitted (some (.thrown "Journal unavailable."))] := by
  constructor
  · intro h
    have hrepeated := h.last.repeated acceptance (List.mem_singleton_self _) rfl
    cases hrepeated
  · intro h
    rcases h.last.recorded _ _ (List.mem_singleton_self _)
      ⟨_, List.mem_singleton_self _, rfl, rfl⟩ with ⟨event, hevent, htells⟩
    cases List.mem_singleton.mp hevent
    cases htells.1

end HarnessControl.Harnesses
