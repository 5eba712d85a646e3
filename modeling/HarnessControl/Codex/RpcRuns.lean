import HarnessControl.Codex.RpcRequests

/-!
# Runs of the transport

Whatever the chunks, the messages that were handled are the first lines of the output.
-/

namespace HarnessControl.Codex

open HarnessControl.Library HarnessControl.Protocol

namespace CodexRpc

variable {parse : List Char → Option RpcMessage} {rpc : CodexRpc}

/-! ## Calls and requests -/

structure Tables (rpc : CodexRpc) : Prop where
  calls : rpc.calls.Kept rpc.failure rpc.handled
  ended : rpc.failure.isSome → ∀ id, rpc.calls.pending.get? id = none
  requests : rpc.requests.Kept
  replied : rpc.requests.Replied rpc.written

theorem Tables.of_eq (h : rpc.Tables) {other : CodexRpc} (hfailure : other.failure = rpc.failure)
    (hcalls : other.calls = rpc.calls) (hrequests : other.requests = rpc.requests)
    (hhandled : other.handled = rpc.handled) (hwritten : other.written = rpc.written) :
    other.Tables where
  calls := by
    rw [hfailure, hcalls, hhandled]
    exact h.calls
  ended := by
    rw [hfailure, hcalls]
    exact h.ended
  requests := by
    rw [hrequests]
    exact h.requests
  replied := by
    rw [hrequests, hwritten]
    exact h.replied

theorem Tables.fail (h : rpc.Tables) (error : RpcFailure) : (rpc.fail error).Tables := by
  unfold CodexRpc.fail
  by_cases hfailed : rpc.failure.isSome = true
  · rw [if_pos hfailed]
    exact h
  · rw [if_neg hfailed]
    have hnone : rpc.failure = none := by
      rwa [Bool.not_eq_true, Option.isSome_eq_false_iff, Option.isNone_iff_eq_none] at hfailed
    have hcalls := h.calls
    rw [hnone] at hcalls
    exact ⟨hcalls.fail error, fun _ _ => rfl, h.requests, h.replied⟩

theorem Tables.write (h : rpc.Tables) {message : RpcWritten}
    (hother : ∀ index, message.repliesTo index = false) : (rpc.write message).Tables :=
  ⟨h.calls, h.ended, h.requests, h.replied.write hother⟩

theorem Tables.request (h : rpc.Tables) (method : String) (params : Option Json)
    (signal : Option (Option String)) : (rpc.request method params signal).Tables := by
  unfold CodexRpc.request
  split
  · rename_i error hfailure
    exact ⟨h.calls.refuse (Or.inr (Or.inr ⟨error, hfailure, rfl⟩)), h.ended, h.requests,
      h.replied⟩
  · rename_i reason _
    exact ⟨h.calls.refuse (Or.inr (Or.inl ⟨reason, rfl, rfl⟩)), h.ended, h.requests, h.replied⟩
  · rename_i hfailure _
    refine ⟨h.calls.send _, ?_, h.requests, h.replied.write fun _ => rfl⟩
    intro hfailed
    change rpc.failure.isSome = true at hfailed
    rw [hfailure] at hfailed
    cases hfailed

theorem Tables.abort (h : rpc.Tables) (index : Nat) (reason : String) :
    Tables { rpc with calls := rpc.calls.abort index reason } :=
  ⟨h.calls.abort index reason,
    fun hfailed => rpc.calls.abort_pending (h.ended hfailed) index reason, h.requests, h.replied⟩

theorem Tables.handleRequest (h : rpc.Tables) (id : RpcId) (params : Option Json) :
    (rpc.handleRequest id params).Tables := by
  unfold CodexRpc.handleRequest
  by_cases hactive : id ∈ rpc.requests.active
  · rw [if_pos hactive]
    exact h.fail .repeatedRequest
  · rw [if_neg hactive]
    exact ⟨h.calls, h.ended, h.requests.start hactive params, h.replied.start id params⟩

theorem Tables.handlerFinished (h : rpc.Tables) (index : Nat) (outcome : Option (Option Json)) :
    (rpc.handlerFinished index outcome).Tables := by
  unfold CodexRpc.handlerFinished
  cases hrequest : rpc.requests.requests[index]? with
  | none => exact h
  | some request =>
    dsimp only
    by_cases hfinished : request.finished.isSome = true
    · rw [if_pos hfinished]
      exact h
    rw [if_neg hfinished]
    have hruns : request.finished = none := by
      rwa [Bool.not_eq_true, Option.isSome_eq_false_iff, Option.isNone_iff_eq_none] at hfinished
    have hkept := h.requests.finish hrequest hruns rpc.failure.isSome
    by_cases hlate : (rpc.failure.isSome || request.aborted) = true
    · -- nothing is written
      rw [if_pos hlate]
      refine ⟨h.calls, h.ended, hkept, ?_⟩
      have hreplied : (rpc.requests.finish index request.id rpc.failure.isSome).Replied
          (rpc.written ++ []) := by
        apply h.replied.finish hrequest hruns
        intro place
        rw [List.append_nil]
        have hnone : PeerRequest.replies
            { request with finished := some rpc.failure.isSome } = [] := by
          unfold PeerRequest.replies
          rw [if_neg]
          rintro ⟨hin, haborted⟩
          rw [Option.some.inj hin, haborted] at hlate
          cases hlate
        rw [hnone, ite_self, List.append_nil]
      rwa [List.append_nil] at hreplied
    · rw [if_neg hlate]
      rw [Bool.or_eq_true, not_or, Bool.not_eq_true, Bool.not_eq_true] at hlate
      obtain ⟨hopen, haborted⟩ := hlate
      have howed : PeerRequest.replies { request with finished := some rpc.failure.isSome } =
          [some request.id] := by
        unfold PeerRequest.replies
        rw [hopen, if_pos ⟨rfl, haborted⟩]
      have hreplied : ∀ message : RpcWritten, (∀ place, message.repliesTo place = (index == place)) →
          message.replyId = some request.id →
          (rpc.requests.finish index request.id rpc.failure.isSome).Replied
            (rpc.written ++ [message]) := by
        intro message hto hid
        apply h.replied.finish hrequest hruns
        intro place
        rw [repliesWritten_append, hto place, hid, howed]
        simp only [beq_iff_eq]
      cases outcome with
      | some result => exact ⟨h.calls, h.ended, hkept, hreplied _ (fun _ => rfl) rfl⟩
      | none =>
        apply fail
        refine ⟨h.calls, h.ended, hkept, hreplied _ (fun place => ?_) rfl⟩
        show (some index == some place) = _
        simp

theorem Tables.receive (h : rpc.Tables) (message : RpcMessage) (observed : Bool) :
    (rpc.receive message observed).1.Tables := by
  unfold CodexRpc.receive
  by_cases hfailed : rpc.failure.isSome = true
  · rw [if_pos hfailed]
    exact h
  rw [if_neg hfailed]
  have hheard : message.called.isSome ∨ (∀ id, message.id ≠ some (.num id)) →
      Tables { rpc with handled := rpc.handled ++ [message] } := by
    intro hno
    refine ⟨h.calls.heard ?_, h.ended, h.requests, h.replied⟩
    intro id hresponds
    unfold RpcMessage.responds at hresponds
    rw [Bool.and_eq_true, beq_iff_eq] at hresponds
    obtain hcalled | hid := hno
    · rw [Option.isSome_iff_ne_none] at hcalled
      exact absurd (Option.isNone_iff_eq_none.mp hresponds.1) hcalled
    · exact absurd hresponds.2 (hid id)
  cases hcalled : message.called with
  | some method =>
    have hother := hheard (Or.inl (by rw [hcalled]; rfl))
    cases hid : message.id with
    | some id =>
      dsimp only
      split
      · exact hother.handleRequest id message.params
      · exact (hother.write fun _ => rfl).fail .unsupportedRequest
    | none =>
      obtain ⟨hkept, hreplied⟩ := h.requests.aborts h.replied
        (rpc.requests.ended method message.params)
      exact ⟨hother.calls, hother.ended, hkept, hreplied⟩
  | none =>
    match hid : message.id with
    | some (.num id) =>
      have hresponds : message.responds id = true := by
        unfold RpcMessage.responds
        rw [hcalled, hid]
        simp
      refine ⟨h.calls.respond hresponds, fun hin => absurd hin hfailed, h.requests, h.replied⟩
    | some (.str name) => exact hheard (Or.inr fun id heq => nomatch hid.symm.trans heq)
    | none => exact hheard (Or.inr fun id heq => nomatch hid.symm.trans heq)

theorem Tables.invalid (h : rpc.Tables) : rpc.invalid.Tables :=
  (h.fail .invalidMessage).of_eq rfl rfl rfl rfl rfl

theorem Tables.round (h : rpc.Tables) (observed : Bool) : (rpc.round parse observed).Tables := by
  unfold CodexRpc.round
  split
  · split
    · exact h.invalid
    · dsimp only
      have hrest : ∀ rest, Tables { rpc with buffer := rest } :=
        fun rest => h.of_eq rfl rfl rfl rfl rfl
      split
      · exact (hrest _).invalid
      · split
        · exact ((hrest _).receive _ observed).invalid
        · exact (hrest _).receive _ observed
  · split
    · exact h.invalid
    · exact h.of_eq rfl rfl rfl rfl rfl

theorem Tables.step (h : rpc.Tables) (action : RpcAction) : (rpc.step parse action).Tables := by
  cases action with
  | data chunk =>
    show (if rpc.reading = true then rpc else rpc.data chunk).Tables
    split
    · exact h
    · exact h.of_eq rfl rfl rfl rfl rfl
  | round observed =>
    show (if rpc.reading = true then rpc.round parse observed else rpc).Tables
    split
    · exact h.round observed
    · exact h
  | request method params signal => exact h.request method params signal
  | abort index reason => exact h.abort index reason
  | notify method => exact h.write fun _ => rfl
  | handlerFinished index outcome => exact h.handlerFinished index outcome
  | setRequestHandler method =>
    show (if method ∈ rpc.handlers then rpc else _).Tables
    split
    · exact h
    · exact h.of_eq rfl rfl rfl rfl rfl
  | removeRequestHandler method => exact h.of_eq rfl rfl rfl rfl rfl
  | setSessionRequestHandler method =>
    show (if method ∈ rpc.sessionHandlers then rpc else _).Tables
    split
    · exact h
    · exact h.of_eq rfl rfl rfl rfl rfl
  | writeFailed => exact h.fail .transportClosed
  | processClosed => exact h.fail .processClosed

/-! ## The stream -/

/-- What stands on the lines of the output. -/
def messages (parse : List Char → Option RpcMessage) (output : List UInt8) :
    List (Option RpcMessage) :=
  (frames 10 output).map fun line => parse (Utf8.decode line)

theorem messages_eq (parse : List Char → Option RpcMessage) (output : List UInt8) :
    messages parse output = (frames '\n' (Utf8.emitted [] output)).map parse := by
  unfold messages
  rw [frames_emitted, List.map_map]
  rfl

/-- The lines that were taken from the buffer are those that were handled. -/
def Flows (parse : List Char → Option RpcMessage) (rpc : CodexRpc) : Prop :=
  ∃ lines, (∀ line ∈ lines, '\n' ∉ line) ∧
    Utf8.emitted [] rpc.output = unframe '\n' lines ++ rpc.buffer ∧
    rpc.handled.map some = lines.map parse

structure Streams (parse : List Char → Option RpcMessage) (rpc : CodexRpc) : Prop where
  decoder : rpc.decoder = Utf8.after [] rpc.output
  ordered : rpc.handled.map some <+: messages parse rpc.output
  flows : rpc.failure = none → Flows parse rpc
  read : rpc.failure = none → rpc.reading = false → '\n' ∉ rpc.buffer

theorem Flows.ordered (h : Flows parse rpc) :
    rpc.handled.map some <+: messages parse rpc.output := by
  obtain ⟨lines, hlines, htext, hhandled⟩ := h
  rw [messages_eq, htext, frames_unframe hlines, List.map_append, hhandled]
  exact List.prefix_append _ _

theorem Flows.complete (h : Flows parse rpc) (hbuffer : '\n' ∉ rpc.buffer) :
    rpc.handled.map some = messages parse rpc.output := by
  obtain ⟨lines, hlines, htext, hhandled⟩ := h
  rw [messages_eq, htext, frames_unframe hlines, frames_of_not_mem hbuffer, List.append_nil,
    hhandled]

theorem Streams.of_eq (h : Streams parse rpc) {other : CodexRpc}
    (hdecoder : other.decoder = rpc.decoder) (hbuffer : other.buffer = rpc.buffer)
    (hreading : other.reading = rpc.reading) (houtput : other.output = rpc.output)
    (hhandled : other.handled = rpc.handled)
    (hfailure : other.failure = none → rpc.failure = none) : Streams parse other where
  decoder := by
    rw [hdecoder, houtput]
    exact h.decoder
  ordered := by
    rw [hhandled, houtput]
    exact h.ordered
  flows hnone := by
    unfold Flows
    rw [houtput, hbuffer, hhandled]
    exact h.flows (hfailure hnone)
  read hnone hread := by
    rw [hbuffer]
    exact h.read (hfailure hnone) (hreading.symm.trans hread)

theorem Streams.data (h : Streams parse rpc) (chunk : List UInt8) :
    Streams parse (rpc.data chunk) where
  decoder := by
    show Utf8.after rpc.decoder chunk = Utf8.after [] (rpc.output ++ chunk)
    rw [Utf8.after_append, ← h.decoder]
  ordered := by
    apply h.ordered.trans
    unfold messages
    exact ( frames_prefix 10 rpc.output chunk).map _
  flows hnone := by
    obtain ⟨lines, hlines, htext, hhandled⟩ := h.flows hnone
    refine ⟨lines, hlines, ?_, hhandled⟩
    show Utf8.emitted [] (rpc.output ++ chunk) =
      unframe '\n' lines ++ (rpc.buffer ++ Utf8.emitted rpc.decoder chunk)
    rw [Utf8.emitted_append, htext, ← h.decoder, List.append_assoc]
  read _ hread := nomatch hread

theorem Streams.failed {other : CodexRpc} (hdecoder : other.decoder = Utf8.after [] other.output)
    (hordered : other.handled.map some <+: messages parse other.output)
    (hfailure : other.failure ≠ none) : Streams parse other :=
  ⟨hdecoder, hordered, fun hnone => absurd hnone hfailure, fun hnone => absurd hnone hfailure⟩

theorem fail_failure (error : RpcFailure) (rpc : CodexRpc) : (rpc.fail error).failure ≠ none := by
  unfold fail
  split
  · rename_i hfailed
    exact Option.isSome_iff_ne_none.mp hfailed
  · exact Option.some_ne_none error

theorem fail_frame (error : RpcFailure) (rpc : CodexRpc) :
    (rpc.fail error).decoder = rpc.decoder ∧ (rpc.fail error).buffer = rpc.buffer ∧
      (rpc.fail error).reading = rpc.reading ∧ (rpc.fail error).output = rpc.output ∧
      (rpc.fail error).handled = rpc.handled := by
  unfold fail
  split <;> exact ⟨rfl, rfl, rfl, rfl, rfl⟩

theorem Streams.fail (h : Streams parse rpc) (error : RpcFailure) :
    Streams parse (rpc.fail error) := by
  obtain ⟨hdecoder, -, -, houtput, hhandled⟩ := fail_frame error rpc
  apply Streams.failed _ _ (fail_failure error rpc)
  · rw [hdecoder, houtput]
    exact h.decoder
  · rw [hhandled, houtput]
    exact h.ordered

theorem Streams.invalid_rest (h : Streams parse rpc) (rest : List Char) :
    Streams parse ({ rpc with buffer := rest } : CodexRpc).invalid := by
  obtain ⟨hdecoder, -, -, houtput, hhandled⟩ :=
    fail_frame .invalidMessage ({ rpc with buffer := rest } : CodexRpc)
  apply Streams.failed
  · show (CodexRpc.fail _ _).decoder = Utf8.after [] (CodexRpc.fail _ _).output
    rw [hdecoder, houtput]
    exact h.decoder
  · show (CodexRpc.fail _ _).handled.map some <+: messages parse (CodexRpc.fail _ _).output
    rw [hhandled, houtput]
    exact h.ordered
  · exact fail_failure .invalidMessage ({ rpc with buffer := rest } : CodexRpc)

theorem Streams.invalid (h : Streams parse rpc) : Streams parse rpc.invalid :=
  h.invalid_rest rpc.buffer

theorem receive_frame (message : RpcMessage) (observed : Bool) (rpc : CodexRpc) :
    (rpc.receive message observed).1.decoder = rpc.decoder ∧
      (rpc.receive message observed).1.buffer = rpc.buffer ∧
      (rpc.receive message observed).1.reading = rpc.reading ∧
      (rpc.receive message observed).1.output = rpc.output ∧
      (rpc.receive message observed).1.handled =
        if rpc.failure.isSome then rpc.handled else rpc.handled ++ [message] := by
  unfold receive
  by_cases hfailed : rpc.failure.isSome = true
  · rw [if_pos hfailed, if_pos hfailed]
    exact ⟨rfl, rfl, rfl, rfl, rfl⟩
  · rw [if_neg hfailed, if_neg hfailed]
    dsimp only
    split
    · split
      · unfold handleRequest
        split
        · exact fail_frame _ _
        · exact ⟨rfl, rfl, rfl, rfl, rfl⟩
      · exact fail_frame _ _
    · exact ⟨rfl, rfl, rfl, rfl, rfl⟩
    · exact ⟨rfl, rfl, rfl, rfl, rfl⟩
    · exact ⟨rfl, rfl, rfl, rfl, rfl⟩

theorem receive_failed {rpc : CodexRpc} (h : rpc.failure ≠ none) (message : RpcMessage)
    (observed : Bool) : rpc.receive message observed = (rpc, false) := by
  unfold receive
  rw [if_pos (Option.isSome_iff_ne_none.mpr h)]

theorem Streams.receive (h : Streams parse rpc) (hreading : rpc.reading = true)
    {line rest : List Char} (hline : '\n' ∉ line) (hbuffer : rpc.buffer = line ++ '\n' :: rest)
    {message : RpcMessage} (hparse : parse line = some message) (observed : Bool) :
    Streams parse (({ rpc with buffer := rest } : CodexRpc).receive message observed).1 := by
  obtain ⟨hdecoder, hrest, hreads, houtput, hhandled⟩ :=
    receive_frame message observed { rpc with buffer := rest }
  by_cases hfailed : rpc.failure = none
  · have hflows : Flows parse
        (({ rpc with buffer := rest } : CodexRpc).receive message observed).1 := by
      obtain ⟨lines, hlines, htext, hold⟩ := h.flows hfailed
      refine ⟨lines ++ [line], ?_, ?_, ?_⟩
      · intro other hin
        obtain hin | hlast := List.mem_append.mp hin
        · exact hlines other hin
        · rw [List.mem_singleton.mp hlast]
          exact hline
      · rw [houtput, hrest]
        show Utf8.emitted [] rpc.output = _
        rw [htext, hbuffer]
        unfold unframe
        simp
      · rw [hhandled, if_neg (by rw [show CodexRpc.failure _ = none from hfailed]; decide),
          List.map_append, List.map_append, hold, List.map_singleton, List.map_singleton, hparse]
    exact {
      decoder := by
        rw [hdecoder, houtput]
        exact h.decoder
      ordered := hflows.ordered
      flows := fun _ => hflows
      read := fun _ hread => by
        rw [hreads] at hread
        exact absurd (hreading.symm.trans hread) (by decide) }
  · rw [@receive_failed { rpc with buffer := rest } hfailed message observed]
    exact Streams.failed h.decoder h.ordered hfailed

theorem Streams.round (h : Streams parse rpc) (hreading : rpc.reading = true) (observed : Bool) :
    Streams parse (rpc.round parse observed) := by
  unfold CodexRpc.round
  cases hframe : firstFrame '\n' rpc.buffer with
  | some found =>
    obtain ⟨line, rest⟩ := found
    obtain ⟨hline, hbuffer⟩ := firstFrame_eq_some hframe
    dsimp only
    split
    · exact h.invalid
    · split
      · exact h.invalid_rest rest
      · rename_i message hparse
        have hreceived := h.receive hreading hline hbuffer hparse observed
        split
        · exact hreceived.invalid
        · exact hreceived
  | none =>
    dsimp only
    split
    · exact h.invalid
    · exact {
        decoder := h.decoder
        ordered := h.ordered
        flows := h.flows
        read := fun _ _ => firstFrame_eq_none hframe }

theorem Streams.step (h : Streams parse rpc) (action : RpcAction) :
    Streams parse (rpc.step parse action) := by
  cases action with
  | data chunk =>
    show Streams parse (if rpc.reading = true then rpc else rpc.data chunk)
    split
    · exact h
    · exact h.data chunk
  | round observed =>
    show Streams parse (if rpc.reading = true then rpc.round parse observed else rpc)
    split
    · rename_i hreading
      exact h.round hreading observed
    · exact h
  | request method params signal =>
    show Streams parse (rpc.request method params signal)
    unfold CodexRpc.request
    split <;> exact h.of_eq rfl rfl rfl rfl rfl fun hnone => hnone
  | abort index reason => exact h.of_eq rfl rfl rfl rfl rfl fun hnone => hnone
  | notify method => exact h.of_eq rfl rfl rfl rfl rfl fun hnone => hnone
  | handlerFinished index outcome =>
    show Streams parse (rpc.handlerFinished index outcome)
    unfold CodexRpc.handlerFinished
    split
    · exact h
    · split
      · exact h
      · dsimp only
        split
        · exact h.of_eq rfl rfl rfl rfl rfl fun hnone => hnone
        · split
          · exact h.of_eq rfl rfl rfl rfl rfl fun hnone => hnone
          · apply fail
            exact h.of_eq rfl rfl rfl rfl rfl fun hnone => hnone
  | setRequestHandler method =>
    show Streams parse (if method ∈ rpc.handlers then rpc else _)
    split
    · exact h
    · exact h.of_eq rfl rfl rfl rfl rfl fun hnone => hnone
  | removeRequestHandler method => exact h.of_eq rfl rfl rfl rfl rfl fun hnone => hnone
  | setSessionRequestHandler method =>
    show Streams parse (if method ∈ rpc.sessionHandlers then rpc else _)
    split
    · exact h
    · exact h.of_eq rfl rfl rfl rfl rfl fun hnone => hnone
  | writeFailed => exact h.fail .transportClosed
  | processClosed => exact h.fail .processClosed

theorem Streams.opened (parse : List Char → Option RpcMessage) : Streams parse .opened where
  decoder := rfl
  ordered := List.nil_prefix
  flows _ := ⟨[], fun _ h => absurd h List.not_mem_nil, rfl, rfl⟩
  read _ _ := List.not_mem_nil

theorem Tables.opened : Tables .opened where
  calls := RpcCalls.Kept.opened
  ended h := nomatch h
  requests := RpcRequests.Kept.opened
  replied _ := rfl

/-! ## After a step -/

/-- Promises that were settled stay so, and a transport that has failed delivers no more. -/
structure Later (rpc rpc' : CodexRpc) : Prop where
  calls : rpc.calls.Extends rpc'.calls
  frozen : rpc.failure.isSome → rpc'.failure = rpc.failure ∧ rpc'.handled = rpc.handled ∧
    rpc'.notified = rpc.notified ∧
    rpc'.requests.requests.length = rpc.requests.requests.length

theorem Later.refl (rpc : CodexRpc) : Later rpc rpc :=
  ⟨RpcCalls.Extends.refl rpc.calls, fun _ => ⟨rfl, rfl, rfl, rfl⟩⟩

theorem Later.trans {rpc' rpc'' : CodexRpc} (h : Later rpc rpc') (h' : Later rpc' rpc'') :
    Later rpc rpc'' where
  calls := h.calls.trans h'.calls
  frozen hfailed := by
    obtain ⟨hfailure, hhandled, hnotified, hrequests⟩ := h.frozen hfailed
    have hfailed' : rpc'.failure.isSome := by
      rw [hfailure]
      exact hfailed
    obtain ⟨hfailure', hhandled', hnotified', hrequests'⟩ := h'.frozen hfailed'
    exact ⟨hfailure'.trans hfailure, hhandled'.trans hhandled, hnotified'.trans hnotified,
      hrequests'.trans hrequests⟩

theorem Later.of_eq {rpc' : CodexRpc} (hcalls : rpc.calls.Extends rpc'.calls)
    (hfailure : rpc'.failure = rpc.failure) (hhandled : rpc'.handled = rpc.handled)
    (hnotified : rpc'.notified = rpc.notified)
    (hrequests : rpc'.requests.requests.length = rpc.requests.requests.length) : Later rpc rpc' :=
  ⟨hcalls, fun _ => ⟨hfailure, hhandled, hnotified, hrequests⟩⟩

theorem Later.of_open {rpc' : CodexRpc} (hopen : rpc.failure = none)
    (hcalls : rpc.calls.Extends rpc'.calls) : Later rpc rpc' := by
  refine ⟨hcalls, fun hfailed => ?_⟩
  rw [hopen] at hfailed
  cases hfailed

theorem Later.fail (error : RpcFailure) (rpc : CodexRpc) : Later rpc (rpc.fail error) := by
  unfold CodexRpc.fail
  split
  · exact Later.refl rpc
  · rename_i hfailed
    apply Later.of_open
    · rwa [Bool.not_eq_true, Option.isSome_eq_false_iff, Option.isNone_iff_eq_none] at hfailed
    · exact rpc.calls.extends_fail error

theorem Later.handlerFinished (index : Nat) (outcome : Option (Option Json)) (rpc : CodexRpc) :
    Later rpc (rpc.handlerFinished index outcome) := by
  unfold CodexRpc.handlerFinished
  split
  · exact Later.refl rpc
  · rename_i request hrequest
    split
    · exact Later.refl rpc
    · dsimp only
      have hfinished : Later rpc { rpc with
          requests := rpc.requests.finish index request.id rpc.failure.isSome } :=
        Later.of_eq (RpcCalls.Extends.refl rpc.calls) rfl rfl rfl (List.length_modify _ _ _)
      split
      · exact hfinished
      · split
        · exact hfinished.trans (Later.of_eq (RpcCalls.Extends.refl _) rfl rfl rfl rfl)
        · apply Later.trans _ (Later.fail .toolRequestFailed _)
          exact hfinished.trans (Later.of_eq (RpcCalls.Extends.refl _) rfl rfl rfl rfl)

theorem Later.receive (message : RpcMessage) (observed : Bool) (rpc : CodexRpc) :
    Later rpc (rpc.receive message observed).1 := by
  by_cases hfailed : rpc.failure = none
  · apply Later.of_open hfailed
    unfold CodexRpc.receive
    rw [if_neg (by rw [hfailed]; decide)]
    dsimp only
    split
    · split
      · unfold CodexRpc.handleRequest
        split
        · show RpcCalls.Extends _ (CodexRpc.fail _ _).calls
          exact (Later.fail .repeatedRequest
            ({ rpc with handled := rpc.handled ++ [message] } : CodexRpc)).calls
        · exact RpcCalls.Extends.refl _
      · show RpcCalls.Extends _ (CodexRpc.fail _ (CodexRpc.write _ _)).calls
        exact (Later.fail .unsupportedRequest (CodexRpc.write _
          ({ rpc with handled := rpc.handled ++ [message] } : CodexRpc))).calls
    · exact RpcCalls.Extends.refl _
    · exact rpc.calls.extends_respond _ message
    · exact RpcCalls.Extends.refl _
  · rw [receive_failed hfailed]
    exact Later.refl rpc

theorem Later.invalid (rpc : CodexRpc) : Later rpc rpc.invalid :=
  (Later.fail .invalidMessage rpc).trans
    (Later.of_eq (RpcCalls.Extends.refl _) rfl rfl rfl rfl)

theorem Later.round (parse : List Char → Option RpcMessage) (observed : Bool) (rpc : CodexRpc) :
    Later rpc (rpc.round parse observed) := by
  unfold CodexRpc.round
  split
  · split
    · exact Later.invalid rpc
    · dsimp only
      have hrest : ∀ rest, Later rpc { rpc with buffer := rest } :=
        fun rest => Later.of_eq (RpcCalls.Extends.refl _) rfl rfl rfl rfl
      split
      · exact (hrest _).trans (Later.invalid _)
      · split
        · exact ((hrest _).trans (Later.receive _ observed _)).trans (Later.invalid _)
        · exact (hrest _).trans (Later.receive _ observed _)
  · split
    · exact Later.invalid rpc
    · exact Later.of_eq (RpcCalls.Extends.refl _) rfl rfl rfl rfl

theorem Later.step (parse : List Char → Option RpcMessage) (rpc : CodexRpc) (action : RpcAction) :
    Later rpc (rpc.step parse action) := by
  have hsame := RpcCalls.Extends.refl rpc.calls
  cases action with
  | data chunk =>
    show Later rpc (if rpc.reading = true then rpc else rpc.data chunk)
    split
    · exact Later.refl rpc
    · exact Later.of_eq hsame rfl rfl rfl rfl
  | round observed =>
    show Later rpc (if rpc.reading = true then rpc.round parse observed else rpc)
    split
    · exact Later.round parse observed rpc
    · exact Later.refl rpc
  | request method params signal =>
    show Later rpc (rpc.request method params signal)
    unfold CodexRpc.request
    split <;> exact Later.of_eq (RpcCalls.Extends.append rfl) rfl rfl rfl rfl
  | abort index reason =>
    exact Later.of_eq (rpc.calls.extends_abort index reason) rfl rfl rfl rfl
  | notify method => exact Later.of_eq hsame rfl rfl rfl rfl
  | handlerFinished index outcome => exact Later.handlerFinished index outcome rpc
  | setRequestHandler method =>
    show Later rpc (if method ∈ rpc.handlers then rpc else _)
    split
    · exact Later.refl rpc
    · exact Later.of_eq hsame rfl rfl rfl rfl
  | removeRequestHandler method => exact Later.of_eq hsame rfl rfl rfl rfl
  | setSessionRequestHandler method =>
    show Later rpc (if method ∈ rpc.sessionHandlers then rpc else _)
    split
    · exact Later.refl rpc
    · exact Later.of_eq hsame rfl rfl rfl rfl
  | writeFailed => exact Later.fail .transportClosed rpc
  | processClosed => exact Later.fail .processClosed rpc

theorem Later.run (parse : List Char → Option RpcMessage) (actions : List RpcAction)
    (rpc : CodexRpc) : Later rpc (Library.run (CodexRpc.step parse) rpc actions) := by
  induction actions generalizing rpc with
  | nil => exact Later.refl rpc
  | cons action rest ih => exact (Later.step parse rpc action).trans (ih _)

theorem Tables.run (actions : List RpcAction) :
    (Library.run (CodexRpc.step parse) CodexRpc.opened actions).Tables := by
  have hall : Always (CodexRpc.step parse) CodexRpc.Tables CodexRpc.opened actions :=
    always_of_inv (fun _ action h => h.step action) Tables.opened actions
  exact hall.last

theorem Streams.run (actions : List RpcAction) :
    Streams parse (Library.run (CodexRpc.step parse) CodexRpc.opened actions) := by
  have hall : Always (CodexRpc.step parse) (Streams parse) CodexRpc.opened actions :=
    always_of_inv (fun _ action h => h.step action) (Streams.opened parse) actions
  exact hall.last

end CodexRpc

/-! ## The transport -/

/-- The messages that are handled are the first lines of the output, all of them while nothing has
failed.  A promise is settled once, by what is owed to its call, and at the latest by the failure.
A request has its reply when its handler finishes, unless it was aborted or the transport had failed.
After the failure nothing is delivered. -/
theorem transport_delivers (parseJson : List Char → Option Json) (actions later : List RpcAction) :
    let rpc := run (CodexRpc.step (parseLine parseJson)) .opened actions
    let rpc' := run (CodexRpc.step (parseLine parseJson)) .opened (actions ++ later)
    rpc.handled.map some <+: CodexRpc.messages (parseLine parseJson) rpc.output ∧
      (rpc.failure = none → rpc.reading = false →
        rpc.handled.map some = CodexRpc.messages (parseLine parseJson) rpc.output) ∧
      (∀ call ∈ rpc.calls.calls, call.settlements.length ≤ 1 ∧
        ∀ settlement ∈ call.settlements, call.Owed rpc.failure rpc.handled settlement) ∧
      (∀ (index : Nat) (call : RpcCall), rpc.calls.calls[index]? = some call →
        call.settlements ≠ [] → ∃ call' : RpcCall,
          rpc'.calls.calls[index]? = some call' ∧ call'.settlements = call.settlements) ∧
      (rpc.failure.isSome → ∀ call ∈ rpc.calls.calls, call.settlements ≠ []) ∧
      (∀ (index : Nat) (request : PeerRequest), rpc.requests.requests[index]? = some request →
        repliesWritten rpc.written index = request.replies) ∧
      (rpc.failure.isSome → rpc'.failure = rpc.failure ∧ rpc'.handled = rpc.handled ∧
        rpc'.notified = rpc.notified ∧
        rpc'.requests.requests.length = rpc.requests.requests.length) := by
  intro rpc rpc'
  have htables : rpc.Tables := CodexRpc.Tables.run actions
  have htables' : rpc'.Tables := CodexRpc.Tables.run (actions ++ later)
  have hstreams : CodexRpc.Streams (parseLine parseJson) rpc := CodexRpc.Streams.run actions
  have hlater : CodexRpc.Later rpc rpc' := by
    show CodexRpc.Later rpc (run _ _ (actions ++ later))
    rw [run_append]
    exact CodexRpc.Later.run (parseLine parseJson) later rpc
  refine ⟨hstreams.ordered, ?_, ?_, ?_, ?_, ?_, hlater.frozen⟩
  · intro hopen hread
    exact (hstreams.flows hopen).complete (hstreams.read hopen hread)
  · intro call hin
    have hcall := htables.calls.each call hin
    exact ⟨hcall.single, hcall.settled⟩
  · intro index call hcall hsettled
    obtain ⟨call', hcall', hkept⟩ := hlater.calls index call hcall
    refine ⟨call', hcall', ?_⟩
    -- a settled promise has no room for another settlement
    have hsingle := (htables'.calls.each call' (List.mem_of_getElem? hcall')).single
    have hpos := List.length_pos_iff.mpr hsettled
    exact (hkept.eq_of_length_le (by omega)).symm
  · intro hfailed
    exact htables.calls.settled (htables.ended hfailed)
  · intro index request hrequest
    rw [htables.replied index, hrequest]
    rfl

end HarnessControl.Codex
