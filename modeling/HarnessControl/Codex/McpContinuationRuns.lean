import HarnessControl.Codex.McpContinuationHistory

/-!
# A reviewed result in the native history

Calls may stop at any point, and other records may come at any time.  What a run keeps is that the
history holds the records of one injection at most.
-/

namespace HarnessControl.Codex

open HarnessControl.Library HarnessControl.Library.JsonText

variable {ν : Type}

/-! ## Runs -/

structure Rollout where
  lines : List Units
  /-- A call has returned normally. -/
  returned : Bool

def Rollout.content (rollout : Rollout) : Units := unframe newline rollout.lines

section

variable [DecidableEq ν] (doubles : Doubles ν) (sha256 : Units → Units) (threadId : Units)
  (continuation : HarnessMcpContinuation ν) (result : Value ν)

/-- A call that has read the history and asks for the items to be injected, others coming first. -/
structure Injects (rollout : Rollout) (others : List Units) (call output : Units) : Prop where
  others_fit : ∀ line ∈ others, Fits line
  others_other : ∀ line ∈ others, isOther doubles.toNumerals threadId continuation line = true
  asked : ∃ reply file chunks, chunks.flatten = rollout.content ∧
    recordMcpContinuation doubles.toNumerals sha256 threadId continuation reply file chunks =
      .ok (some (reviewedItems doubles.toNumerals sha256 continuation result))
  call_fits : Fits call
  call_records : Records doubles.toNumerals
    (reviewedItems doubles.toNumerals sha256 continuation result).call call
  output_fits : Fits output
  output_records : Records doubles.toNumerals
    (reviewedItems doubles.toNumerals sha256 continuation result).output output

inductive Step : Rollout → Rollout → Prop where
  /-- Another record comes. -/
  | other {rollout : Rollout} {line : Units} : Fits line →
    isOther doubles.toNumerals threadId continuation line = true →
    Step rollout { rollout with lines := rollout.lines ++ [line] }
  /-- A call throws, or stops before it injects. -/
  | stopped {rollout : Rollout} : Step rollout rollout
  /-- A call returns and has injected nothing. -/
  | present {rollout : Rollout} {reply : Option ThreadReply} {file : FileStat}
    {chunks : List Units} : chunks.flatten = rollout.content →
    recordMcpContinuation doubles.toNumerals sha256 threadId continuation reply file chunks =
      .ok none →
    Step rollout { rollout with returned := true }
  /-- A call injects, and returns. -/
  | injected {rollout : Rollout} {others : List Units} {call output : Units} :
    Injects doubles sha256 threadId continuation result rollout others call output →
    Step rollout ⟨rollout.lines ++ others ++ [call, output], true⟩
  /-- A call stops after it has injected. -/
  | unconfirmed {rollout : Rollout} {others : List Units} {call output : Units} :
    Injects doubles sha256 threadId continuation result rollout others call output →
    Step rollout ⟨rollout.lines ++ others ++ [call, output], rollout.returned⟩
  /-- A crash cuts the injection. -/
  | cut {rollout : Rollout} {others : List Units} {call output : Units} :
    Injects doubles sha256 threadId continuation result rollout others call output →
    Step rollout ⟨rollout.lines ++ others ++ [call], rollout.returned⟩

/-- The reviewed operation is in the history once, and a call that finds it returns. -/
structure RecordedOnce (rollout : Rollout) : Prop where
  one_call : (rollout.lines.countP
    (isReviewed doubles.toNumerals continuation "function_call")) ≤ 1
  one_output : (rollout.lines.countP
    (isReviewed doubles.toNumerals continuation "function_call_output")) ≤ 1
  call : rollout.returned = true → ∃ line ∈ rollout.lines,
    isReviewed doubles.toNumerals continuation "function_call" line = true ∧
      Carries doubles.toNumerals "arguments" continuation.arguments line
  output : rollout.returned = true → ∃ line ∈ rollout.lines,
    isReviewed doubles.toNumerals continuation "function_call_output" line = true ∧
      Carries doubles.toNumerals "output" result line
  again : rollout.returned = true → ∀ path size chunks, path ≠ [] → size ≤ maxHistorySize →
    chunks.flatten = rollout.content →
    recordMcpContinuation doubles.toNumerals sha256 threadId continuation (some ⟨threadId, path⟩)
      ⟨true, size⟩ chunks = .ok none

end

variable [DecidableEq ν] {doubles : Doubles ν} {sha256 : Units → Units} {threadId : Units}
  {continuation : HarnessMcpContinuation ν} {result : Value ν}

/-! ## What runs keep -/

/-- What every run keeps. -/
structure Kept (doubles : Doubles ν) (sha256 : Units → Units) (threadId : Units)
    (continuation : HarnessMcpContinuation ν) (result : Value ν) (rollout : Rollout) : Prop where
  fits : ∀ line ∈ rollout.lines, Fits line
  held : ∃ call output, Held doubles sha256 threadId continuation result call output rollout.lines ∧
    (rollout.returned = true → call = true ∧ output = true)

theorem Kept.injects (houtcome : continuation.outcome = .completed result)
    (harguments : continuation.arguments.Keyed) (hresult : result.Keyed) {rollout : Rollout}
    (h : Kept doubles sha256 threadId continuation result rollout) {others : List Units}
    {call output : Units}
    (hinjects : Injects doubles sha256 threadId continuation result rollout others call output) :
    rollout.returned = false ∧ (∀ line ∈ rollout.lines ++ others, Fits line) ∧
      Held doubles sha256 threadId continuation result false false (rollout.lines ++ others) := by
  obtain ⟨callFound, outputFound, hheld, hreturned⟩ := h.held
  obtain ⟨reply, file, chunks, hchunks, hrecord⟩ := hinjects.asked
  obtain ⟨_, rfl, hnone⟩ := hheld.record houtcome harguments hresult h.fits hchunks hrecord
  obtain rfl : callFound = false := by
    cases callFound with
    | false => rfl
    | true => nomatch hnone
  refine ⟨?_, ?_, hheld.others hinjects.others_other⟩
  · rw [← Bool.not_eq_true]
    exact fun hreturn => nomatch (hreturned hreturn).1
  · rw [List.forall_mem_append]
    exact ⟨h.fits, hinjects.others_fit⟩

theorem Kept.step (houtcome : continuation.outcome = .completed result)
    (harguments : continuation.arguments.Keyed) (hresult : result.Keyed) {rollout next : Rollout}
    (h : Kept doubles sha256 threadId continuation result rollout)
    (hstep : Step doubles sha256 threadId continuation result rollout next) :
    Kept doubles sha256 threadId continuation result next := by
  cases hstep with
  | other hline hother =>
    obtain ⟨call, output, hheld, hreturned⟩ := h.held
    constructor
    · rw [List.forall_mem_append, List.forall_mem_singleton]
      exact ⟨h.fits, hline⟩
    · exact ⟨call, output, hheld.other hother, hreturned⟩
  | stopped => exact h
  | present hchunks hrecord =>
    obtain ⟨call, output, hheld, _⟩ := h.held
    obtain ⟨_, rfl, hsome⟩ := hheld.record houtcome harguments hresult h.fits hchunks hrecord
    obtain rfl : call = true := by
      cases call with
      | true => rfl
      | false => nomatch hsome
    exact ⟨h.fits, true, true, hheld, fun _ => ⟨rfl, rfl⟩⟩
  | injected hinjects =>
    obtain ⟨_, hfits, hheld⟩ := h.injects houtcome harguments hresult hinjects
    rw [List.append_cons]
    constructor
    · simp only [List.forall_mem_append, List.forall_mem_singleton] at hfits ⊢
      exact ⟨⟨hfits, hinjects.call_fits⟩, hinjects.output_fits⟩
    · exact ⟨true, true, (hheld.call hinjects.call_records).output hinjects.output_records,
        fun _ => ⟨rfl, rfl⟩⟩
  | unconfirmed hinjects =>
    obtain ⟨_, hfits, hheld⟩ := h.injects houtcome harguments hresult hinjects
    rw [List.append_cons]
    constructor
    · simp only [List.forall_mem_append, List.forall_mem_singleton] at hfits ⊢
      exact ⟨⟨hfits, hinjects.call_fits⟩, hinjects.output_fits⟩
    · exact ⟨true, true, (hheld.call hinjects.call_records).output hinjects.output_records,
        fun _ => ⟨rfl, rfl⟩⟩
  | cut hinjects =>
    obtain ⟨hreturned, hfits, hheld⟩ := h.injects houtcome harguments hresult hinjects
    constructor
    · simp only [List.forall_mem_append, List.forall_mem_singleton] at hfits ⊢
      exact ⟨hfits, hinjects.call_fits⟩
    · refine ⟨true, false, hheld.call hinjects.call_records, fun hreturn => ?_⟩
      rw [hreturned] at hreturn
      nomatch hreturn

/-! ## The reviewed result -/

theorem Kept.recordedOnce (houtcome : continuation.outcome = .completed result)
    (harguments : continuation.arguments.Keyed) (hresult : result.Keyed)
    (hreadable : Readable doubles continuation result true true) {rollout : Rollout}
    (h : Kept doubles sha256 threadId continuation result rollout) :
    RecordedOnce doubles sha256 threadId continuation result rollout := by
  obtain ⟨call, output, hheld, hreturned⟩ := h.held
  obtain ⟨hcalls, houtputs⟩ := hheld.counts
  constructor
  · rw [hcalls]
    exact Bool.toNat_le call
  · rw [houtputs]
    exact Bool.toNat_le output
  · intro hreturn
    obtain ⟨rfl, rfl⟩ := hreturned hreturn
    obtain ⟨line, hline, hrecords⟩ := hheld.call_mem
    refine ⟨line, hline, ?_, ?_⟩
    · rw [isReviewed_records "function_call" hrecords (by simp [reviewedItems])
        (by simp [reviewedItems])]
      decide
    · exact hrecords.carries harguments (hreadable.1 rfl) (by simp [reviewedItems])
  · intro hreturn
    obtain ⟨rfl, rfl⟩ := hreturned hreturn
    obtain ⟨line, hline, hrecords⟩ := hheld.output_mem
    refine ⟨line, hline, ?_, ?_⟩
    · rw [isReviewed_records "function_call_output" hrecords (by simp [reviewedItems])
        (by simp [reviewedItems])]
      decide
    · exact hrecords.carries hresult (hreadable.2 rfl) (by simp [reviewedItems])
  · intro hreturn path size chunks hpath hsize hchunks
    obtain ⟨rfl, rfl⟩ := hreturned hreturn
    exact hheld.answers houtcome harguments hresult h.fits hreadable hchunks hpath hsize

section

variable (houtcome : continuation.outcome = .completed result)
  (harguments : continuation.arguments.Keyed) (hresult : result.Keyed)
  {session call output : Units} (hsession : isSession doubles.toNumerals threadId session = true)
  (hcall : Records doubles.toNumerals
    (reviewedItems doubles.toNumerals sha256 continuation result).call call)
  (houtput : Records doubles.toNumerals
    (reviewedItems doubles.toNumerals sha256 continuation result).output output)
  (hfits : Fits session ∧ Fits call ∧ Fits output)

include houtcome harguments hresult hsession hcall houtput hfits in
theorem readable_of_runs
    (hruns : ∀ rollout, Relation.ReflTransGen (Step doubles sha256 threadId continuation result)
      ⟨[session], false⟩ rollout →
      RecordedOnce doubles sha256 threadId continuation result rollout) :
    doubles.negativeZero ∉ continuation.arguments.numbers ∧
      doubles.negativeZero ∉ result.numbers := by
  have hinitial : Held doubles sha256 threadId continuation result false false [session] :=
    Held.session hsession
  have hshort : ∀ line ∈ [session], Fits line := by
    rw [List.forall_mem_singleton]
    exact hfits.1
  have hasked : recordMcpContinuation doubles.toNumerals sha256 threadId continuation
      (some ⟨threadId, [0]⟩) ⟨true, 0⟩ [unframe newline [session]] =
      .ok (some (reviewedItems doubles.toNumerals sha256 continuation result)) :=
    hinitial.answers houtcome harguments hresult hshort ⟨nofun, nofun⟩ List.flatten_singleton
      (List.cons_ne_nil _ _) (Nat.zero_le _)
  have hinjects : Injects doubles sha256 threadId continuation result ⟨[session], false⟩ [] call
      output :=
    ⟨nofun, nofun, ⟨_, _, _, List.flatten_singleton, hasked⟩, hfits.2.1, hcall, hfits.2.2,
      houtput⟩
  have hrecorded := hruns _ (Relation.ReflTransGen.single (Step.injected hinjects))
  have hlines : ∀ line ∈ [session, call, output], Fits line := by
    simp only [List.forall_mem_cons, List.not_mem_nil, false_imp_iff, implies_true, and_true]
    exact hfits
  have hagain := hrecorded.again rfl [0] 0 [unframe newline [session, call, output]]
    (List.cons_ne_nil _ _) (Nat.zero_le _) List.flatten_singleton
  have hreadable := (((hinitial.call hcall).output houtput).record houtcome harguments hresult
    hlines List.flatten_singleton hagain).1
  exact ⟨hreadable.1 rfl, hreadable.2 rfl⟩

include houtcome harguments hresult hsession hcall houtput hfits in
/-- In every run the operation enters the history once, and calls go on to return, exactly where no
number in the arguments or the result is negative zero. -/
theorem result_recorded_once :
    (∀ rollout, Relation.ReflTransGen (Step doubles sha256 threadId continuation result)
        ⟨[session], false⟩ rollout →
        RecordedOnce doubles sha256 threadId continuation result rollout) ↔
      doubles.negativeZero ∉ continuation.arguments.numbers ∧
        doubles.negativeZero ∉ result.numbers := by
  constructor
  · exact readable_of_runs houtcome harguments hresult hsession hcall houtput hfits
  · rintro ⟨hargumentsZero, hresultZero⟩ rollout hrun
    have hkept : Kept doubles sha256 threadId continuation result rollout := by
      induction hrun with
      | refl =>
        refine ⟨?_, false, false, Held.session hsession, nofun⟩
        rw [List.forall_mem_singleton]
        exact hfits.1
      | tail _ hstep ih => exact ih.step houtcome harguments hresult hstep
    exact hkept.recordedOnce houtcome harguments hresult ⟨fun _ => hargumentsZero,
      fun _ => hresultZero⟩

end

/-! ## A result of zero -/

def sampleRecord (type : String) (payload : List (Units × Value Whole)) : Units :=
  Utf16.units (stringify wholeNumbers.toNumerals
    (.object [(Utf16.text "type", .string (Utf16.text type)),
      (Utf16.text "payload", .object payload)]))

def sampleThread : Units := Utf16.text "t"

def sampleSession : Units :=
  sampleRecord "session_meta" [(Utf16.text "id", .string sampleThread)]

def sampleResult (number : Whole) : Value Whole := .object [(Utf16.text "x", .number number)]

def sampleContinuation (number : Whole) : HarnessMcpContinuation Whole where
  native_thread_id := sampleThread
  request_id := Utf16.text "r"
  attachment_name := Utf16.text "a"
  tool_name := Utf16.text "f"
  arguments := .object []
  outcome := .completed (sampleResult number)

def sampleItems (number : Whole) : ReviewedItems Whole :=
  reviewedItems wholeNumbers.toNumerals id (sampleContinuation number) (sampleResult number)

theorem sampleResult_keyed (number : Whole) : (sampleResult number).Keyed := by
  unfold sampleResult Value.Keyed
  exact ⟨List.nodup_singleton _, trivial, trivial⟩

theorem sampleArguments_keyed (number : Whole) : (sampleContinuation number).arguments.Keyed :=
  ⟨List.nodup_nil, trivial⟩

theorem sampleRecord_records {payload : List (Units × Value Whole)}
    (hkeyed : (Value.object payload).Keyed)
    (hread : rereadMembers wholeNumbers.toNumerals payload = payload)
    (hpayload : ∀ member ∈ payload, payload.lookup member.1 = some member.2) :
    Records wholeNumbers.toNumerals payload (sampleRecord "response_item" payload) := by
  refine ⟨payload, ?_, hpayload⟩
  have hkeys : [Utf16.text "type", Utf16.text "payload"].Nodup := by decide
  have hprintable := printable_of_keyed wholeNumbers
    (.object [(Utf16.text "type", .string (Utf16.text "response_item")),
      (Utf16.text "payload", .object payload)]) ⟨hkeys, trivial, hkeyed, trivial⟩
  have hreread : (Value.object [(Utf16.text "type", .string (Utf16.text "response_item")),
      (Utf16.text "payload", .object payload)]).reread wholeNumbers.toNumerals =
      .object [(Utf16.text "type", .string (Utf16.text "response_item")),
        (Utf16.text "payload", .object payload)] := by
    show Value.object [(_, .string _), (_, .object (rereadMembers _ payload))] = _
    rw [hread]
  unfold readRecord sampleRecord
  rw [Utf16.characters_units, parse_stringify _ hprintable, hreread]
  rfl

theorem sampleCall_records (number : Whole) : Records wholeNumbers.toNumerals
    (sampleItems number).call (sampleRecord "response_item" (sampleItems number).call) := by
  have hkeys : ["type", "call_id", "namespace", "name", "arguments"].map Utf16.text |>.Nodup := by
    decide
  apply sampleRecord_records
  · exact ⟨hkeys, trivial, trivial, trivial, trivial, trivial, trivial⟩
  · rfl
  · simp only [sampleItems, reviewedItems, List.forall_mem_cons]
    refine ⟨rfl, rfl, rfl, rfl, rfl, fun _ h => by cases h⟩

theorem sampleOutput_records (number : Whole) : Records wholeNumbers.toNumerals
    (sampleItems number).output (sampleRecord "response_item" (sampleItems number).output) := by
  have hkeys : ["type", "call_id", "output"].map Utf16.text |>.Nodup := by decide
  apply sampleRecord_records
  · exact ⟨hkeys, trivial, trivial, trivial, trivial⟩
  · rfl
  · simp only [sampleItems, reviewedItems, List.forall_mem_cons]
    refine ⟨rfl, rfl, rfl, fun _ h => by cases h⟩

instance (line : Units) : Decidable (Fits line) := inferInstanceAs (Decidable (_ ∧ _))

/-- A result of one is recorded once in every run. -/
theorem one_recorded_once :
    wholeNumbers.negativeZero ∉ (sampleResult (.natural 1)).numbers ∧
      ∀ rollout, Relation.ReflTransGen (Step wholeNumbers id sampleThread
          (sampleContinuation (.natural 1)) (sampleResult (.natural 1))) ⟨[sampleSession], false⟩
          rollout →
        RecordedOnce wholeNumbers id sampleThread (sampleContinuation (.natural 1))
          (sampleResult (.natural 1)) rollout :=
  ⟨by decide, (result_recorded_once rfl (sampleArguments_keyed _) (sampleResult_keyed _)
    (by decide +kernel) (sampleCall_records _) (sampleOutput_records _)
    ⟨by decide +kernel, by decide +kernel, by decide +kernel⟩).mpr ⟨by decide, by decide⟩⟩

/-- After a result of negative zero was recorded, no call returns any more. -/
theorem negative_zero_not_recorded :
    ¬ ∀ rollout, Relation.ReflTransGen (Step wholeNumbers id sampleThread
          (sampleContinuation (.negated 0)) (sampleResult (.negated 0))) ⟨[sampleSession], false⟩
          rollout →
        RecordedOnce wholeNumbers id sampleThread (sampleContinuation (.negated 0))
          (sampleResult (.negated 0)) rollout := by
  intro hruns
  have hzero := (readable_of_runs rfl (sampleArguments_keyed _) (sampleResult_keyed _)
    (by decide +kernel) (sampleCall_records _) (sampleOutput_records _)
    ⟨by decide +kernel, by decide +kernel, by decide +kernel⟩ hruns).2
  exact hzero List.mem_cons_self

end HarnessControl.Codex
