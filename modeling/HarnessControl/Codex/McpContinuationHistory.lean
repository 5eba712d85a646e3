import HarnessControl.Codex.McpContinuation

/-!
# What the native history holds

A history holds nothing of a reviewed operation, or the call only, or the call and its output.  A
scan finds out which, where the values can be read back.
-/

namespace HarnessControl.Codex

open HarnessControl.Library HarnessControl.Library.JsonText

variable {ν : Type}

/-! ## Lines -/

/-- A line that a limit does not refuse. -/
def Fits (line : Units) : Prop := newline ∉ line ∧ line.length ≤ maxRecordLength

def Records (numerals : Numerals ν) (item : List (Units × Value ν)) (line : Units) : Prop :=
  ∃ payload, readRecord numerals line = some ⟨Utf16.text "response_item", payload⟩ ∧
    ∀ member ∈ item, payload.lookup member.1 = some member.2

section

variable (numerals : Numerals ν) (threadId : Units) (continuation : HarnessMcpContinuation ν)

def isSession (line : Units) : Bool :=
  (readRecord numerals line).any fun record =>
    record.type == Utf16.text "session_meta" && record.field "id" == some threadId

/-- A record of another operation, or of this session. -/
def isOther (line : Units) : Bool :=
  (readRecord numerals line).any fun record =>
    (record.type != Utf16.text "session_meta" || record.field "id" == some threadId) &&
      (record.type != Utf16.text "response_item" ||
        record.field "call_id" != some continuation.callId)

/-- A record of the operation, by the type of its item. -/
def isReviewed (type : String) (line : Units) : Bool :=
  (readRecord numerals line).any fun record =>
    record.type == Utf16.text "response_item" &&
      record.field "call_id" == some continuation.callId &&
      record.field "type" == some (Utf16.text type)

/-- A record whose text is that of a value. -/
def Carries [DecidableEq ν] (key : String) (value : Value ν) (line : Units) : Prop :=
  ∃ record text read, readRecord numerals line = some record ∧ record.field key = some text ∧
    parse numerals (Utf16.characters text) = some read ∧ deepEqual read value = true

end

variable {numerals : Numerals ν} {threadId : Units} {continuation : HarnessMcpContinuation ν}

variable {line : Units}

theorem Records.field {item : List (Units × Value ν)}
    (h : Records numerals item line) :
    ∃ record, readRecord numerals line = some record ∧
      record.type = Utf16.text "response_item" ∧
      ∀ key value, (Utf16.text key, Value.string value) ∈ item → record.field key = some value := by
  obtain ⟨payload, hrecord, hpayload⟩ := h
  refine ⟨_, hrecord, rfl, ?_⟩
  intro key value hin
  have hlookup := hpayload _ hin
  unfold NativeRecord.field
  dsimp only at hlookup ⊢
  rw [hlookup]

theorem isOther_eq_true :
    isOther numerals threadId continuation line = true ↔
      ∃ record, readRecord numerals line = some record ∧
        (record.type = Utf16.text "session_meta" → record.field "id" = some threadId) ∧
        (record.type ≠ Utf16.text "response_item" ∨
          record.field "call_id" ≠ some continuation.callId) := by
  unfold isOther
  cases readRecord numerals line with
  | none => exact ⟨nofun, nofun⟩
  | some record =>
    rw [Option.any_some, Bool.and_eq_true, Bool.or_eq_true, Bool.or_eq_true, bne_iff_ne,
      bne_iff_ne, bne_iff_ne, beq_iff_eq]
    constructor
    · rintro ⟨hsession, hother⟩
      exact ⟨record, rfl, fun htype => hsession.resolve_left (not_not_intro htype), hother⟩
    · rintro ⟨_, heq, hsession, hother⟩
      obtain rfl := Option.some.inj heq
      exact ⟨Classical.or_iff_not_imp_left.mpr fun htype => hsession (not_not.mp htype), hother⟩

theorem isSession_eq_true :
    isSession numerals threadId line = true ↔
      ∃ record, readRecord numerals line = some record ∧
        record.type = Utf16.text "session_meta" ∧ record.field "id" = some threadId := by
  unfold isSession
  cases readRecord numerals line with
  | none => exact ⟨nofun, nofun⟩
  | some record =>
    rw [Option.any_some, Bool.and_eq_true, beq_iff_eq, beq_iff_eq]
    exact ⟨fun h => ⟨record, rfl, h⟩, fun ⟨_, heq, h⟩ => Option.some.inj heq ▸ h⟩

variable (continuation) in
theorem isOther_of_isSession (h : isSession numerals threadId line = true) :
    isOther numerals threadId continuation line = true := by
  obtain ⟨record, hrecord, htype, hid⟩ := isSession_eq_true.mp h
  apply isOther_eq_true.mpr
  refine ⟨record, hrecord, fun _ => hid, Or.inl ?_⟩
  rw [htype]
  decide

variable [DecidableEq ν] {doubles : Doubles ν} {sha256 : Units → Units} {result : Value ν}

/-! ## One record -/

theorem checkText_stringify {value : Value ν} (h : value.Keyed) (message : String) :
    checkText doubles.toNumerals message
        (some (Utf16.units (stringify doubles.toNumerals value))) value =
      if doubles.negativeZero ∉ value.numbers then .ok () else .error (.historyError message) := by
  obtain ⟨read, hread, hequal⟩ := parse_stringify_equal doubles h
  unfold checkText
  dsimp only
  rw [Utf16.characters_units, hread]
  dsimp only
  by_cases hzero : doubles.negativeZero ∉ value.numbers
  · rw [if_pos (hequal.mpr hzero), if_pos hzero]
  · rw [if_neg (fun h => hzero (hequal.mp h)), if_neg hzero]

theorem consume_other {found : Found}
    (hfound : found.sessionMatches = true)
    (h : isOther numerals threadId continuation line = true) :
    consume numerals sha256 threadId continuation result found line = .ok found := by
  obtain ⟨record, hrecord, hsession, hother⟩ := isOther_eq_true.mp h
  unfold consume
  rw [hrecord]
  dsimp only
  rw [if_neg (fun hand => hand.2 (hsession hand.1)), if_pos hother]
  split
  · rw [← hfound]
  · rfl

theorem consume_session (h : isSession numerals threadId line = true) :
    consume numerals sha256 threadId continuation result ⟨false, false, false⟩ line =
      .ok ⟨true, false, false⟩ := by
  obtain ⟨record, hrecord, htype, hid⟩ := isSession_eq_true.mp h
  unfold consume
  rw [hrecord]
  dsimp only
  rw [if_neg (fun hand => hand.2 hid), if_pos htype, if_pos (Or.inl (by rw [htype]; decide))]

theorem consume_call {found : Found} (hkeyed : continuation.arguments.Keyed)
    (h : Records doubles.toNumerals
      (reviewedItems doubles.toNumerals sha256 continuation result).call line) :
    consume doubles.toNumerals sha256 threadId continuation result found line =
      if doubles.negativeZero ∉ continuation.arguments.numbers then
        .ok { found with callFound := true }
      else .error (.historyError callDiffers) := by
  obtain ⟨record, hrecord, htype, hfield⟩ := h.field
  have hid := hfield "call_id" continuation.callId (by simp [reviewedItems])
  have hkind := hfield "type" (Utf16.text "function_call") (by simp [reviewedItems])
  have hnamespace := hfield "namespace" (nativeMcpNamespace sha256 continuation.attachment_name)
    (by simp [reviewedItems])
  have hname := hfield "name" continuation.tool_name (by simp [reviewedItems])
  have harguments := hfield "arguments"
    (Utf16.units (stringify doubles.toNumerals continuation.arguments)) (by simp [reviewedItems])
  have hmeta : record.type ≠ Utf16.text "session_meta" := by
    rw [htype]
    decide
  unfold consume
  rw [hrecord]
  dsimp only
  rw [if_neg (fun hand => hmeta hand.1), if_neg hmeta,
    if_neg (fun hor => hor.elim (fun hne => hne htype) fun hne => hne hid), if_pos hkind,
    if_neg (fun hor => hor.elim (fun hne => hne hnamespace) fun hne => hne hname), harguments,
    checkText_stringify hkeyed]
  split <;> rfl

theorem consume_output {found : Found} (hkeyed : result.Keyed)
    (h : Records doubles.toNumerals
      (reviewedItems doubles.toNumerals sha256 continuation result).output line) :
    consume doubles.toNumerals sha256 threadId continuation result found line =
      if doubles.negativeZero ∉ result.numbers then .ok { found with outputFound := true }
      else .error (.historyError resultDiffers) := by
  obtain ⟨record, hrecord, htype, hfield⟩ := h.field
  have hid := hfield "call_id" continuation.callId (by simp [reviewedItems])
  have hkind := hfield "type" (Utf16.text "function_call_output") (by simp [reviewedItems])
  have houtput := hfield "output" (Utf16.units (stringify doubles.toNumerals result))
    (by simp [reviewedItems])
  have hmeta : record.type ≠ Utf16.text "session_meta" := by
    rw [htype]
    decide
  have hcall : record.field "type" ≠ some (Utf16.text "function_call") := by
    rw [hkind]
    decide
  unfold consume
  rw [hrecord]
  dsimp only
  rw [if_neg (fun hand => hmeta hand.1), if_neg hmeta,
    if_neg (fun hor => hor.elim (fun hne => hne htype) fun hne => hne hid), if_neg hcall,
    if_pos hkind, houtput, checkText_stringify hkeyed]
  split <;> rfl

/-! ## The history -/

/-- What a history holds of the operation: nothing, the call, or the call and its output. -/
inductive Held (doubles : Doubles ν) (sha256 : Units → Units) (threadId : Units)
    (continuation : HarnessMcpContinuation ν) (result : Value ν) :
    Bool → Bool → List Units → Prop where
  | session {line : Units} : isSession doubles.toNumerals threadId line = true →
    Held doubles sha256 threadId continuation result false false [line]
  | other {call output : Bool} {lines : List Units} {line : Units} :
    Held doubles sha256 threadId continuation result call output lines →
    isOther doubles.toNumerals threadId continuation line = true →
    Held doubles sha256 threadId continuation result call output (lines ++ [line])
  | call {lines : List Units} {line : Units} :
    Held doubles sha256 threadId continuation result false false lines →
    Records doubles.toNumerals
      (reviewedItems doubles.toNumerals sha256 continuation result).call line →
    Held doubles sha256 threadId continuation result true false (lines ++ [line])
  | output {lines : List Units} {line : Units} :
    Held doubles sha256 threadId continuation result true false lines →
    Records doubles.toNumerals
      (reviewedItems doubles.toNumerals sha256 continuation result).output line →
    Held doubles sha256 threadId continuation result true true (lines ++ [line])

variable {lines : List Units}

omit [DecidableEq ν] in
theorem Held.others {call output : Bool}
    (h : Held doubles sha256 threadId continuation result call output lines) {others : List Units}
    (hothers : ∀ line ∈ others, isOther doubles.toNumerals threadId continuation line = true) :
    Held doubles sha256 threadId continuation result call output (lines ++ others) := by
  induction others generalizing lines with
  | nil =>
    rw [List.append_nil]
    exact h
  | cons line others ih =>
    rw [List.forall_mem_cons] at hothers
    rw [List.append_cons]
    exact ih (h.other hothers.1) hothers.2

abbrev scan (doubles : Doubles ν) (sha256 : Units → Units) (threadId : Units)
    (continuation : HarnessMcpContinuation ν) (result : Value ν) (lines : List Units) :
    Except ContinuationError Found :=
  consumeLines maxRecordLength
    (.historyError "Native history record exceeds its recovery limit.")
    (consume doubles.toNumerals sha256 threadId continuation result) ⟨false, false, false⟩ lines

theorem scan_append (hline : Fits line) :
    scan doubles sha256 threadId continuation result (lines ++ [line]) =
      (scan doubles sha256 threadId continuation result lines).bind fun found =>
        consume doubles.toNumerals sha256 threadId continuation result found line := by
  unfold scan
  rw [consumeLines_append]
  congr 1
  funext found
  rw [consumeLines_cons, if_neg (Nat.not_lt.mpr hline.2)]
  cases consume doubles.toNumerals sha256 threadId continuation result found line <;> rfl

/-- The values that are in the history have no negative zero. -/
def Readable (doubles : Doubles ν) (continuation : HarnessMcpContinuation ν) (result : Value ν)
    (call output : Bool) : Prop :=
  (call = true → doubles.negativeZero ∉ continuation.arguments.numbers) ∧
    (output = true → doubles.negativeZero ∉ result.numbers)

theorem Held.scan (harguments : continuation.arguments.Keyed) (hresult : result.Keyed)
    {call output : Bool} {lines : List Units}
    (h : Held doubles sha256 threadId continuation result call output lines)
    (hfits : ∀ line ∈ lines, Fits line) (found : Found) :
    scan doubles sha256 threadId continuation result lines = .ok found ↔
      found = ⟨true, call, output⟩ ∧ Readable doubles continuation result call output := by
  induction h generalizing found with
  | @session line hline =>
    rw [← List.nil_append [line], scan_append (hfits line List.mem_cons_self)]
    show consume _ _ _ _ _ ⟨false, false, false⟩ line = _ ↔ _
    rw [consume_session hline, Except.ok.injEq]
    exact ⟨fun h => ⟨h.symm, nofun, nofun⟩, fun h => h.1.symm⟩
  | @other call output lines line _ hline ih =>
    rw [List.forall_mem_append, List.forall_mem_singleton] at hfits
    rw [scan_append hfits.2, bind_ok]
    simp only [ih hfits.1]
    constructor
    · rintro ⟨_, ⟨rfl, hreadable⟩, hconsume⟩
      rw [consume_other rfl hline] at hconsume
      exact ⟨(Except.ok.inj hconsume).symm, hreadable⟩
    · rintro ⟨rfl, hreadable⟩
      exact ⟨_, ⟨rfl, hreadable⟩, consume_other rfl hline⟩
  | @call lines line _ hline ih =>
    rw [List.forall_mem_append, List.forall_mem_singleton] at hfits
    rw [scan_append hfits.2, bind_ok]
    simp only [ih hfits.1, consume_call harguments hline]
    constructor
    · rintro ⟨_, ⟨rfl, _⟩, hconsume⟩
      split at hconsume
      · rename_i hzero
        exact ⟨(Except.ok.inj hconsume).symm, fun _ => hzero, nofun⟩
      · nomatch hconsume
    · rintro ⟨rfl, hreadable⟩
      exact ⟨_, ⟨rfl, nofun, nofun⟩, if_pos (hreadable.1 rfl)⟩
  | @output lines line _ hline ih =>
    rw [List.forall_mem_append, List.forall_mem_singleton] at hfits
    rw [scan_append hfits.2, bind_ok]
    simp only [ih hfits.1, consume_output hresult hline]
    constructor
    · rintro ⟨_, ⟨rfl, hreadable⟩, hconsume⟩
      split at hconsume
      · rename_i hzero
        exact ⟨(Except.ok.inj hconsume).symm, hreadable.1, fun _ => hzero⟩
      · nomatch hconsume
    · rintro ⟨rfl, hreadable⟩
      exact ⟨_, ⟨rfl, hreadable.1, nofun⟩, if_pos (hreadable.2 rfl)⟩

theorem Held.fits_reads (hfits : ∀ line ∈ lines, Fits line)
    {chunks : List Units} (hchunks : chunks.flatten = unframe newline lines) :
    readChunks newline maxRecordLength
        (.historyError "Native history record exceeds its recovery limit.")
        (consume doubles.toNumerals sha256 threadId continuation result)
        ⟨false, false, false⟩ [] chunks =
      (Codex.scan doubles sha256 threadId continuation result lines).map fun found =>
        (found, []) :=
  readChunks_whole (fun line hline => (hfits line hline).1) (fun line hline => (hfits line hline).2)
    _ List.not_mem_nil hchunks

theorem Held.record (houtcome : continuation.outcome = .completed result)
    (harguments : continuation.arguments.Keyed) (hresult : result.Keyed)
    {call output : Bool} {lines : List Units}
    (h : Held doubles sha256 threadId continuation result call output lines)
    (hfits : ∀ line ∈ lines, Fits line) {chunks : List Units}
    (hchunks : chunks.flatten = unframe newline lines) {reply : Option ThreadReply}
    {file : FileStat} {items : Option (ReviewedItems ν)}
    (hrecord : recordMcpContinuation doubles.toNumerals sha256 threadId continuation reply file
      chunks = .ok items) :
    Readable doubles continuation result call output ∧ call = output ∧
      (items.isSome = !call) := by
  unfold recordMcpContinuation at hrecord
  rw [houtcome] at hrecord
  dsimp only at hrecord
  cases reply with
  | none => nomatch hrecord
  | some thread =>
    dsimp only at hrecord
    rw [ite_error_ok, ite_error_ok, ite_error_ok, Held.fits_reads hfits hchunks, bind_ok]
      at hrecord
    obtain ⟨_, _, _, ⟨found, buffer⟩, hread, hconclude⟩ := hrecord
    obtain ⟨other, hscan, heq⟩ := map_ok.mp hread
    obtain ⟨rfl, rfl⟩ := Prod.mk.inj heq
    obtain ⟨rfl, hreadable⟩ := (h.scan harguments hresult hfits other).mp hscan
    unfold concludeHistory at hconclude
    dsimp only at hconclude
    rw [ite_error_ok, ite_error_ok, not_or, not_not] at hconclude
    obtain ⟨_, ⟨_, hsame⟩, hitems⟩ := hconclude
    refine ⟨hreadable, hsame, ?_⟩
    cases call with
    | false =>
      rw [if_pos rfl] at hitems
      rw [← Except.ok.inj hitems]
      rfl
    | true =>
      rw [if_neg (by decide)] at hitems
      rw [← Except.ok.inj hitems]
      rfl

theorem Held.answers (houtcome : continuation.outcome = .completed result)
    (harguments : continuation.arguments.Keyed) (hresult : result.Keyed)
    {both : Bool} {lines : List Units}
    (h : Held doubles sha256 threadId continuation result both both lines)
    (hfits : ∀ line ∈ lines, Fits line)
    (hreadable : Readable doubles continuation result both both) {chunks : List Units}
    (hchunks : chunks.flatten = unframe newline lines) {path : Units} (hpath : path ≠ [])
    {size : Nat} (hsize : size ≤ maxHistorySize) :
    recordMcpContinuation doubles.toNumerals sha256 threadId continuation (some ⟨threadId, path⟩)
        ⟨true, size⟩ chunks =
      .ok (if both then none
        else some (reviewedItems doubles.toNumerals sha256 continuation result)) := by
  have hscan := (h.scan harguments hresult hfits ⟨true, both, both⟩).mpr ⟨rfl, hreadable⟩
  unfold recordMcpContinuation
  rw [houtcome]
  dsimp only
  rw [if_neg hpath, if_neg (fun hne => hne rfl),
    if_neg (fun hor => hor.elim (by decide) (Nat.not_lt.mpr hsize)), Held.fits_reads hfits hchunks,
    hscan]
  cases both <;> rfl

/-! ## Records of the operation -/

omit [DecidableEq ν] in
theorem isReviewed_other {type : String}
    (h : isOther numerals threadId continuation line = true) :
    isReviewed numerals continuation type line = false := by
  obtain ⟨record, hrecord, _, hother⟩ := isOther_eq_true.mp h
  unfold isReviewed
  rw [hrecord, Option.any_some, Bool.and_eq_false_iff, Bool.and_eq_false_iff, beq_eq_false_iff_ne,
    beq_eq_false_iff_ne]
  exact Or.inl hother

omit [DecidableEq ν] in
theorem isReviewed_records (kind : String) {type : String} {item : List (Units × Value ν)}
    {line : Units}
    (h : Records numerals item line)
    (hid : (Utf16.text "call_id", Value.string continuation.callId) ∈ item)
    (hkind : (Utf16.text "type", Value.string (Utf16.text kind)) ∈ item) :
    isReviewed numerals continuation type line = (Utf16.text kind == Utf16.text type) := by
  obtain ⟨record, hrecord, htype, hfield⟩ := h.field
  unfold isReviewed
  rw [hrecord, Option.any_some, htype, hfield _ _ hid, hfield _ _ hkind, beq_self_eq_true,
    beq_self_eq_true, Bool.true_and, Bool.true_and]
  rfl

omit [DecidableEq ν] in
theorem Held.counts {call output : Bool}
    (h : Held doubles sha256 threadId continuation result call output lines) :
    lines.countP (isReviewed doubles.toNumerals continuation "function_call") = call.toNat ∧
      lines.countP (isReviewed doubles.toNumerals continuation "function_call_output") =
        output.toNat := by
  induction h with
  | session hline =>
    have hother := isOther_of_isSession continuation hline
    rw [List.countP_singleton, List.countP_singleton, isReviewed_other hother,
      isReviewed_other hother]
    exact ⟨rfl, rfl⟩
  | other _ hline ih =>
    rw [List.countP_append, List.countP_append, List.countP_singleton, List.countP_singleton,
      isReviewed_other hline, isReviewed_other hline]
    exact ih
  | call _ hline ih =>
    rw [List.countP_append, List.countP_append, List.countP_singleton, List.countP_singleton,
      isReviewed_records "function_call" hline (by simp [reviewedItems])
        (by simp [reviewedItems]),
      isReviewed_records "function_call" hline (by simp [reviewedItems])
        (by simp [reviewedItems]), ih.1, ih.2]
    decide
  | output _ hline ih =>
    rw [List.countP_append, List.countP_append, List.countP_singleton, List.countP_singleton,
      isReviewed_records "function_call_output" hline (by simp [reviewedItems])
        (by simp [reviewedItems]),
      isReviewed_records "function_call_output" hline (by simp [reviewedItems])
        (by simp [reviewedItems]), ih.1, ih.2]
    decide

omit [DecidableEq ν] in
theorem Held.call_mem {output : Bool}
    (h : Held doubles sha256 threadId continuation result true output lines) :
    ∃ line ∈ lines, Records doubles.toNumerals
      (reviewedItems doubles.toNumerals sha256 continuation result).call line := by
  generalize hcall : true = call at h
  induction h with
  | session _ => nomatch hcall
  | other _ _ ih =>
    obtain ⟨line, hline, hrecords⟩ := ih hcall
    exact ⟨line, List.mem_append_left _ hline, hrecords⟩
  | call _ hrecords => exact ⟨_, List.mem_append_right _ List.mem_cons_self, hrecords⟩
  | output _ _ ih =>
    obtain ⟨line, hline, hrecords⟩ := ih hcall
    exact ⟨line, List.mem_append_left _ hline, hrecords⟩

omit [DecidableEq ν] in
theorem Held.output_mem {call : Bool}
    (h : Held doubles sha256 threadId continuation result call true lines) :
    ∃ line ∈ lines, Records doubles.toNumerals
      (reviewedItems doubles.toNumerals sha256 continuation result).output line := by
  generalize houtput : true = output at h
  induction h with
  | session _ => nomatch houtput
  | other _ _ ih =>
    obtain ⟨line, hline, hrecords⟩ := ih houtput
    exact ⟨line, List.mem_append_left _ hline, hrecords⟩
  | call _ _ => nomatch houtput
  | output _ hrecords => exact ⟨_, List.mem_append_right _ List.mem_cons_self, hrecords⟩

theorem Records.carries {item : List (Units × Value ν)}
    (h : Records doubles.toNumerals item line) {key : String} {value : Value ν}
    (hkeyed : value.Keyed) (hzero : doubles.negativeZero ∉ value.numbers)
    (htext : (Utf16.text key, Value.string (Utf16.units (stringify doubles.toNumerals value))) ∈
      item) :
    Carries doubles.toNumerals key value line := by
  obtain ⟨record, hrecord, _, hfield⟩ := h.field
  obtain ⟨read, hread, hequal⟩ := parse_stringify_equal doubles hkeyed
  refine ⟨record, _, read, hrecord, hfield _ _ htext, ?_, hequal.mpr hzero⟩
  rw [Utf16.characters_units]
  exact hread

end HarnessControl.Codex
