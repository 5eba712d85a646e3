import HarnessControl.Library.Utf8

/-!
# Captured process output

The text of what a process has written is encoded again for each chunk that comes, and cut at a
number of bytes.
-/

namespace HarnessControl.LocalActions

open HarnessControl.Library

structure LimitedString where
  value : List Char
  truncated : Bool
deriving DecidableEq

def appendLimited (existing : List Char) (chunk : List UInt8) (limitBytes : Nat) : LimitedString :=
  let combined := Utf8.encode existing ++ chunk
  if combined.length ≤ limitBytes then ⟨Utf8.decode combined, false⟩
  else ⟨Utf8.decode (combined.take limitBytes), true⟩

/-- The handler of the `data` event of an output stream. -/
def onData (limitBytes : Nat) (captured : LimitedString) (chunk : List UInt8) : LimitedString :=
  let appended := appendLimited captured.value chunk limitBytes
  ⟨appended.value, captured.truncated || appended.truncated⟩

def capture (limitBytes : Nat) (chunks : List (List UInt8)) : LimitedString :=
  chunks.foldl (onData limitBytes) ⟨[], false⟩

/-! ## What should be captured -/

/-- The text of the first bytes of the stream, whatever its chunks. -/
structure Faithful (limitBytes : Nat) (stream : List UInt8) (captured : LimitedString) : Prop where
  value : captured.value = Utf8.decode (stream.take limitBytes)
  size : (Utf8.encode captured.value).length ≤ limitBytes
  truncated : captured.truncated = true ↔ limitBytes < stream.length

/-- The first bytes of the stream fit with three bytes for each invalid part of them. -/
def Fits (limitBytes : Nat) (stream : List UInt8) : Prop :=
  (Utf8.encode (Utf8.decode (stream.take limitBytes))).length ≤ limitBytes

/-- No chunk ends inside a sequence that goes on below the limit. -/
def Unsplit (limitBytes : Nat) (chunks : List (List UInt8)) : Prop :=
  ∀ before next, chunks = before ++ next →
    ¬ Utf8.Splits before.flatten (next.flatten.take (limitBytes - before.flatten.length))

/-! ## Unsplit chunks -/

variable {limitBytes : Nat}

inductive CapturedFrom (limitBytes : Nat) (read : List UInt8) (captured : LimitedString) : Prop where
  | below : read.length ≤ limitBytes → captured = ⟨Utf8.decode read, false⟩ →
    CapturedFrom limitBytes read captured
  | beyond : limitBytes < read.length →
    captured = ⟨Utf8.decode (read.take limitBytes), true⟩ →
    CapturedFrom limitBytes read captured

theorem not_splits_append {before next more : List UInt8}
    (h : ¬ Utf8.Splits before (next ++ more)) : ¬ Utf8.Splits before next := by
  rintro ⟨hne, byte, rest, hnext, hcontinues⟩
  exact h ⟨hne, byte, rest ++ more, by rw [hnext, List.cons_append], hcontinues⟩

theorem onData_captured {read chunk rest : List UInt8} {captured : LimitedString}
    (hfits : Fits limitBytes (read ++ (chunk ++ rest)))
    (hsplits : ¬ Utf8.Splits read ((chunk ++ rest).take (limitBytes - read.length)))
    (h : CapturedFrom limitBytes read captured) :
    CapturedFrom limitBytes (read ++ chunk) (onData limitBytes captured chunk) := by
  unfold Fits at hfits
  cases h with
  | below hle hcaptured =>
    subst hcaptured
    have htake : (chunk ++ rest).take (limitBytes - read.length) =
        chunk.take (limitBytes - read.length) ++
          rest.take (limitBytes - read.length - chunk.length) := List.take_append
    -- the parts of the stream are decoded by themselves
    rw [List.take_append, List.take_of_length_le hle,
      Utf8.decode_append_of_not_splits hsplits, Utf8.encode_append, List.length_append] at hfits
    have hrest := Utf8.length_decode ((chunk ++ rest).take (limitBytes - read.length))
    have hread := Utf8.length_decode read
    have hchunk : ¬ Utf8.Splits read (chunk.take (limitBytes - read.length)) := by
      rw [htake] at hsplits
      exact not_splits_append hsplits
    rw [List.length_take, List.length_append] at hrest
    unfold onData appendLimited
    by_cases hroom : read.length + chunk.length ≤ limitBytes
    · have hlength : (Utf8.encode (Utf8.decode read) ++ chunk).length ≤ limitBytes := by
        rw [List.length_append]
        omega
      rw [List.take_of_length_le (by omega)] at hchunk
      refine .below (by rw [List.length_append]; exact hroom) ?_
      simp only [if_pos hlength, Bool.or_self]
      rw [Utf8.decode_encode_append, Utf8.decode_append_of_not_splits hchunk]
    · have hsame : (Utf8.encode (Utf8.decode read)).length = read.length := by omega
      have hlength : ¬ (Utf8.encode (Utf8.decode read) ++ chunk).length ≤ limitBytes := by
        rw [List.length_append]
        omega
      refine .beyond (by rw [List.length_append]; omega) ?_
      simp only [if_neg hlength, Bool.or_true]
      rw [List.take_append, List.take_of_length_le (by omega), hsame, List.take_append,
        List.take_of_length_le hle, Utf8.decode_encode_append,
        Utf8.decode_append_of_not_splits hchunk]
  | beyond hlt hcaptured =>
    subst hcaptured
    rw [List.take_append_of_le_length (by omega)] at hfits
    have hsize := Utf8.length_decode (read.take limitBytes)
    rw [List.length_take, Nat.min_eq_left (by omega)] at hsize
    refine .beyond (by rw [List.length_append]; omega) ?_
    unfold onData appendLimited
    rw [List.take_append_of_le_length (by omega)]
    by_cases hnone : (Utf8.encode (Utf8.decode (read.take limitBytes)) ++ chunk).length ≤ limitBytes
    · rw [List.length_append] at hnone
      have hempty : chunk = [] := List.length_eq_zero_iff.mp (by omega)
      subst hempty
      simp only [List.append_nil, if_pos hfits, Bool.true_or]
      rw [Utf8.decode_encode]
    · simp only [if_neg hnone, Bool.or_true]
      rw [List.take_append_of_le_length (by omega), List.take_of_length_le (by omega),
        Utf8.decode_encode]

theorem capture_from {read : List UInt8} {captured : LimitedString} {chunks : List (List UInt8)}
    (hfits : Fits limitBytes (read ++ chunks.flatten))
    (hunsplit : ∀ before next, chunks = before ++ next →
      ¬ Utf8.Splits (read ++ before.flatten)
        (next.flatten.take (limitBytes - (read ++ before.flatten).length)))
    (h : CapturedFrom limitBytes read captured) :
    CapturedFrom limitBytes (read ++ chunks.flatten)
      (chunks.foldl (onData limitBytes) captured) := by
  induction chunks generalizing read captured with
  | nil =>
    rw [List.flatten_nil, List.append_nil]
    exact h
  | cons chunk rest ih =>
    rw [List.flatten_cons] at hfits ⊢
    have hfirst := hunsplit [] (chunk :: rest) rfl
    rw [List.flatten_nil, List.append_nil, List.flatten_cons] at hfirst
    rw [← List.append_assoc]
    apply ih
    · rw [List.append_assoc]
      exact hfits
    · intro before next hsplit
      have hlater := hunsplit (chunk :: before) next (congrArg (chunk :: ·) hsplit)
      rw [List.flatten_cons, ← List.append_assoc] at hlater
      exact hlater
    · exact onData_captured hfits hfirst h

theorem capture_faithful {chunks : List (List UInt8)} (hfits : Fits limitBytes chunks.flatten)
    (hunsplit : Unsplit limitBytes chunks) :
    Faithful limitBytes chunks.flatten (capture limitBytes chunks) := by
  have h : CapturedFrom limitBytes chunks.flatten (capture limitBytes chunks) :=
    @capture_from limitBytes [] ⟨[], false⟩ chunks hfits hunsplit (.below (Nat.zero_le _) rfl)
  cases h with
  | below hle hcaptured =>
    rw [hcaptured]
    refine ⟨?_, ?_, ?_⟩
    · rw [List.take_of_length_le hle]
    · unfold Fits at hfits
      rwa [List.take_of_length_le hle] at hfits
    · exact ⟨fun h => absurd h Bool.false_ne_true, fun h => absurd hle (Nat.not_le_of_lt h)⟩
  | beyond hlt hcaptured =>
    rw [hcaptured]
    exact ⟨rfl, hfits, fun _ => hlt, fun _ => rfl⟩

/-! ## What split chunks lose -/

theorem proper_take_le (bytes : List UInt8) {few many : Nat} (h : few ≤ many) :
    Utf8.proper (Utf8.decode (bytes.take few)) ≤ Utf8.proper (Utf8.decode (bytes.take many)) := by
  have hsplit := List.take_append_drop few (bytes.take many)
  rw [List.take_take, Nat.min_eq_left h] at hsplit
  have hle := Utf8.proper_decode_append (bytes.take few) ((bytes.take many).drop few)
  rw [hsplit] at hle
  omega

theorem appendLimited_below {existing : List Char} (chunk : List UInt8)
    (h : (Utf8.encode existing).length ≤ limitBytes) :
    (appendLimited existing chunk limitBytes).value =
      existing ++ Utf8.decode (chunk.take (limitBytes - (Utf8.encode existing).length)) := by
  unfold appendLimited
  by_cases hroom : (Utf8.encode existing ++ chunk).length ≤ limitBytes
  · simp only [if_pos hroom]
    rw [List.length_append] at hroom
    rw [Utf8.decode_encode_append, List.take_of_length_le (by omega)]
  · simp only [if_neg hroom]
    rw [List.take_append, List.take_of_length_le h, Utf8.decode_encode_append]

theorem appendLimited_beyond {existing : List Char} (chunk : List UInt8)
    (h : limitBytes < (Utf8.encode existing).length) :
    (appendLimited existing chunk limitBytes).value =
      Utf8.decode ((Utf8.encode existing).take limitBytes) := by
  unfold appendLimited
  rw [if_neg (by rw [List.length_append]; omega), List.take_append_of_le_length (by omega)]

/-- The text is ahead of what was read by as many bytes, and lacks as many proper characters. -/
structure Ahead (limitBytes bytes characters : Nat) (read : List UInt8) (text : List Char) :
    Prop where
  size : bytes + min read.length (limitBytes - bytes) ≤ (Utf8.encode text).length
  proper : Utf8.proper text + characters ≤
    Utf8.proper (Utf8.decode (read.take (limitBytes - bytes)))

theorem appendLimited_ahead {bytes characters : Nat} {read chunk : List UInt8} {text : List Char}
    (hbytes : bytes ≤ limitBytes) (h : Ahead limitBytes bytes characters read text) :
    Ahead limitBytes bytes characters (read ++ chunk)
      (appendLimited text chunk limitBytes).value := by
  have hsize := h.size
  have hproper := h.proper
  by_cases hbelow : (Utf8.encode text).length ≤ limitBytes
  · rw [appendLimited_below chunk hbelow]
    have hadded := Utf8.length_decode
      (chunk.take (limitBytes - (Utf8.encode text).length))
    rw [List.length_take] at hadded
    refine ⟨?_, ?_⟩
    · rw [Utf8.encode_append, List.length_append, List.length_append]
      omega
    · rw [Utf8.proper_append]
      by_cases hread : read.length ≤ limitBytes - bytes
      · rw [List.take_of_length_le hread] at hproper
        rw [List.take_append, List.take_of_length_le hread]
        have hmore := proper_take_le chunk (show limitBytes - (Utf8.encode text).length ≤
          limitBytes - bytes - read.length by omega)
        have hboth := Utf8.proper_decode_append read
          (chunk.take (limitBytes - bytes - read.length))
        omega
      · -- the text is full
        have hnone : limitBytes - (Utf8.encode text).length = 0 := by omega
        rw [hnone, List.take_zero, List.take_append_of_le_length (by omega)]
        exact hproper
  · rw [appendLimited_beyond chunk (by omega)]
    have hcut := Utf8.length_decode ((Utf8.encode text).take limitBytes)
    rw [List.length_take, Nat.min_eq_left (by omega)] at hcut
    refine ⟨by omega, ?_⟩
    have hless := Utf8.proper_decode_append ((Utf8.encode text).take limitBytes)
      ((Utf8.encode text).drop limitBytes)
    rw [List.take_append_drop, Utf8.decode_encode] at hless
    have hmore := Utf8.proper_decode_append (read.take (limitBytes - bytes))
      (chunk.take (limitBytes - bytes - read.length))
    rw [List.take_append]
    omega

theorem capture_ahead {bytes characters : Nat} (hbytes : bytes ≤ limitBytes) {read : List UInt8}
    {captured : LimitedString} (chunks : List (List UInt8))
    (h : Ahead limitBytes bytes characters read captured.value) :
    Ahead limitBytes bytes characters (read ++ chunks.flatten)
      (chunks.foldl (onData limitBytes) captured).value := by
  induction chunks generalizing read captured with
  | nil =>
    rw [List.flatten_nil, List.append_nil]
    exact h
  | cons chunk rest ih =>
    rw [List.flatten_cons, ← List.append_assoc]
    exact ih (appendLimited_ahead hbytes h)

theorem capture_wide {read : List UInt8} {captured : LimitedString} (chunks : List (List UInt8))
    (h : limitBytes ≤ (Utf8.encode captured.value).length ∨
      (Utf8.encode (Utf8.decode read)).length ≤ (Utf8.encode captured.value).length) :
    limitBytes ≤ (Utf8.encode (chunks.foldl (onData limitBytes) captured).value).length ∨
      (Utf8.encode (Utf8.decode (read ++ chunks.flatten))).length ≤
        (Utf8.encode (chunks.foldl (onData limitBytes) captured).value).length := by
  induction chunks generalizing read captured with
  | nil =>
    rw [List.flatten_nil, List.append_nil]
    exact h
  | cons chunk rest ih =>
    rw [List.flatten_cons, ← List.append_assoc]
    apply ih
    show limitBytes ≤ (Utf8.encode (appendLimited captured.value chunk limitBytes).value).length ∨
      _ ≤ (Utf8.encode (appendLimited captured.value chunk limitBytes).value).length
    by_cases hbelow : (Utf8.encode captured.value).length ≤ limitBytes
    · rw [appendLimited_below chunk hbelow, Utf8.encode_append, List.length_append]
      have hadded := Utf8.length_decode
        (chunk.take (limitBytes - (Utf8.encode captured.value).length))
      rw [List.length_take] at hadded
      have hboth := Utf8.length_encode_decode_append read chunk
      by_cases hroom : chunk.length ≤ limitBytes - (Utf8.encode captured.value).length
      · rw [List.take_of_length_le hroom] at hadded ⊢
        omega
      · omega
    · rw [appendLimited_beyond chunk (by omega)]
      have hcut := Utf8.length_decode ((Utf8.encode captured.value).take limitBytes)
      rw [List.length_take, Nat.min_eq_left (by omega)] at hcut
      exact Or.inl hcut

theorem capture_long {read : List UInt8} {captured : LimitedString} {more : Nat}
    (chunks : List (List UInt8))
    (h : captured.truncated = true ∨
      (Utf8.decode read).length + more ≤ captured.value.length) :
    (chunks.foldl (onData limitBytes) captured).truncated = true ∨
      (Utf8.decode (read ++ chunks.flatten)).length + more ≤
        (chunks.foldl (onData limitBytes) captured).value.length := by
  induction chunks generalizing read captured with
  | nil =>
    rw [List.flatten_nil, List.append_nil]
    exact h
  | cons chunk rest ih =>
    rw [List.flatten_cons, ← List.append_assoc]
    apply ih
    unfold onData appendLimited
    by_cases hroom : (Utf8.encode captured.value ++ chunk).length ≤ limitBytes
    · simp only [if_pos hroom, Bool.or_false]
      rw [Utf8.decode_encode_append, List.length_append]
      have hboth := Utf8.length_decode_append_le read chunk
      refine h.imp_right fun hlong => ?_
      omega
    · simp only [if_neg hroom, Bool.or_true]
      exact Or.inl trivial

/-! ## Split chunks -/

theorem exists_chunk {next : List (List UInt8)} (hne : next.flatten ≠ []) :
    ∃ empty chunk others, next = empty ++ chunk :: others ∧ empty.flatten = [] ∧ chunk ≠ [] := by
  induction next with
  | nil => exact absurd rfl hne
  | cons chunk rest ih =>
    by_cases hchunk : chunk = []
    · subst hchunk
      obtain ⟨empty, other, others, hrest, hempty, hother⟩ := ih hne
      exact ⟨[] :: empty, other, others, by rw [hrest]; rfl, hempty, hother⟩
    · exact ⟨[], chunk, rest, rfl, rfl, hchunk⟩

theorem exists_split {chunks : List (List UInt8)} (h : ¬ Unsplit limitBytes chunks) :
    ∃ before chunk others, chunks = before ++ chunk :: others ∧
      before.flatten.length < limitBytes ∧
      Utf8.Splits before.flatten (chunk.take (limitBytes - before.flatten.length)) := by
  obtain ⟨before, next, hchunks, hne, byte, rest, hnext, hcontinues⟩ : ∃ before next,
      chunks = before ++ next ∧
        Utf8.Splits before.flatten (next.flatten.take (limitBytes - before.flatten.length)) := by
    by_contra hnone
    exact h fun before next hchunks hsplits => hnone ⟨before, next, hchunks, hsplits⟩
  have hflatten : next.flatten ≠ [] := by
    intro hempty
    rw [hempty, List.take_nil] at hnext
    cases hnext
  obtain ⟨empty, chunk, others, heq, hempty, hchunk⟩ := exists_chunk hflatten
  have hsame : (before ++ empty).flatten = before.flatten := by
    rw [List.flatten_append, hempty, List.append_nil]
  refine ⟨before ++ empty, chunk, others, ?_, ?_, ?_⟩
  · rw [hchunks, heq, List.append_assoc]
  · rw [hsame]
    by_contra hfull
    rw [show limitBytes - before.flatten.length = 0 by omega, List.take_zero] at hnext
    cases hnext
  · rw [hsame]
    obtain ⟨first, tail, rfl⟩ := List.exists_cons_of_ne_nil hchunk
    rw [heq, List.flatten_append, hempty, List.nil_append, List.flatten_cons] at hnext
    have hroom : 0 < limitBytes - before.flatten.length := by
      by_contra hfull
      rw [show limitBytes - before.flatten.length = 0 by omega, List.take_zero] at hnext
      cases hnext
    obtain ⟨n, hn⟩ := Nat.exists_eq_add_of_lt hroom
    rw [hn] at hnext ⊢
    rw [show 0 + n + 1 = n + 1 by omega] at hnext ⊢
    rw [List.cons_append, List.take_succ_cons] at hnext
    cases hnext
    exact ⟨hne, byte, tail.take n, List.take_succ_cons, hcontinues⟩

theorem capture_append (before rest : List (List UInt8)) :
    capture limitBytes (before ++ rest) =
      rest.foldl (onData limitBytes) (capture limitBytes before) :=
  List.foldl_append

theorem capture_split_beyond {before others : List (List UInt8)} {chunk : List UInt8}
    (hbelow : before.flatten.length < limitBytes)
    (hsplits : Utf8.Splits before.flatten (chunk.take (limitBytes - before.flatten.length)))
    (hlonger : limitBytes < (before ++ chunk :: others).flatten.length)
    (hlast : (Utf8.decode ((before ++ chunk :: others).flatten.take limitBytes)).getLast? ≠
      some Utf8.replacement) :
    (capture limitBytes (before ++ chunk :: others)).value ≠
      Utf8.decode ((before ++ chunk :: others).flatten.take limitBytes) := by
  intro hvalue
  have hbase : Ahead limitBytes 0 0 before.flatten (capture limitBytes before).value :=
    @capture_ahead limitBytes 0 0 (Nat.zero_le _) [] ⟨[], false⟩ before
      ⟨Nat.le_of_eq rfl, Nat.le_of_eq (by rw [List.take_nil]; rfl)⟩
  have hsize := hbase.size
  have hproper := hbase.proper
  rw [Nat.sub_zero, List.take_of_length_le (by omega)] at hproper
  by_cases hahead : before.flatten.length < (Utf8.encode (capture limitBytes before).value).length
  · -- the last byte below the limit never fits
    have hone : Ahead limitBytes 1 0 before.flatten (capture limitBytes before).value := by
      refine ⟨by omega, ?_⟩
      rw [List.take_of_length_le (by omega)]
      exact hproper
    have hfinal := (capture_ahead (by omega) (chunk :: others) hone).proper
    rw [← capture_append, ← List.flatten_append, hvalue] at hfinal
    obtain ⟨byte, htake⟩ : ∃ byte, (before ++ chunk :: others).flatten.take limitBytes =
        (before ++ chunk :: others).flatten.take (limitBytes - 1) ++ [byte] := by
      refine ⟨(before ++ chunk :: others).flatten[limitBytes - 1], ?_⟩
      rw [List.take_append_getElem (by omega), Nat.sub_add_cancel (by omega)]
    rw [htake] at hfinal hlast
    have hless := Utf8.proper_decode_init _ _ hlast
    omega
  · -- the part before the split is three bytes long: its character is lost
    have hwide := @capture_wide limitBytes [] ⟨[], false⟩ before (Or.inr (Nat.le_refl _))
    have hsplit := Utf8.length_split hsplits.1
    have hshort := (Utf8.after_reads .start before.flatten).length_le
    have hsame : (Utf8.encode (Utf8.decode before.flatten)).length ≤ before.flatten.length := by
      rw [List.nil_append] at hwide
      change limitBytes ≤ (Utf8.encode (capture limitBytes before).value).length ∨
        _ ≤ (Utf8.encode (capture limitBytes before).value).length at hwide
      omega
    have hlost := Utf8.proper_decode_append_lt hsplits (by omega)
    have hequal : (Utf8.encode (capture limitBytes before).value).length =
      before.flatten.length := by omega
    have hone : Ahead limitBytes 0 1 (before.flatten ++ chunk)
        (onData limitBytes (capture limitBytes before) chunk).value := by
      have hnext := @appendLimited_ahead limitBytes 0 0 before.flatten chunk
        (capture limitBytes before).value (Nat.zero_le _) hbase
      refine ⟨hnext.size, ?_⟩
      show Utf8.proper (appendLimited (capture limitBytes before).value chunk limitBytes).value + 1
        ≤ _
      have htake : before.flatten.take limitBytes = before.flatten :=
        List.take_of_length_le (by omega)
      rw [appendLimited_below chunk (by omega), Utf8.proper_append, hequal, Nat.sub_zero,
        List.take_append, htake]
      omega
    have hfinal := (capture_ahead (by omega) others hone).proper
    rw [show others.foldl (onData limitBytes) (onData limitBytes (capture limitBytes before) chunk) =
      capture limitBytes (before ++ chunk :: others) by rw [capture_append]; rfl, hvalue] at hfinal
    rw [List.append_assoc, ← List.flatten_cons, ← List.flatten_append, Nat.sub_zero] at hfinal
    omega

theorem capture_split_below {before others : List (List UInt8)} {chunk : List UInt8}
    (hsplits : Utf8.Splits before.flatten (chunk.take (limitBytes - before.flatten.length)))
    (hkept : (capture limitBytes (before ++ chunk :: others)).truncated = false) :
    (capture limitBytes (before ++ chunk :: others)).value ≠
      Utf8.decode (before ++ chunk :: others).flatten := by
  intro hvalue
  have hbase := @capture_long limitBytes [] ⟨[], false⟩ 0 before (Or.inr (Nat.le_refl _))
  rw [List.nil_append] at hbase
  change (capture limitBytes before).truncated = true ∨
    (Utf8.decode before.flatten).length + 0 ≤ (capture limitBytes before).value.length at hbase
  have hone : (onData limitBytes (capture limitBytes before) chunk).truncated = true ∨
      (Utf8.decode (before.flatten ++ chunk)).length + 1 ≤
        (onData limitBytes (capture limitBytes before) chunk).value.length := by
    have hwhole : Utf8.Splits before.flatten chunk := by
      obtain ⟨hne, byte, rest, hnext, hcontinues⟩ := hsplits
      cases chunk with
      | nil =>
        rw [List.take_nil] at hnext
        cases hnext
      | cons first tail =>
        refine ⟨hne, first, tail, rfl, ?_⟩
        cases hroom : limitBytes - before.flatten.length with
        | zero =>
          rw [hroom, List.take_zero] at hnext
          cases hnext
        | succ n =>
          rw [hroom, List.take_succ_cons] at hnext
          cases hnext
          exact hcontinues
    have hless := Utf8.length_decode_append_lt hwhole
    unfold onData appendLimited
    by_cases hroom : (Utf8.encode (capture limitBytes before).value ++ chunk).length ≤ limitBytes
    · simp only [if_pos hroom, Bool.or_false]
      rw [Utf8.decode_encode_append, List.length_append]
      refine hbase.imp_right fun hlong => ?_
      omega
    · simp only [if_neg hroom, Bool.or_true]
      exact Or.inl trivial
  have hfinal := @capture_long limitBytes _ _ _ others hone
  rw [show others.foldl (onData limitBytes) (onData limitBytes (capture limitBytes before) chunk) =
    capture limitBytes (before ++ chunk :: others) by rw [capture_append]; rfl] at hfinal
  rw [List.append_assoc, ← List.flatten_cons, ← List.flatten_append, hvalue] at hfinal
  rcases hfinal with htruncated | hlong
  · rw [hkept] at htruncated
    cases htruncated
  · omega

/-! ## When the capture is faithful -/

/-- The first bytes of the stream end in a replacement, and others come after them. -/
def EndsReplaced (limitBytes : Nat) (stream : List UInt8) : Prop :=
  limitBytes < stream.length ∧
    (Utf8.decode (stream.take limitBytes)).getLast? = some Utf8.replacement

theorem unsplit_of_faithful {chunks : List (List UInt8)}
    (h : Faithful limitBytes chunks.flatten (capture limitBytes chunks)) :
    Unsplit limitBytes chunks ∨ EndsReplaced limitBytes chunks.flatten := by
  by_contra hneither
  rw [not_or] at hneither
  obtain ⟨before, chunk, others, rfl, hbelow, hsplits⟩ := exists_split hneither.1
  by_cases hlonger : limitBytes < (before ++ chunk :: others).flatten.length
  · exact capture_split_beyond hbelow hsplits hlonger (fun hlast => hneither.2 ⟨hlonger, hlast⟩)
      h.value
  · have hkept : (capture limitBytes (before ++ chunk :: others)).truncated = false := by
      rw [← Bool.not_eq_true]
      exact fun htruncated => hlonger (h.truncated.mp htruncated)
    have hvalue := h.value
    rw [List.take_of_length_le (by omega)] at hvalue
    exact capture_split_below hsplits hkept hvalue

/-- Unsplit chunks are captured as their stream is if its first bytes fit, and no others are, unless
the first bytes end in a replacement. -/
theorem captured_faithfully (limitBytes : Nat) (chunks : List (List UInt8)) :
    (Fits limitBytes chunks.flatten ∧ Unsplit limitBytes chunks →
      Faithful limitBytes chunks.flatten (capture limitBytes chunks)) ∧
    (Faithful limitBytes chunks.flatten (capture limitBytes chunks) →
      Fits limitBytes chunks.flatten ∧
        (Unsplit limitBytes chunks ∨ EndsReplaced limitBytes chunks.flatten)) := by
  refine ⟨fun h => capture_faithful h.1 h.2, fun h => ⟨?_, unsplit_of_faithful h⟩⟩
  have hsize := h.size
  rwa [h.value] at hsize

/-- Two chunks between which no character is split. -/
theorem captured_faithfully_apart :
    Faithful 64 [0xC3, 0xA9, 0x0A] (capture 64 [[0xC3, 0xA9], [0x0A]]) := by
  refine (captured_faithfully 64 [[0xC3, 0xA9], [0x0A]]).1 ⟨?_, ?_⟩
  · unfold Fits
    decide
  · intro before next hchunks hsplits
    have hbetween : Utf8.after [] before.flatten = [] := by
      match before with
      | [] => rfl
      | [chunk] =>
        cases hchunks
        decide
      | chunk :: other :: others =>
        cases others with
        | nil =>
          cases hchunks
          decide
        | cons third rest => cases hchunks
    exact hsplits.1 hbetween

/-- A character that comes in two chunks is captured as two replacements. -/
theorem captured_split :
    capture 64 [[0xC3], [0xA9]] = ⟨[Utf8.replacement, Utf8.replacement], false⟩ ∧
      Utf8.decode [0xC3, 0xA9] = ['é'] ∧
      ¬ Faithful 64 [0xC3, 0xA9] (capture 64 [[0xC3], [0xA9]]) := by
  refine ⟨by decide, by decide, fun h => ?_⟩
  have hvalue := h.value
  revert hvalue
  decide

end HarnessControl.LocalActions
