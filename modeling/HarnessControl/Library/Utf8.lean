import Mathlib.Data.List.Basic

/-!
# UTF-8 with replacement

A decoder reads one byte after another and keeps the bytes of the sequence that it is in.  What is
no sequence is replaced by U+FFFD, one for each longest part that a sequence could start with, as
the encoding standard has it.  The encoder is `String.utf8EncodeChar`.
-/

namespace HarnessControl.Library.Utf8

/-- The characters of a text are looked through one by one, and not all characters that there are. -/
instance (priority := high) decidableForallChars {p : Char → Prop} [DecidablePred p]
    (text : List Char) : Decidable (∀ c ∈ text, p c) := List.decidableBAll p text

/-! ## Sequences -/

/-- The length of a sequence by its first byte; `0` for a byte that starts none. -/
def sequenceLength (lead : UInt8) : Nat :=
  if lead.toNat ≤ 0x7F then 1
  else if 0xC2 ≤ lead.toNat ∧ lead.toNat ≤ 0xDF then 2
  else if 0xE0 ≤ lead.toNat ∧ lead.toNat ≤ 0xEF then 3
  else if 0xF0 ≤ lead.toNat ∧ lead.toNat ≤ 0xF4 then 4
  else 0

/-- The least second byte: no sequence is longer than it need be. -/
def lower (lead : UInt8) : Nat :=
  if lead.toNat = 0xE0 then 0xA0 else if lead.toNat = 0xF0 then 0x90 else 0x80

/-- The greatest second byte: no sequence is of a surrogate, or beyond the last scalar. -/
def upper (lead : UInt8) : Nat :=
  if lead.toNat = 0xED then 0x9F else if lead.toNat = 0xF4 then 0x8F else 0xBF

/-- The byte may come after those of a sequence that were seen. -/
def continues (seen : List UInt8) (byte : UInt8) : Bool :=
  match seen with
  | [lead] => decide (lower lead ≤ byte.toNat) && decide (byte.toNat ≤ upper lead)
  | _ => decide (0x80 ≤ byte.toNat) && decide (byte.toNat ≤ 0xBF)

/-- The sequence of these bytes needs as many. -/
def needed : List UInt8 → Nat
  | [] => 0
  | lead :: _ => sequenceLength lead

def scalarValue : List UInt8 → Nat
  | [a] => a.toNat
  | [a, b] => (a.toNat % 32) * 64 + b.toNat % 64
  | [a, b, c] => ((a.toNat % 16) * 64 + b.toNat % 64) * 64 + c.toNat % 64
  | [a, b, c, d] => (((a.toNat % 8) * 64 + b.toNat % 64) * 64 + c.toNat % 64) * 64 + d.toNat % 64
  | _ => 0xFFFD

def character (bytes : List UInt8) : Char := Char.ofNat (scalarValue bytes)

def replacement : Char := '\uFFFD'

/-! ## The decoder -/

/-- A byte between two sequences. -/
def begin (byte : UInt8) : List UInt8 × List Char :=
  if sequenceLength byte = 0 then ([], [replacement])
  else if sequenceLength byte = 1 then ([], [character [byte]])
  else ([byte], [])

/-- A byte after those of a sequence that were seen: what is seen then, and what is read. -/
def step (seen : List UInt8) (byte : UInt8) : List UInt8 × List Char :=
  if seen = [] then begin byte
  else if continues seen byte then
    if needed seen = seen.length + 1 then ([], [character (seen ++ [byte])])
    else (seen ++ [byte], [])
  else ((begin byte).1, replacement :: (begin byte).2)

/-- The bytes that are seen of a sequence after all these. -/
def after (seen : List UInt8) : List UInt8 → List UInt8
  | [] => seen
  | byte :: rest => after (step seen byte).1 rest

/-- The characters that were read when all these bytes were. -/
def emitted (seen : List UInt8) : List UInt8 → List Char
  | [] => []
  | byte :: rest => (step seen byte).2 ++ emitted (step seen byte).1 rest

/-- At the end of the input. -/
def flush (seen : List UInt8) : List Char := if seen = [] then [] else [replacement]

def decodeFrom (seen bytes : List UInt8) : List Char :=
  emitted seen bytes ++ flush (after seen bytes)

def decode (bytes : List UInt8) : List Char := decodeFrom [] bytes

def encode (characters : List Char) : List UInt8 := characters.flatMap String.utf8EncodeChar

/-- The byte may come in a sequence after those that were seen. -/
def accepts (seen : List UInt8) (byte : UInt8) : Bool :=
  if seen = [] then decide (sequenceLength byte ≠ 0) else continues seen byte

/-- Nothing of the bytes is replaced. -/
def validFrom (seen : List UInt8) : List UInt8 → Bool
  | [] => seen.isEmpty
  | byte :: rest => accepts seen byte && validFrom (step seen byte).1 rest

def valid (bytes : List UInt8) : Bool := validFrom [] bytes

/-! ## Splitting the input -/

theorem after_append (seen first second : List UInt8) :
    after seen (first ++ second) = after (after seen first) second := by
  induction first generalizing seen with
  | nil => rfl
  | cons byte rest ih => exact ih (step seen byte).1

theorem emitted_append (seen first second : List UInt8) :
    emitted seen (first ++ second) = emitted seen first ++ emitted (after seen first) second := by
  induction first generalizing seen with
  | nil => rfl
  | cons byte rest ih =>
    show (step seen byte).2 ++ emitted (step seen byte).1 (rest ++ second) =
      ((step seen byte).2 ++ emitted (step seen byte).1 rest) ++ _
    rw [ih, List.append_assoc]
    rfl

theorem decodeFrom_cons (seen : List UInt8) (byte : UInt8) (rest : List UInt8) :
    decodeFrom seen (byte :: rest) = (step seen byte).2 ++ decodeFrom (step seen byte).1 rest :=
  List.append_assoc _ _ _

variable {first second : List UInt8}

theorem decode_append (hbetween : after [] first = []) :
    decode (first ++ second) = decode first ++ decode second := by
  unfold decode decodeFrom
  rw [emitted_append, after_append, hbetween]
  show _ = (emitted [] first ++ []) ++ _
  rw [List.append_nil, List.append_assoc]

theorem encode_append (first second : List Char) :
    encode (first ++ second) = encode first ++ encode second :=
  List.flatMap_append

theorem continues_ascii (seen : List UInt8) {byte : UInt8} (hascii : byte.toNat ≤ 0x7F) :
    continues seen byte = false := by
  unfold continues
  split
  · rename_i lead
    have hlower : 0x80 ≤ lower lead := by
      unfold lower
      split
      · omega
      · split <;> omega
    rw [Bool.and_eq_false_iff]
    exact Or.inl (decide_eq_false (by omega))
  · rw [Bool.and_eq_false_iff]
    exact Or.inl (decide_eq_false (by omega))

theorem step_ascii (seen : List UInt8) {byte : UInt8} (hascii : byte.toNat ≤ 0x7F) :
    (step seen byte).1 = [] := by
  have hlength : sequenceLength byte = 1 := by
    unfold sequenceLength
    rw [if_pos hascii]
  have hbegin : (begin byte).1 = [] := by
    unfold begin
    rw [hlength]
    rfl
  unfold step
  split
  · exact hbegin
  · rw [continues_ascii seen hascii]
    exact hbegin

theorem after_ascii (seen first : List UInt8) {byte : UInt8} (hascii : byte.toNat ≤ 0x7F) :
    after seen (first ++ [byte]) = [] := by
  rw [after_append]
  exact step_ascii _ hascii

/-! ## Sequences and characters -/

/-- What is seen of a sequence that has not ended. -/
inductive Reads : List UInt8 → Prop where
  | start : Reads []
  | one {a : UInt8} : 2 ≤ sequenceLength a → Reads [a]
  | two {a b : UInt8} : 3 ≤ sequenceLength a → continues [a] b = true → Reads [a, b]
  | three {a b c : UInt8} : 4 ≤ sequenceLength a → continues [a] b = true →
    continues [a, b] c = true → Reads [a, b, c]

theorem sequenceLength_le (lead : UInt8) : sequenceLength lead ≤ 4 := by
  unfold sequenceLength
  repeat' split
  all_goals omega

variable {a b : UInt8}

theorem continues_lead (h : continues [a] b = true) :
    lower a ≤ b.toNat ∧ b.toNat ≤ upper a := by
  unfold continues at h
  rwa [Bool.and_eq_true, decide_eq_true_iff, decide_eq_true_iff] at h

theorem continues_tail {rest : List UInt8} {c : UInt8}
    (h : continues (a :: b :: rest) c = true) : 0x80 ≤ c.toNat ∧ c.toNat ≤ 0xBF := by
  unfold continues at h
  rwa [Bool.and_eq_true, decide_eq_true_iff, decide_eq_true_iff] at h

theorem begin_reads (byte : UInt8) : Reads (begin byte).1 := by
  unfold begin
  split
  · exact .start
  · split
    · exact .start
    · exact .one (by omega)

variable {seen : List UInt8}

theorem step_reads (h : Reads seen) (byte : UInt8) :
    Reads (step seen byte).1 := by
  unfold step
  split
  · exact begin_reads byte
  · split
    · rename_i hne hcontinues
      split
      · exact .start
      · rename_i hmore
        cases h with
        | start => exact absurd rfl hne
        | one ha => exact .two (by simp only [needed, List.length_singleton] at hmore; omega) hcontinues
        | @two a b ha hb =>
          have hle := sequenceLength_le a
          simp only [needed, List.length_cons, List.length_nil] at hmore
          exact .three (by omega) hb hcontinues
        | @three a b c ha hb hc =>
          have hle := sequenceLength_le a
          simp only [needed, List.length_cons, List.length_nil] at hmore
          omega
    · exact begin_reads byte

variable {bytes : List UInt8}

theorem toNat_character (h : (scalarValue bytes).isValidChar) :
    (character bytes).val.toNat = scalarValue bytes := by
  unfold character Char.ofNat
  rw [dif_pos h]
  rfl

theorem encode_one {a : UInt8} (ha : sequenceLength a = 1) :
    String.utf8EncodeChar (character [a]) = [a] := by
  have hbound : a.toNat ≤ 0x7F := by
    unfold sequenceLength at ha
    repeat' split at ha
    all_goals omega
  have hvalue : (character [a]).val.toNat = a.toNat := by
    apply toNat_character
    exact Or.inl (by show a.toNat < 55296; omega)
  unfold String.utf8EncodeChar
  simp only [hvalue]
  rw [if_pos hbound, UInt8.ofNat_toNat]

theorem lower_ge (lead : UInt8) : 0x80 ≤ lower lead := by
  unfold lower
  repeat' split
  all_goals omega

theorem upper_le (lead : UInt8) : upper lead ≤ 0xBF := by
  unfold upper
  repeat' split
  all_goals omega

theorem ofNat_eq {n : Nat} (byte : UInt8) (h : n % 256 = byte.toNat) : UInt8.ofNat n = byte := by
  apply UInt8.toNat_inj.mp
  rw [UInt8.toNat_ofNat']
  exact h

theorem encode_two (ha : sequenceLength a = 2) (hb : continues [a] b = true) :
    String.utf8EncodeChar (character [a, b]) = [a, b] := by
  have hlead : 0xC2 ≤ a.toNat ∧ a.toNat ≤ 0xDF := by
    unfold sequenceLength at ha
    repeat' split at ha
    all_goals omega
  obtain ⟨hlow, hhigh⟩ := continues_lead hb
  have hleast := lower_ge a
  have hgreatest := upper_le a
  have hvalue : (character [a, b]).val.toNat = (a.toNat % 32) * 64 + b.toNat % 64 := by
    apply toNat_character
    exact Or.inl (by show (a.toNat % 32) * 64 + b.toNat % 64 < 55296; omega)
  unfold String.utf8EncodeChar
  simp only [hvalue]
  rw [if_neg (by omega), if_pos (by omega)]
  rw [ofNat_eq a (by omega), ofNat_eq b (by omega)]

/-- The characters of three bytes; neither a surrogate nor a character of two bytes is one. -/
theorem encode_three {a b c : UInt8} (ha : sequenceLength a = 3) (hb : continues [a] b = true)
    (hc : continues [a, b] c = true) :
    String.utf8EncodeChar (character [a, b, c]) = [a, b, c] := by
  have hlead : 0xE0 ≤ a.toNat ∧ a.toNat ≤ 0xEF := by
    unfold sequenceLength at ha
    repeat' split at ha
    all_goals omega
  obtain ⟨hlow, hhigh⟩ := continues_lead hb
  have hleast := lower_ge a
  have hgreatest := upper_le a
  have hfirst : a.toNat = 0xE0 → 0xA0 ≤ b.toNat := by
    intro h
    unfold lower at hlow
    rw [if_pos h] at hlow
    exact hlow
  have hsurrogate : a.toNat = 0xED → b.toNat ≤ 0x9F := by
    intro h
    unfold upper at hhigh
    rw [if_pos h] at hhigh
    exact hhigh
  have htail := continues_tail hc
  have hvalue : (character [a, b, c]).val.toNat =
      ((a.toNat % 16) * 64 + b.toNat % 64) * 64 + c.toNat % 64 := by
    apply toNat_character
    show ((a.toNat % 16) * 64 + b.toNat % 64) * 64 + c.toNat % 64 < 55296 ∨
      57343 < ((a.toNat % 16) * 64 + b.toNat % 64) * 64 + c.toNat % 64 ∧
        ((a.toNat % 16) * 64 + b.toNat % 64) * 64 + c.toNat % 64 < 1114112
    omega
  unfold String.utf8EncodeChar
  simp only [hvalue]
  rw [if_neg (by omega), if_neg (by omega), if_pos (by omega)]
  rw [ofNat_eq a (by omega), ofNat_eq b (by omega), ofNat_eq c (by omega)]

theorem encode_four {a b c d : UInt8} (ha : sequenceLength a = 4) (hb : continues [a] b = true)
    (hc : continues [a, b] c = true) (hd : continues [a, b, c] d = true) :
    String.utf8EncodeChar (character [a, b, c, d]) = [a, b, c, d] := by
  have hlead : 0xF0 ≤ a.toNat ∧ a.toNat ≤ 0xF4 := by
    unfold sequenceLength at ha
    repeat' split at ha
    all_goals omega
  obtain ⟨hlow, hhigh⟩ := continues_lead hb
  have hleast := lower_ge a
  have hgreatest := upper_le a
  have hfirst : a.toNat = 0xF0 → 0x90 ≤ b.toNat := by
    intro h
    unfold lower at hlow
    rw [if_neg (by omega), if_pos h] at hlow
    exact hlow
  have hlast : a.toNat = 0xF4 → b.toNat ≤ 0x8F := by
    intro h
    unfold upper at hhigh
    rw [if_neg (by omega), if_pos h] at hhigh
    exact hhigh
  have hthird := continues_tail hc
  have hfourth := continues_tail hd
  have hvalue : (character [a, b, c, d]).val.toNat =
      (((a.toNat % 8) * 64 + b.toNat % 64) * 64 + c.toNat % 64) * 64 + d.toNat % 64 := by
    apply toNat_character
    refine Or.inr ⟨?_, ?_⟩
    · show 57343 < (((a.toNat % 8) * 64 + b.toNat % 64) * 64 + c.toNat % 64) * 64 + d.toNat % 64
      omega
    · show (((a.toNat % 8) * 64 + b.toNat % 64) * 64 + c.toNat % 64) * 64 + d.toNat % 64 < 1114112
      omega
  unfold String.utf8EncodeChar
  simp only [hvalue]
  rw [if_neg (by omega), if_neg (by omega), if_neg (by omega)]
  rw [ofNat_eq a (by omega), ofNat_eq b (by omega), ofNat_eq c (by omega), ofNat_eq d (by omega)]

theorem encode_character (h : Reads seen) {byte : UInt8} (hne : seen ≠ [])
    (hcontinues : continues seen byte = true) (hneeded : needed seen = seen.length + 1) :
    String.utf8EncodeChar (character (seen ++ [byte])) = seen ++ [byte] := by
  cases h with
  | start => exact absurd rfl hne
  | one ha => exact encode_two hneeded hcontinues
  | two ha hb => exact encode_three hneeded hb hcontinues
  | three ha hb hc => exact encode_four hneeded hb hc hcontinues

/-- What a step does: a sequence ends or goes on, or something is replaced. -/
inductive Stepped (seen : List UInt8) (byte : UInt8) : Prop where
  | ends (c : Char) : accepts seen byte = true → step seen byte = ([], [c]) →
    String.utf8EncodeChar c = seen ++ [byte] → Stepped seen byte
  | goesOn : accepts seen byte = true → step seen byte = (seen ++ [byte], []) → Stepped seen byte
  | nothing : seen = [] → accepts seen byte = false → step seen byte = ([], [replacement]) →
    Stepped seen byte
  | breaksOff : seen ≠ [] → accepts seen byte = false →
    step seen byte = ((begin byte).1, replacement :: (begin byte).2) → Stepped seen byte

theorem stepped (h : Reads seen) (byte : UInt8) : Stepped seen byte := by
  by_cases hseen : seen = []
  · subst hseen
    have hstep : step [] byte = begin byte := if_pos rfl
    by_cases hnone : sequenceLength byte = 0
    · refine .nothing rfl ?_ ?_
      · unfold accepts
        rw [if_pos rfl, hnone]
        rfl
      · rw [hstep]
        exact if_pos hnone
    · have haccepts : accepts [] byte = true := by
        unfold accepts
        rw [if_pos rfl, decide_eq_true_iff]
        exact hnone
      by_cases hone : sequenceLength byte = 1
      · refine .ends (character [byte]) haccepts ?_ (encode_one hone)
        rw [hstep]
        unfold begin
        rw [if_neg hnone, if_pos hone]
      · refine .goesOn haccepts ?_
        rw [hstep]
        unfold begin
        rw [if_neg hnone, if_neg hone]
        rfl
  · have haccepts : accepts seen byte = continues seen byte := if_neg hseen
    by_cases hcontinues : continues seen byte = true
    · by_cases hneeded : needed seen = seen.length + 1
      · refine .ends (character (seen ++ [byte])) (haccepts.trans hcontinues) ?_
          (encode_character h hseen hcontinues hneeded)
        unfold step
        rw [if_neg hseen, if_pos hcontinues, if_pos hneeded]
      · refine .goesOn (haccepts.trans hcontinues) ?_
        unfold step
        rw [if_neg hseen, if_pos hcontinues, if_neg hneeded]
    · refine .breaksOff hseen ?_ ?_
      · rw [haccepts]
        exact Bool.not_eq_true _ ▸ hcontinues
      · unfold step
        rw [if_neg hseen, if_neg hcontinues]

/-! ## Decoding and encoding -/

variable {seen bytes : List UInt8}

theorem encode_decodeFrom (h : Reads seen)
    (hvalid : validFrom seen bytes = true) : encode (decodeFrom seen bytes) = seen ++ bytes := by
  induction bytes generalizing seen with
  | nil =>
    have hseen : seen = [] := List.isEmpty_iff.mp hvalid
    subst hseen
    rfl
  | cons byte rest ih =>
    unfold validFrom at hvalid
    rw [Bool.and_eq_true] at hvalid
    have hrest := ih (step_reads h byte) hvalid.2
    rw [decodeFrom_cons, encode_append, hrest]
    cases stepped h byte with
    | ends c _ hstep hc =>
      rw [hstep]
      show (String.utf8EncodeChar c ++ []) ++ ([] ++ rest) = _
      rw [hc, List.append_nil, List.nil_append, List.append_assoc]
      rfl
    | goesOn _ hstep =>
      rw [hstep]
      show (seen ++ [byte]) ++ rest = _
      rw [List.append_assoc]
      rfl
    | nothing _ hnot _ =>
      rw [hnot] at hvalid
      exact absurd hvalid.1 Bool.false_ne_true
    | breaksOff _ hnot _ =>
      rw [hnot] at hvalid
      exact absurd hvalid.1 Bool.false_ne_true

theorem encode_decode (hvalid : valid bytes = true) :
    encode (decode bytes) = bytes :=
  encode_decodeFrom .start hvalid

theorem Reads.length_le (h : Reads seen) : seen.length ≤ 3 := by
  cases h with
  | start => exact Nat.zero_le 3
  | one _ => exact Nat.le_add_left 1 2
  | two _ _ => exact Nat.le_add_left 2 1
  | three _ _ _ => exact Nat.le_refl 3

theorem encode_cons (c : Char) (rest : List Char) :
    encode (c :: rest) = String.utf8EncodeChar c ++ encode rest := rfl

theorem utf8Size_eq (c : Char) : c.utf8Size =
    if c.toNat ≤ 0x7F then 1 else if c.toNat ≤ 0x7FF then 2 else if c.toNat ≤ 0xFFFF then 3
    else 4 := by
  unfold Char.utf8Size
  simp only [UInt32.le_iff_toNat_le]
  rfl

theorem length_replacement : (String.utf8EncodeChar replacement).length = 3 := by decide

theorem length_encode_pos (c : Char) (rest : List Char) : 0 < (encode (c :: rest)).length := by
  rw [encode_cons, List.length_append, String.length_utf8EncodeChar]
  have hpos := c.utf8Size_pos
  omega

theorem length_le_encode (text : List Char) : text.length ≤ (encode text).length := by
  induction text with
  | nil => exact Nat.le_refl _
  | cons c rest ih =>
    have hpos := c.utf8Size_pos
    rw [encode_cons, List.length_append, String.length_utf8EncodeChar, List.length_cons]
    omega

theorem length_begin (byte : UInt8) :
    1 ≤ (encode (begin byte).2).length + (begin byte).1.length := by
  unfold begin
  split
  · exact Nat.le_add_right_of_le (length_encode_pos _ _)
  · split
    · exact Nat.le_add_right_of_le (length_encode_pos _ _)
    · exact Nat.le_add_left 1 _

theorem length_emitted (h : Reads seen) (bytes : List UInt8) :
    seen.length + bytes.length ≤
      (encode (emitted seen bytes)).length + (after seen bytes).length := by
  induction bytes generalizing seen with
  | nil => exact Nat.le_add_left seen.length 0
  | cons byte rest ih =>
    have hrest := ih (step_reads h byte)
    have hseen := h.length_le
    show _ ≤ (encode ((step seen byte).2 ++ emitted (step seen byte).1 rest)).length +
      (after (step seen byte).1 rest).length
    rw [encode_append, List.length_append, List.length_cons]
    cases stepped h byte with
    | ends c _ hstep hc =>
      have hlength : (encode [c]).length = seen.length + 1 := by
        rw [encode_cons, hc]
        simp [encode]
      rw [hstep] at hrest ⊢
      simp only [List.length_nil] at hrest ⊢
      omega
    | goesOn _ hstep =>
      rw [hstep] at hrest ⊢
      simp only [List.length_append, List.length_singleton] at hrest
      simp only [encode, List.flatMap_nil, List.length_nil] at hrest ⊢
      omega
    | nothing hempty _ hstep =>
      have hlength : (encode [replacement]).length = 3 := by decide
      rw [hstep] at hrest ⊢
      rw [hempty]
      simp only [List.length_nil] at hrest ⊢
      omega
    | breaksOff _ _ hstep =>
      have hbegin := length_begin byte
      rw [hstep] at hrest ⊢
      simp only [encode_cons, List.length_append, length_replacement] at hrest ⊢
      omega

theorem after_reads (h : Reads seen) (bytes : List UInt8) :
    Reads (after seen bytes) := by
  induction bytes generalizing seen with
  | nil => exact h
  | cons byte rest ih => exact ih (step_reads h byte)

theorem length_flush (h : Reads seen) :
    seen.length ≤ (encode (flush seen)).length := by
  have hseen := h.length_le
  unfold flush
  split
  · rename_i hempty
    rw [hempty]
    exact Nat.zero_le _
  · rw [encode_cons, List.length_append, length_replacement]
    omega

theorem length_decode (bytes : List UInt8) : bytes.length ≤ (encode (decode bytes)).length := by
  have hemitted := length_emitted .start bytes
  have hflush := length_flush (after_reads .start bytes)
  rw [List.length_nil, Nat.zero_add] at hemitted
  show _ ≤ (encode (emitted [] bytes ++ flush (after [] bytes))).length
  rw [encode_append, List.length_append]
  omega

/-! ## Encoding and decoding -/

/-- The bytes of one character. -/
inductive Sequence : List UInt8 → Prop where
  | one {a : UInt8} : sequenceLength a = 1 → Sequence [a]
  | two {a b : UInt8} : sequenceLength a = 2 → continues [a] b = true → Sequence [a, b]
  | three {a b c : UInt8} : sequenceLength a = 3 → continues [a] b = true →
    continues [a, b] c = true → Sequence [a, b, c]
  | four {a b c d : UInt8} : sequenceLength a = 4 → continues [a] b = true →
    continues [a, b] c = true → continues [a, b, c] d = true → Sequence [a, b, c, d]

theorem toNat_ofNat_lt {n : Nat} (h : n < 256) : (UInt8.ofNat n).toNat = n := by
  rw [UInt8.toNat_ofNat']
  omega

theorem continues_of_le {rest : List UInt8} {c : UInt8}
    (h : 0x80 ≤ c.toNat ∧ c.toNat ≤ 0xBF) : continues (a :: b :: rest) c = true := by
  unfold continues
  rw [Bool.and_eq_true, decide_eq_true_iff, decide_eq_true_iff]
  exact h

theorem continues_of_lead (h : lower a ≤ b.toNat ∧ b.toNat ≤ upper a) :
    continues [a] b = true := by
  unfold continues
  rw [Bool.and_eq_true, decide_eq_true_iff, decide_eq_true_iff]
  exact h

theorem sequence_encode (c : Char) :
    Sequence (String.utf8EncodeChar c) ∧
      scalarValue (String.utf8EncodeChar c) = c.val.toNat := by
  have hvalid : c.val.toNat < 0xD800 ∨ (0xDFFF < c.val.toNat ∧ c.val.toNat < 0x110000) := c.valid
  unfold String.utf8EncodeChar
  dsimp only
  generalize c.val.toNat = v at hvalid
  by_cases h1 : v ≤ 0x7F
  · rw [if_pos h1]
    have ha := toNat_ofNat_lt (show v < 256 by omega)
    refine ⟨.one ?_, ha⟩
    unfold sequenceLength
    rw [ha, if_pos h1]
  rw [if_neg h1]
  by_cases h2 : v ≤ 0x7FF
  · rw [if_pos h2]
    have ha := toNat_ofNat_lt (show v / 64 % 0x20 + 0xC0 < 256 by omega)
    have hb := toNat_ofNat_lt (show v % 0x40 + 0x80 < 256 by omega)
    refine ⟨.two ?_ (continues_of_lead ?_), ?_⟩
    · unfold sequenceLength
      rw [ha, if_neg (by omega), if_pos (by omega)]
    · unfold lower upper
      rw [ha, hb]
      repeat' split
      all_goals omega
    · show _ % 32 * 64 + _ % 64 = v
      rw [ha, hb]
      omega
  rw [if_neg h2]
  by_cases h3 : v ≤ 0xFFFF
  · rw [if_pos h3]
    have ha := toNat_ofNat_lt (show v / 4096 % 0x10 + 0xE0 < 256 by omega)
    have hb := toNat_ofNat_lt (show v / 64 % 0x40 + 0x80 < 256 by omega)
    have hc := toNat_ofNat_lt (show v % 0x40 + 0x80 < 256 by omega)
    refine ⟨.three ?_ (continues_of_lead ?_) (continues_of_le ?_), ?_⟩
    · unfold sequenceLength
      rw [ha, if_neg (by omega), if_neg (by omega), if_pos (by omega)]
    · unfold lower upper
      rw [ha, hb]
      repeat' split
      all_goals omega
    · rw [hc]
      omega
    · show (_ % 16 * 64 + _ % 64) * 64 + _ % 64 = v
      rw [ha, hb, hc]
      omega
  rw [if_neg h3]
  have ha := toNat_ofNat_lt (show v / 262144 % 0x08 + 0xF0 < 256 by omega)
  have hb := toNat_ofNat_lt (show v / 4096 % 0x40 + 0x80 < 256 by omega)
  have hc := toNat_ofNat_lt (show v / 64 % 0x40 + 0x80 < 256 by omega)
  have hd := toNat_ofNat_lt (show v % 0x40 + 0x80 < 256 by omega)
  refine ⟨.four ?_ (continues_of_lead ?_) (continues_of_le ?_) (continues_of_le ?_), ?_⟩
  · unfold sequenceLength
    rw [ha, if_neg (by omega), if_neg (by omega), if_neg (by omega), if_pos (by omega)]
  · unfold lower upper
    rw [ha, hb]
    repeat' split
    all_goals omega
  · rw [hc]
    omega
  · rw [hd]
    omega
  · show ((_ % 8 * 64 + _ % 64) * 64 + _ % 64) * 64 + _ % 64 = v
    rw [ha, hb, hc, hd]
    omega

theorem Sequence.reads (h : Sequence bytes) (rest : List UInt8) :
    decode (bytes ++ rest) = character bytes :: decode rest ∧
      valid (bytes ++ rest) = valid rest := by
  unfold decode valid
  cases h with
  | one ha => simp [decodeFrom_cons, validFrom, accepts, step, begin, ha]
  | two ha hb => simp [decodeFrom_cons, validFrom, accepts, step, begin, needed, ha, hb]
  | three ha hb hc => simp [decodeFrom_cons, validFrom, accepts, step, begin, needed, ha, hb, hc]
  | four ha hb hc hd =>
    simp [decodeFrom_cons, validFrom, accepts, step, begin, needed, ha, hb, hc, hd]

theorem character_encode (c : Char) : character (String.utf8EncodeChar c) = c := by
  unfold character
  rw [(sequence_encode c).2]
  exact Char.ofNat_toNat c

theorem decode_encodeChar_append (c : Char) (rest : List UInt8) :
    decode (String.utf8EncodeChar c ++ rest) = c :: decode rest := by
  rw [((sequence_encode c).1.reads rest).1, character_encode]

theorem decode_encode_append (text : List Char) (rest : List UInt8) :
    decode (encode text ++ rest) = text ++ decode rest := by
  induction text with
  | nil => rfl
  | cons c others ih =>
    rw [encode_cons, List.append_assoc, decode_encodeChar_append, ih, List.cons_append]

theorem decode_encode (text : List Char) : decode (encode text) = text := by
  have h := decode_encode_append text []
  rwa [List.append_nil, show decode [] = [] from rfl, List.append_nil] at h

theorem valid_encode_append (text : List Char) (rest : List UInt8) :
    valid (encode text ++ rest) = valid rest := by
  induction text with
  | nil => rfl
  | cons c others ih =>
    rw [encode_cons, List.append_assoc, ((sequence_encode c).1.reads _).2, ih]

theorem valid_encode (text : List Char) : valid (encode text) = true := by
  have h := valid_encode_append text []
  rwa [List.append_nil] at h

theorem valid_of_append {seen first second : List UInt8}
    (hstart : ∀ byte rest, second = byte :: rest → ∀ seen', Reads seen' → seen' ≠ [] →
      continues seen' byte = false)
    (h : Reads seen) (hvalid : validFrom seen (first ++ second) = true) :
    validFrom seen first = true := by
  induction first generalizing seen with
  | nil =>
    cases second with
    | nil => exact hvalid
    | cons byte rest =>
      by_contra hseen
      have hne : seen ≠ [] := fun hempty => hseen (List.isEmpty_iff.mpr hempty)
      unfold validFrom accepts at hvalid
      rw [List.nil_append] at hvalid
      dsimp only at hvalid
      rw [if_neg hne, hstart byte rest rfl seen h hne] at hvalid
      cases hvalid
  | cons byte rest ih =>
    unfold validFrom at hvalid ⊢
    rw [List.cons_append] at hvalid
    dsimp only at hvalid
    rw [Bool.and_eq_true] at hvalid ⊢
    exact ⟨hvalid.1, ih (step_reads h byte) hvalid.2⟩

theorem after_valid (hvalid : validFrom seen bytes = true) :
    after seen bytes = [] := by
  induction bytes generalizing seen with
  | nil => exact List.isEmpty_iff.mp hvalid
  | cons byte rest ih =>
    unfold validFrom at hvalid
    rw [Bool.and_eq_true] at hvalid
    exact ih hvalid.2

theorem validFrom_append {seen first : List UInt8} (h : after seen first = [])
    (second : List UInt8) :
    validFrom seen (first ++ second) = (validFrom seen first && valid second) := by
  induction first generalizing seen with
  | nil =>
    rw [show seen = [] from h]
    rfl
  | cons byte rest ih =>
    rw [List.cons_append]
    unfold validFrom
    rw [ih h, Bool.and_assoc]

theorem valid_append {first : List UInt8} (h : after [] first = []) (second : List UInt8) :
    valid (first ++ second) = (valid first && valid second) := validFrom_append h second

theorem encode_start {text : List Char} {byte : UInt8} {rest : List UInt8}
    (h : encode text = byte :: rest) (seen : List UInt8) : continues seen byte = false := by
  have hlead : sequenceLength byte ≠ 0 := by
    cases text with
    | nil => cases h
    | cons c others =>
      rw [encode_cons] at h
      have hsequence := (sequence_encode c).1
      generalize String.utf8EncodeChar c = bytes at h hsequence
      cases hsequence with
      | one ha => cases h; omega
      | two ha _ => cases h; omega
      | three ha _ _ => cases h; omega
      | four ha _ _ _ => cases h; omega
  have hrange : ¬ (0x80 ≤ byte.toNat ∧ byte.toNat ≤ 0xBF) := by
    intro hrange
    apply hlead
    unfold sequenceLength
    rw [if_neg (by omega), if_neg (by omega), if_neg (by omega), if_neg (by omega)]
  rw [← Bool.not_eq_true]
  intro hcontinues
  apply hrange
  match seen with
  | [] =>
    unfold continues at hcontinues
    rwa [Bool.and_eq_true, decide_eq_true_iff, decide_eq_true_iff] at hcontinues
  | [lead] =>
    have hbounds := continues_lead hcontinues
    have hlower := lower_ge lead
    have hupper := upper_le lead
    omega
  | _ :: _ :: _ => exact continues_tail hcontinues

theorem mem_step_seen {byte other : UInt8} (h : other ∈ (step seen byte).1) :
    other ∈ seen ++ [byte] := by
  have hbegin : other ∈ (begin byte).1 → other ∈ seen ++ [byte] := by
    intro hother
    unfold begin at hother
    split at hother
    · exact absurd hother List.not_mem_nil
    split at hother
    · exact absurd hother List.not_mem_nil
    · exact List.mem_append_right _ hother
  unfold step at h
  split at h
  · exact hbegin h
  split at h
  · split at h
    · exact absurd h List.not_mem_nil
    · exact h
  · exact hbegin h

theorem mem_step_characters (h : Reads seen) {byte : UInt8} {c : Char}
    (hc : c ∈ (step seen byte).2) :
    c = replacement ∨ ∀ other ∈ String.utf8EncodeChar c, other ∈ seen ++ [byte] := by
  cases stepped h byte with
  | ends d _ heq hd =>
    rw [heq] at hc
    rw [List.mem_singleton.mp hc, hd]
    exact Or.inr fun other hother => hother
  | goesOn _ heq =>
    rw [heq] at hc
    exact absurd hc List.not_mem_nil
  | nothing _ _ heq =>
    rw [heq] at hc
    exact Or.inl (List.mem_singleton.mp hc)
  | breaksOff _ _ heq =>
    rw [heq] at hc
    obtain rfl | hbegin := List.mem_cons.mp hc
    · exact Or.inl rfl
    -- the byte stands at the start
    have hstart : step [] byte = begin byte := if_pos rfl
    cases stepped .start byte with
    | ends d _ hfirst hd =>
      rw [← hstart, hfirst] at hbegin
      rw [List.mem_singleton.mp hbegin, hd]
      exact Or.inr fun other hother => List.mem_append_right _ hother
    | goesOn _ hfirst =>
      rw [← hstart, hfirst] at hbegin
      exact absurd hbegin List.not_mem_nil
    | nothing _ _ hfirst =>
      rw [← hstart, hfirst] at hbegin
      exact Or.inl (List.mem_singleton.mp hbegin)
    | breaksOff hne _ _ => exact absurd rfl hne

theorem mem_decodeFrom (h : Reads seen) {c : Char}
    (hc : c ∈ decodeFrom seen bytes) :
    c = replacement ∨ ∀ byte ∈ String.utf8EncodeChar c, byte ∈ seen ++ bytes := by
  induction bytes generalizing seen with
  | nil =>
    left
    have hflush : c ∈ flush seen := hc
    unfold flush at hflush
    split at hflush
    · exact absurd hflush List.not_mem_nil
    · exact List.mem_singleton.mp hflush
  | cons byte rest ih =>
    have hsplit : seen ++ byte :: rest = seen ++ [byte] ++ rest := by
      rw [List.append_assoc, List.singleton_append]
    rw [decodeFrom_cons] at hc
    rw [hsplit]
    obtain hstep | hlater := List.mem_append.mp hc
    · obtain hreplacement | hbytes := mem_step_characters h hstep
      · exact Or.inl hreplacement
      · exact Or.inr fun other hother => List.mem_append_left _ (hbytes other hother)
    · obtain hreplacement | hbytes := ih (step_reads h byte) hlater
      · exact Or.inl hreplacement
      · right
        intro other hother
        obtain hseen | hrest := List.mem_append.mp (hbytes other hother)
        · exact List.mem_append_left _ (mem_step_seen hseen)
        · exact List.mem_append_right _ hrest

theorem mem_decode {c : Char} (hc : c ∈ decode bytes) :
    c = replacement ∨ ∀ byte ∈ String.utf8EncodeChar c, byte ∈ bytes := mem_decodeFrom .start hc

/-! ## Splitting inside a sequence -/

/-- The first byte of what comes next continues a sequence that began before it. -/
def Splits (before next : List UInt8) : Prop :=
  after [] before ≠ [] ∧ ∃ byte rest, next = byte :: rest ∧ continues (after [] before) byte = true

theorem decodeFrom_ne {byte : UInt8} (rest : List UInt8) (hne : seen ≠ [])
    (hnot : continues seen byte = false) :
    decodeFrom seen (byte :: rest) = replacement :: decode (byte :: rest) := by
  unfold decode
  rw [decodeFrom_cons, decodeFrom_cons]
  have hstep : step seen byte = ((begin byte).1, replacement :: (begin byte).2) := by
    unfold step
    rw [if_neg hne, hnot]
    rfl
  have hbegin : step [] byte = begin byte := if_pos rfl
  rw [hstep, hbegin]
  rfl

theorem decode_append_of_not_splits (h : ¬ Splits first second) :
    decode (first ++ second) = decode first ++ decode second := by
  by_cases hbetween : after [] first = []
  · exact decode_append hbetween
  · have hfirst : decode first = emitted [] first ++ [replacement] := by
      show emitted [] first ++ flush (after [] first) = _
      unfold flush
      rw [if_neg hbetween]
    have hboth : decode (first ++ second) = emitted [] first ++ decodeFrom (after [] first) second := by
      unfold decode decodeFrom
      rw [emitted_append, after_append, List.append_assoc]
    rw [hfirst, hboth]
    cases second with
    | nil =>
      show emitted [] first ++ flush (after [] first) = (emitted [] first ++ [replacement]) ++ []
      unfold flush
      rw [if_neg hbetween, List.append_nil]
    | cons byte rest =>
      have hnot : continues (after [] first) byte = false := by
        rw [← Bool.not_eq_true]
        exact fun hcontinues => h ⟨hbetween, byte, rest, rfl, hcontinues⟩
      rw [decodeFrom_ne rest hbetween hnot, List.append_assoc]
      rfl

theorem decode_continuation {byte : UInt8} (rest : List UInt8)
    (hne : seen ≠ []) (hcontinues : continues seen byte = true) :
    decode (byte :: rest) = replacement :: decode rest := by
  have hbounds : 0x80 ≤ byte.toNat ∧ byte.toNat ≤ 0xBF := by
    cases seen with
    | nil => exact absurd rfl hne
    | cons a others =>
      cases others with
      | nil =>
        have hlead := continues_lead hcontinues
        have hlower := lower_ge a
        have hupper := upper_le a
        omega
      | cons b others => exact continues_tail hcontinues
  have hnone : sequenceLength byte = 0 := by
    unfold sequenceLength
    rw [if_neg (by omega), if_neg (by omega), if_neg (by omega), if_neg (by omega)]
  have hstep : step [] byte = ([], [replacement]) := by
    unfold step begin
    rw [if_pos rfl, if_pos hnone]
  unfold decode
  rw [decodeFrom_cons, hstep]
  rfl

/-- The part of a sequence that comes after a split is read as replacements, `count` of them, and
where it comes after its first part as the rest of one character. -/
structure Cut (seen bytes : List UInt8) (first : Char) (count : Nat) (others : List Char) : Prop where
  joined : decodeFrom seen bytes = first :: others
  apart : decode bytes = List.replicate count replacement ++ others
  none : count = 0 → first = replacement
  some : (∃ byte rest, bytes = byte :: rest ∧ continues seen byte = true) → 0 < count
  long : (∃ byte rest, bytes = byte :: rest ∧ continues seen byte = true) → seen.length = 3 →
    first ≠ replacement

theorem cut (h : Reads seen) (hne : seen ≠ []) (bytes : List UInt8) :
    ∃ first count others, Cut seen bytes first count others := by
  induction bytes generalizing seen with
  | nil =>
    have hflush : decodeFrom seen [] = [replacement] := by
      show flush seen = _
      unfold flush
      rw [if_neg hne]
    exact ⟨replacement, 0, [], hflush, rfl, fun _ => rfl, nofun, nofun⟩
  | cons byte rest ih =>
    by_cases hcontinues : continues seen byte = true
    · have happart := decode_continuation rest hne hcontinues
      cases stepped h byte with
      | ends c _ hstep hc =>
        refine ⟨c, 1, decode rest, ?_, happart, nofun, fun _ => Nat.one_pos, fun _ hlong => ?_⟩
        · rw [decodeFrom_cons, hstep]
          rfl
        · -- a replacement has three bytes
          rintro rfl
          have hlength := congrArg List.length hc
          rw [length_replacement, List.length_append, hlong] at hlength
          cases hlength
      | goesOn _ hstep =>
        have hlonger : Reads (seen ++ [byte]) := by
          have hreads := step_reads h byte
          rwa [hstep] at hreads
        obtain ⟨first, count, others, hcut⟩ := ih hlonger (by simp)
        refine ⟨first, count + 1, others, ?_, ?_, nofun, fun _ => Nat.succ_pos count,
          fun _ hlong => ?_⟩
        · rw [decodeFrom_cons, hstep]
          exact hcut.joined
        · rw [happart, hcut.apart, List.replicate_succ]
          rfl
        · have hshort := hlonger.length_le
          rw [List.length_append, hlong, List.length_singleton] at hshort
          omega
      | nothing hempty _ _ => exact absurd hempty hne
      | breaksOff _ hnot _ =>
        unfold accepts at hnot
        rw [if_neg hne, hcontinues] at hnot
        cases hnot
    · have hnot : ¬ ∃ other others, byte :: rest = other :: others ∧
          continues seen other = true := by
        rintro ⟨other, others, hcons, hother⟩
        cases hcons
        exact hcontinues hother
      rw [Bool.not_eq_true] at hcontinues
      exact ⟨replacement, 0, decode (byte :: rest), decodeFrom_ne rest hne hcontinues, rfl,
        fun _ => rfl, fun hmore => absurd hmore hnot, fun hmore => absurd hmore hnot⟩

theorem decode_append_cases (first second : List UInt8) :
    (after [] first = [] ∧ decode (first ++ second) = decode first ++ decode second) ∨
      ∃ before char count others, after [] first ≠ [] ∧
        decode first = before ++ [replacement] ∧
        decode (first ++ second) = before ++ char :: others ∧
        Cut (after [] first) second char count others := by
  by_cases hbetween : after [] first = []
  · exact Or.inl ⟨hbetween, decode_append hbetween⟩
  · obtain ⟨char, count, others, hcut⟩ := cut (after_reads .start first) hbetween second
    refine Or.inr ⟨emitted [] first, char, count, others, hbetween, ?_, ?_, hcut⟩
    · show emitted [] first ++ flush (after [] first) = _
      unfold flush
      rw [if_neg hbetween]
    · rw [← hcut.joined]
      unfold decode decodeFrom
      rw [emitted_append, after_append, List.append_assoc]

/-! ### What a split loses -/

/-- The number of characters that are no replacement. -/
def proper (text : List Char) : Nat := (text.filter (· ≠ replacement)).length

@[simp] theorem proper_append (first second : List Char) :
    proper (first ++ second) = proper first + proper second := by
  unfold proper
  rw [List.filter_append, List.length_append]

@[simp] theorem proper_replicate (count : Nat) :
    proper (List.replicate count replacement) = 0 := by
  unfold proper
  rw [List.filter_replicate_of_neg (by simp)]
  rfl

theorem proper_cons (c : Char) (text : List Char) :
    proper (c :: text) = (if c = replacement then 0 else 1) + proper text := by
  unfold proper
  by_cases hc : c = replacement
  · rw [List.filter_cons_of_neg (by simp [hc]), if_pos hc, Nat.zero_add]
  · rw [List.filter_cons_of_pos (by simp [hc]), if_neg hc, List.length_cons, Nat.add_comm]

theorem proper_decode_append (first second : List UInt8) :
    proper (decode first) + proper (decode second) ≤ proper (decode (first ++ second)) := by
  obtain ⟨-, heq⟩ | ⟨before, char, count, others, -, hfirst, hboth, hcut⟩ :=
    decode_append_cases first second
  · exact Nat.le_of_eq (by rw [heq, proper_append])
  · have hzero : proper [replacement] = 0 := proper_replicate 1
    rw [hfirst, hboth, hcut.apart]
    simp only [proper_append, proper_replicate, hzero, proper_cons char others]
    omega

theorem proper_decode_append_lt (h : Splits first second)
    (hlong : (after [] first).length = 3) :
    proper (decode first) + proper (decode second) < proper (decode (first ++ second)) := by
  obtain ⟨hbetween, -⟩ | ⟨before, char, count, others, -, hfirst, hboth, hcut⟩ :=
    decode_append_cases first second
  · exact absurd hbetween h.1
  · have hzero : proper [replacement] = 0 := proper_replicate 1
    rw [hfirst, hboth, hcut.apart]
    simp only [proper_append, proper_replicate, hzero, proper_cons char others,
      if_neg (hcut.long h.2 hlong)]
    omega

theorem length_encode_replicate (count : Nat) :
    (encode (List.replicate count replacement)).length = 3 * count := by
  induction count with
  | zero => rfl
  | succ n ih =>
    rw [List.replicate_succ, encode_cons, List.length_append, ih, length_replacement]
    omega

theorem length_encode_decode_append (first second : List UInt8) :
    (encode (decode (first ++ second))).length ≤
      (encode (decode first)).length + (encode (decode second)).length := by
  obtain ⟨-, heq⟩ | ⟨before, char, count, others, -, hfirst, hboth, hcut⟩ :=
    decode_append_cases first second
  · exact Nat.le_of_eq (by rw [heq, encode_append, List.length_append])
  · have hone : (encode [replacement]).length = 3 := length_encode_replicate 1
    rw [hfirst, hboth, hcut.apart, encode_append, encode_append, encode_append, encode_cons]
    simp only [List.length_append, length_encode_replicate, hone, String.length_utf8EncodeChar]
    by_cases hcount : count = 0
    · rw [hcut.none hcount]
      have hthree : replacement.utf8Size = 3 := by decide
      omega
    · have hfour := char.utf8Size_le_four
      omega

theorem length_decode_append_lt (h : Splits first second) :
    (decode (first ++ second)).length < (decode first).length + (decode second).length := by
  obtain ⟨hbetween, -⟩ | ⟨before, char, count, others, -, hfirst, hboth, hcut⟩ :=
    decode_append_cases first second
  · exact absurd hbetween h.1
  · have hcount := hcut.some h.2
    rw [hfirst, hboth, hcut.apart]
    simp only [List.length_append, List.length_cons, List.length_nil, List.length_replicate]
    omega

theorem length_decode_append_le (first second : List UInt8) :
    (decode (first ++ second)).length ≤ (decode first).length + (decode second).length := by
  by_cases h : Splits first second
  · exact Nat.le_of_lt (length_decode_append_lt h)
  · exact Nat.le_of_eq (by rw [decode_append_of_not_splits h, List.length_append])

theorem length_split (hne : after [] bytes ≠ []) :
    bytes.length + 3 ≤ (encode (decode bytes)).length + (after [] bytes).length := by
  have hemitted := length_emitted .start bytes
  have hflush : flush (after [] bytes) = [replacement] := if_neg hne
  rw [List.length_nil, Nat.zero_add] at hemitted
  show _ ≤ (encode (emitted [] bytes ++ flush (after [] bytes))).length + _
  rw [hflush, encode_append, List.length_append, encode_cons, List.length_append,
    length_replacement]
  omega

theorem begin_last (byte : UInt8) :
    ((begin byte).2 ++ flush (begin byte).1).getLast? = some replacement ∨
      ∃ c, begin byte = ([], [c]) := by
  unfold begin
  split
  · exact Or.inl rfl
  · split
    · exact Or.inr ⟨_, rfl⟩
    · exact Or.inl rfl

theorem proper_decode_init (bytes : List UInt8) (byte : UInt8)
    (hlast : (decode (bytes ++ [byte])).getLast? ≠ some replacement) :
    proper (decode bytes) < proper (decode (bytes ++ [byte])) := by
  have hboth : decode (bytes ++ [byte]) = emitted [] bytes ++
      ((step (after [] bytes) byte).2 ++ flush (step (after [] bytes) byte).1) := by
    unfold decode decodeFrom
    rw [emitted_append, after_append, List.append_assoc]
    congr 1
    show (_ ++ []) ++ _ = _
    rw [List.append_nil]
    rfl
  have hbefore : proper (decode bytes) = proper (emitted [] bytes) := by
    show proper (emitted [] bytes ++ flush (after [] bytes)) = _
    have hflush : proper (flush (after [] bytes)) = 0 := by
      unfold flush
      split
      · rfl
      · exact proper_replicate 1
    rw [proper_append, hflush, Nat.add_zero]
  rw [hbefore, hboth, proper_append]
  rw [hboth] at hlast
  cases stepped (after_reads .start bytes) byte with
  | ends c _ hstep _ =>
    rw [hstep] at hlast ⊢
    have hc : c ≠ replacement := by
      rintro rfl
      exact hlast (by simp [flush])
    show _ < _ + proper [c]
    rw [proper_cons, if_neg hc]
    omega
  | goesOn _ hstep =>
    rw [hstep] at hlast
    exact absurd (by simp [flush]) hlast
  | nothing _ _ hstep =>
    rw [hstep] at hlast
    exact absurd (by simp [flush]) hlast
  | breaksOff _ _ hstep =>
    rw [hstep] at hlast ⊢
    obtain hagain | ⟨c, hbegin⟩ := begin_last byte
    · refine absurd ?_ hlast
      rw [List.getLast?_append, List.cons_append, List.getLast?_cons, hagain]
      rfl
    · rw [hbegin] at hlast ⊢
      have hc : c ≠ replacement := by
        rintro rfl
        exact hlast (by simp [flush])
      show _ < _ + proper [replacement, c]
      rw [proper_cons, proper_cons, if_neg hc]
      omega

end HarnessControl.Library.Utf8
