import Mathlib.Data.List.Basic

/-!
# Base64

Three bytes are four digits of the alphabet for addresses.  What is left at the end is two digits for
one byte and three for two.  The other form has `+` and `/` for the last two digits, and is padded to
groups of four.
-/

namespace HarnessControl.Library.Base64

/-- The character of a digit below 64. -/
def character (digit : Nat) : Char :=
  if digit < 26 then Char.ofNat (65 + digit)
  else if digit < 52 then Char.ofNat (71 + digit)
  else if digit < 62 then Char.ofNat (digit - 4)
  else if digit = 62 then '-'
  else '_'

/-- The digit of a character of the alphabet. -/
def digit (c : Char) : Nat :=
  if c = '-' then 62
  else if c = '_' then 63
  else if c.toNat < 58 then c.toNat + 4
  else if c.toNat < 91 then c.toNat - 65
  else c.toNat - 71

def encode : List UInt8 → List Char
  | [] => []
  | [a] => [character (a.toNat / 4), character (a.toNat % 4 * 16)]
  | [a, b] =>
    [character (a.toNat / 4), character (a.toNat % 4 * 16 + b.toNat / 16),
      character (b.toNat % 16 * 4)]
  | a :: b :: c :: rest =>
    character (a.toNat / 4) :: character (a.toNat % 4 * 16 + b.toNat / 16) ::
      character (b.toNat % 16 * 4 + c.toNat / 64) :: character (c.toNat % 64) :: encode rest

/-- Bits that fill no byte are dropped, as is a digit that stands alone at the end. -/
def decode : List Char → List UInt8
  | [] => []
  | [_] => []
  | [p, q] => [UInt8.ofNat (digit p * 4 + digit q / 16)]
  | [p, q, r] =>
    [UInt8.ofNat (digit p * 4 + digit q / 16), UInt8.ofNat (digit q % 16 * 16 + digit r / 4)]
  | p :: q :: r :: s :: rest =>
    UInt8.ofNat (digit p * 4 + digit q / 16) ::
      UInt8.ofNat (digit q % 16 * 16 + digit r / 4) ::
      UInt8.ofNat (digit r % 4 * 64 + digit s) :: decode rest

/-- `[A-Za-z0-9_-]` -/
def inAlphabet (c : Char) : Bool := c.isAlphanum || c == '_' || c == '-'

theorem character_spec : ∀ n < 64, digit (character n) = n ∧ inAlphabet (character n) = true ∧
    (character n).toNat < 128 := by
  decide

theorem digit_character {n : Nat} (h : n < 64) : digit (character n) = n := (character_spec n h).1

theorem byte_eq {n : Nat} (byte : UInt8) (h : n = byte.toNat) : UInt8.ofNat n = byte := by
  rw [h, UInt8.ofNat_toNat]

theorem decode_encode (bytes : List UInt8) : decode (encode bytes) = bytes := by
  induction bytes using encode.induct with
  | case1 => rfl
  | case2 a =>
    have ha := a.toNat_lt
    rw [encode, decode, digit_character (by omega), digit_character (by omega)]
    rw [byte_eq a (by omega)]
  | case3 a b =>
    have ha := a.toNat_lt
    have hb := b.toNat_lt
    rw [encode, decode, digit_character (by omega), digit_character (by omega),
      digit_character (by omega)]
    rw [byte_eq a (by omega), byte_eq b (by omega)]
  | case4 a b c rest ih =>
    have ha := a.toNat_lt
    have hb := b.toNat_lt
    have hc := c.toNat_lt
    rw [encode, decode, ih, digit_character (by omega), digit_character (by omega),
      digit_character (by omega), digit_character (by omega)]
    rw [byte_eq a (by omega), byte_eq b (by omega),
      byte_eq c (by omega)]

theorem length_encode (bytes : List UInt8) : (encode bytes).length = (4 * bytes.length + 2) / 3 := by
  induction bytes using encode.induct with
  | case1 => rfl
  | case2 a => simp [encode]
  | case3 a b => simp [encode]
  | case4 a b c rest ih =>
    rw [encode]
    simp only [List.length_cons, ih]
    omega

theorem encode_forall {P : Char → Prop} (h : ∀ n < 64, P (character n)) (bytes : List UInt8) :
    ∀ c ∈ encode bytes, P c := by
  induction bytes using encode.induct with
  | case1 =>
    intro c hc
    cases hc
  | case2 a =>
    have ha := a.toNat_lt
    rw [encode]
    simp only [List.forall_mem_cons]
    exact ⟨h _ (by omega), h _ (by omega), List.forall_mem_nil _⟩
  | case3 a b =>
    have ha := a.toNat_lt
    have hb := b.toNat_lt
    rw [encode]
    simp only [List.forall_mem_cons]
    exact ⟨h _ (by omega), h _ (by omega), h _ (by omega), List.forall_mem_nil _⟩
  | case4 a b c rest ih =>
    have ha := a.toNat_lt
    have hb := b.toNat_lt
    have hc := c.toNat_lt
    rw [encode]
    simp only [List.forall_mem_cons]
    exact ⟨h _ (by omega), h _ (by omega), h _ (by omega), h _ (by omega), ih⟩

theorem encode_inAlphabet (bytes : List UInt8) : (encode bytes).all inAlphabet = true :=
  List.all_eq_true.mpr (encode_forall (fun n hn => (character_spec n hn).2.1) bytes)

theorem encode_ascii (bytes : List UInt8) : ∀ c ∈ encode bytes, c.toNat < 128 :=
  encode_forall (fun n hn => (character_spec n hn).2.2) bytes

/-! ## With padding -/

def standard (c : Char) : Char := if c = '-' then '+' else if c = '_' then '/' else c

def urlSafe (c : Char) : Char := if c = '+' then '-' else if c = '/' then '_' else c

def padding (count : Nat) : Nat := (3 - count % 3) % 3

def encodePadded (bytes : List UInt8) : List Char :=
  (encode bytes).map standard ++ List.replicate (padding bytes.length) '='

/-- What stands before the padding. -/
def unpadded (text : List Char) : List Char := text.takeWhile (· != '=')

def decodePadded (text : List Char) : List UInt8 := decode ((unpadded text).map urlSafe)

/-- `[A-Za-z0-9+/]` -/
def inStandardAlphabet (c : Char) : Bool := c.isAlphanum || c == '+' || c == '/'

/-- `^(?:[A-Za-z0-9+/]{4})*(?:[A-Za-z0-9+/]{2}==|[A-Za-z0-9+/]{3}=)?$` -/
def isPadded (text : List Char) : Bool :=
  text.length % 4 == 0 && (unpadded text).all inStandardAlphabet &&
    decide (text.length ≤ (unpadded text).length + 2) &&
    (text.drop (unpadded text).length).all (· == '=')

theorem padding_spec (count : Nat) : padding count ≤ 2 ∧ (count + padding count) % 3 = 0 := by
  unfold padding
  omega

theorem standard_spec : ∀ n < 64, urlSafe (standard (character n)) = character n ∧
    inStandardAlphabet (standard (character n)) = true ∧ (standard (character n) != '=') = true := by
  decide

variable (bytes : List UInt8)

theorem unpadded_encodePadded : unpadded (encodePadded bytes) = (encode bytes).map standard := by
  have hdigits : ∀ c ∈ (encode bytes).map standard, (c != '=') = true :=
    List.forall_mem_map.mpr (encode_forall (fun n hn => (standard_spec n hn).2.2) bytes)
  unfold unpadded encodePadded
  rw [List.takeWhile_append_of_pos hdigits, List.takeWhile_replicate]
  exact List.append_nil _

theorem decodePadded_encodePadded : decodePadded (encodePadded bytes) = bytes := by
  have hsame : ∀ c ∈ encode bytes, urlSafe (standard c) = c :=
    encode_forall (fun n hn => (standard_spec n hn).1) bytes
  unfold decodePadded
  rw [unpadded_encodePadded, List.map_map]
  exact (congrArg decode ((List.map_congr_left hsame).trans (List.map_id _))).trans
    (decode_encode bytes)

theorem length_encodePadded :
    (encodePadded bytes).length = 4 * ((bytes.length + 2) / 3) ∧
      (unpadded (encodePadded bytes)).length + padding bytes.length =
        (encodePadded bytes).length := by
  rw [unpadded_encodePadded]
  unfold encodePadded padding
  rw [List.length_append, List.length_map, List.length_replicate, length_encode]
  omega

theorem isPadded_encodePadded : isPadded (encodePadded bytes) = true := by
  have hlength := length_encodePadded bytes
  have hpadding := (padding_spec bytes.length).1
  have hrest : (encodePadded bytes).drop (unpadded (encodePadded bytes)).length =
      List.replicate (padding bytes.length) '=' := by
    rw [unpadded_encodePadded]
    exact List.drop_left
  unfold isPadded
  rw [hrest, unpadded_encodePadded]
  rw [unpadded_encodePadded] at hlength
  simp only [Bool.and_eq_true, beq_iff_eq, decide_eq_true_eq]
  refine ⟨⟨⟨by omega, ?_⟩, by omega⟩, by simp⟩
  rw [List.all_map]
  exact List.all_eq_true.mpr (encode_forall (fun n hn => (standard_spec n hn).2.1) bytes)

end HarnessControl.Library.Base64
