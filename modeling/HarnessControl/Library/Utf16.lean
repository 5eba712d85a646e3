import HarnessControl.Library.Utf8

/-!
# Strings of UTF-16 code units

A string may hold any units.  Its bytes are those of the characters that it reads as, with U+FFFD for
a surrogate that has no partner.
-/

namespace HarnessControl.Library.Utf16

/-- The units of a string are looked through one by one, and not all units that there are. -/
instance (priority := high) decidableForallUnits {p : UInt16 → Prop} [DecidablePred p]
    (units : List UInt16) : Decidable (∀ unit ∈ units, p unit) := List.decidableBAll p units

instance (priority := high) decidableForallUnit {p : UInt16 → Prop} [DecidablePred p]
    (unit? : Option UInt16) : Decidable (∀ unit ∈ unit?, p unit) :=
  Option.decidableForallMem unit?

def isHigh (unit : UInt16) : Bool := decide (0xD800 ≤ unit.toNat) && decide (unit.toNat ≤ 0xDBFF)

def isLow (unit : UInt16) : Bool := decide (0xDC00 ≤ unit.toNat) && decide (unit.toNat ≤ 0xDFFF)

/-- The units of a character: two beyond the basic plane. -/
def ofChar (c : Char) : List UInt16 :=
  let v := c.val.toNat
  if v < 0x10000 then [UInt16.ofNat v]
  else [UInt16.ofNat (0xD800 + (v - 0x10000) / 1024), UInt16.ofNat (0xDC00 + (v - 0x10000) % 1024)]

def units (text : List Char) : List UInt16 := text.flatMap ofChar

/-- The units of a literal. -/
def text (literal : String) : List UInt16 := units literal.toList

def pair (high low : UInt16) : Char :=
  Char.ofNat (0x10000 + (high.toNat - 0xD800) * 1024 + (low.toNat - 0xDC00))

/-- The characters that a string reads as. -/
def characters : List UInt16 → List Char
  | [] => []
  | unit :: rest =>
    if isHigh unit then
      match rest with
      | [] => [Utf8.replacement]
      | next :: others =>
        if isLow next then pair unit next :: characters others
        else Utf8.replacement :: characters (next :: others)
    else if isLow unit then Utf8.replacement :: characters rest
    else Char.ofNat unit.toNat :: characters rest

/-- `Buffer.from(string, "utf8")`. -/
def toUtf8 (string : List UInt16) : List UInt8 := Utf8.encode (characters string)

/-- `buffer.toString("utf8")`. -/
def ofUtf8 (bytes : List UInt8) : List UInt16 := units (Utf8.decode bytes)

/-! ## Units and characters -/

theorem toNat_ofNat {n : Nat} (h : n < 0x10000) : (UInt16.ofNat n).toNat = n := by
  rw [UInt16.toNat_ofNat']
  omega

theorem isHigh_iff {unit : UInt16} :
    isHigh unit = true ↔ 0xD800 ≤ unit.toNat ∧ unit.toNat ≤ 0xDBFF := by
  unfold isHigh
  rw [Bool.and_eq_true, decide_eq_true_iff, decide_eq_true_iff]

theorem isLow_iff {unit : UInt16} :
    isLow unit = true ↔ 0xDC00 ≤ unit.toNat ∧ unit.toNat ≤ 0xDFFF := by
  unfold isLow
  rw [Bool.and_eq_true, decide_eq_true_iff, decide_eq_true_iff]

/-- The units of a character are one that is no surrogate, or a pair. -/
inductive Shape (c : Char) : List UInt16 → Prop where
  | one {unit : UInt16} : isHigh unit = false → isLow unit = false →
    Char.ofNat unit.toNat = c → Shape c [unit]
  | two {high low : UInt16} : isHigh high = true → isLow low = true → pair high low = c →
    Shape c [high, low]

theorem shape (c : Char) : Shape c (ofChar c) := by
  have hvalid : c.val.toNat < 0xD800 ∨ (0xDFFF < c.val.toNat ∧ c.val.toNat < 0x110000) := c.valid
  unfold ofChar
  dsimp only
  by_cases hbasic : c.val.toNat < 0x10000
  · rw [if_pos hbasic]
    have hunit := toNat_ofNat hbasic
    apply Shape.one
    · rw [← Bool.not_eq_true, isHigh_iff]
      omega
    · rw [← Bool.not_eq_true, isLow_iff]
      omega
    · rw [hunit]
      exact Char.ofNat_toNat c
  · rw [if_neg hbasic]
    have hhigh := toNat_ofNat (show 0xD800 + (c.val.toNat - 0x10000) / 1024 < 0x10000 by omega)
    have hlow := toNat_ofNat (show 0xDC00 + (c.val.toNat - 0x10000) % 1024 < 0x10000 by omega)
    apply Shape.two
    · rw [isHigh_iff]
      omega
    · rw [isLow_iff]
      omega
    · unfold pair
      rw [hhigh, hlow]
      have hvalue : 0x10000 + (0xD800 + (c.val.toNat - 0x10000) / 1024 - 0xD800) * 1024 +
          (0xDC00 + (c.val.toNat - 0x10000) % 1024 - 0xDC00) = c.val.toNat := by omega
      rw [hvalue]
      exact Char.ofNat_toNat c

theorem not_low_of_high {unit : UInt16} (h : isHigh unit = true) : isLow unit = false := by
  rw [← Bool.not_eq_true, isLow_iff]
  rw [isHigh_iff] at h
  omega

theorem toNat_charOfNat {n : Nat} (h : n < 0xD800 ∨ (0xDFFF < n ∧ n < 0x110000)) :
    (Char.ofNat n).toNat = n := by
  have hvalid : n.isValidChar := h
  rw [Char.ofNat, dif_pos hvalid]
  rfl

theorem ofChar_single {unit : UInt16} (hhigh : isHigh unit = false) (hlow : isLow unit = false) :
    (Char.ofNat unit.toNat).toNat = unit.toNat ∧ ofChar (Char.ofNat unit.toNat) = [unit] := by
  have hlt := unit.toNat_lt
  rw [← Bool.not_eq_true, isHigh_iff] at hhigh
  rw [← Bool.not_eq_true, isLow_iff] at hlow
  have hvalue : (Char.ofNat unit.toNat).toNat = unit.toNat := toNat_charOfNat (by omega)
  constructor
  · exact hvalue
  · unfold ofChar
    dsimp only
    rw [show (Char.ofNat unit.toNat).val.toNat = unit.toNat from hvalue, if_pos (by omega),
      UInt16.ofNat_toNat]

theorem ofChar_pair {high low : UInt16} (hhigh : isHigh high = true) (hlow : isLow low = true) :
    0x10000 ≤ (pair high low).toNat ∧ ofChar (pair high low) = [high, low] := by
  rw [isHigh_iff] at hhigh
  rw [isLow_iff] at hlow
  have hvalue : (pair high low).toNat =
      0x10000 + (high.toNat - 0xD800) * 1024 + (low.toNat - 0xDC00) := toNat_charOfNat (by omega)
  constructor
  · omega
  · unfold ofChar
    dsimp only
    rw [show (pair high low).val.toNat = _ from hvalue, if_neg (by omega)]
    have hfirst : 0xD800 + (0x10000 + (high.toNat - 0xD800) * 1024 + (low.toNat - 0xDC00) -
        0x10000) / 1024 = high.toNat := by omega
    have hsecond : 0xDC00 + (0x10000 + (high.toNat - 0xD800) * 1024 + (low.toNat - 0xDC00) -
        0x10000) % 1024 = low.toNat := by omega
    rw [hfirst, hsecond, UInt16.ofNat_toNat, UInt16.ofNat_toNat]

theorem characters_ofChar (c : Char) (rest : List UInt16) :
    characters (ofChar c ++ rest) = c :: characters rest := by
  have hshape := shape c
  generalize ofChar c = units at hshape
  cases hshape with
  | one hhigh hlow hc =>
    rw [List.singleton_append]
    conv_lhs => unfold characters
    rw [hhigh, hlow, hc]
    rfl
  | two hhigh hlow hc =>
    rw [List.cons_append, List.singleton_append]
    conv_lhs => unfold characters
    rw [if_pos hhigh]
    dsimp only
    rw [if_pos hlow, hc]

theorem characters_units_append (text : List Char) (rest : List UInt16) :
    characters (units text ++ rest) = text ++ characters rest := by
  induction text with
  | nil => rfl
  | cons c others ih =>
    show characters ((ofChar c ++ units others) ++ rest) = _
    rw [List.append_assoc, characters_ofChar, ih]
    rfl

theorem characters_units (text : List Char) : characters (units text) = text := by
  have h := characters_units_append text []
  rwa [List.append_nil, show characters [] = [] from rfl, List.append_nil] at h

theorem units_ascii {text : List Char} (h : ∀ c ∈ text, c.toNat < 0x80) :
    units text = text.map fun c => UInt16.ofNat c.toNat := by
  induction text with
  | nil => rfl
  | cons c others ih =>
    obtain ⟨hc, hothers⟩ := List.forall_mem_cons.mp h
    have hbasic : c.val.toNat < 0x10000 := Nat.lt_trans hc (by decide)
    show ofChar c ++ units others = _
    rw [ih hothers, List.map_cons]
    unfold ofChar
    dsimp only
    rw [if_pos hbasic]
    rfl

theorem toUtf8_units (text : List Char) : toUtf8 (units text) = Utf8.encode text := by
  unfold toUtf8
  rw [characters_units]

/-- The last unit waits for a partner. -/
def endsHigh (string : List UInt16) : Bool := string.getLast?.any isHigh

def startsLow (string : List UInt16) : Bool := string.head?.any isLow

/-- Strings are read one after the other, unless the second has the partner of the last unit of the
first. -/
theorem characters_append {first second : List UInt16}
    (h : endsHigh first = false ∨ startsLow second = false) :
    characters (first ++ second) = characters first ++ characters second := by
  have htail : ∀ (unit : UInt16) {others : List UInt16}, others ≠ [] →
      endsHigh (unit :: others) = endsHigh others := by
    intro unit others hne
    unfold endsHigh
    rw [List.getLast?_cons_of_ne_nil hne]
  fun_induction characters first with
  | case1 => rfl
  | case2 unit hhigh =>
    have hlow : startsLow second = false := by
      obtain hfirst | hsecond := h
      · rw [show endsHigh [unit] = isHigh unit from rfl, hhigh] at hfirst
        cases hfirst
      · exact hsecond
    rw [List.singleton_append]
    conv_lhs => unfold characters
    rw [if_pos hhigh]
    cases second with
    | nil => rfl
    | cons next others =>
      have hnext : ¬ isLow next = true := Bool.eq_false_iff.mp hlow
      dsimp only
      rw [if_neg hnext]
      rfl
  | case3 unit hhigh next others hnext ih =>
    have hrest : endsHigh others = false ∨ startsLow second = false := by
      cases others with
      | nil => exact Or.inl rfl
      | cons other others =>
        rwa [htail _ (List.cons_ne_nil _ _), htail _ (List.cons_ne_nil _ _)] at h
    rw [List.cons_append, List.cons_append]
    conv_lhs => unfold characters
    rw [if_pos hhigh]
    dsimp only
    rw [if_pos hnext, ih hrest]
    rfl
  | case4 unit hhigh next others hnext ih =>
    rw [htail _ (List.cons_ne_nil _ _)] at h
    rw [List.cons_append]
    conv_lhs => unfold characters
    rw [if_pos hhigh, List.cons_append]
    dsimp only
    rw [if_neg hnext, ← List.cons_append, ih h]
    rfl
  | case5 unit rest hhigh hlow ih =>
    have hrest : endsHigh rest = false ∨ startsLow second = false := by
      cases rest with
      | nil => exact Or.inl rfl
      | cons other others => rwa [htail _ (List.cons_ne_nil _ _)] at h
    rw [List.cons_append]
    conv_lhs => unfold characters
    rw [if_neg hhigh, if_pos hlow, ih hrest]
    rfl
  | case6 unit rest hhigh hlow ih =>
    have hrest : endsHigh rest = false ∨ startsLow second = false := by
      cases rest with
      | nil => exact Or.inl rfl
      | cons other others => rwa [htail _ (List.cons_ne_nil _ _)] at h
    rw [List.cons_append]
    conv_lhs => unfold characters
    rw [if_neg hhigh, if_neg hlow, ih hrest]
    rfl

theorem toUtf8_append {first second : List UInt16}
    (h : endsHigh first = false ∨ startsLow second = false) :
    toUtf8 (first ++ second) = toUtf8 first ++ toUtf8 second := by
  unfold toUtf8
  rw [characters_append h, Utf8.encode_append]

theorem units_closed (text : List Char) :
    endsHigh (units text) = false ∧ startsLow (units text) = false := by
  constructor
  · induction text with
    | nil => rfl
    | cons c others ih =>
      show endsHigh (ofChar c ++ units others) = false
      have hshape := shape c
      unfold endsHigh at ih ⊢
      generalize ofChar c = first at hshape
      rw [List.getLast?_append]
      cases hlast : (units others).getLast? with
      | some unit =>
        rw [hlast] at ih
        exact ih
      | none =>
        cases hshape with
        | one hhigh _ _ => exact hhigh
        | @two high low _ hlow _ =>
          show isHigh low = false
          rw [← Bool.not_eq_true]
          intro hhigh
          rw [not_low_of_high hhigh] at hlow
          cases hlow
  · cases text with
    | nil => rfl
    | cons c others =>
      show startsLow (ofChar c ++ units others) = false
      have hshape := shape c
      generalize ofChar c = first at hshape
      cases hshape with
      | one _ hlow _ => exact hlow
      | two hhigh _ _ => exact not_low_of_high hhigh

/-! ## The characters of a loop -/

/-- What a loop over a string visits: pairs, and units that have no partner. -/
def codePoints : List UInt16 → List (List UInt16)
  | [] => []
  | [unit] => [[unit]]
  | unit :: next :: rest =>
    if isHigh unit && isLow next then [unit, next] :: codePoints rest
    else [unit] :: codePoints (next :: rest)

theorem flatten_codePoints (string : List UInt16) : (codePoints string).flatten = string := by
  induction string using codePoints.induct with
  | case1 => rfl
  | case2 unit => rfl
  | case3 unit next rest hpair ih =>
    rw [codePoints, if_pos hpair, List.flatten_cons, ih]
    rfl
  | case4 unit next rest hpair ih =>
    rw [codePoints, if_neg hpair, List.flatten_cons, ih]
    rfl

theorem characters_pair {unit next : UInt16} (hhigh : isHigh unit = true)
    (hlow : isLow next = true) (rest : List UInt16) :
    characters (unit :: next :: rest) = characters [unit, next] ++ characters rest := by
  rw [characters, if_pos hhigh, if_pos hlow, characters, if_pos hhigh, if_pos hlow]
  rfl

theorem characters_single {unit next : UInt16} (h : ¬(isHigh unit && isLow next) = true)
    (rest : List UInt16) :
    characters (unit :: next :: rest) = characters [unit] ++ characters (next :: rest) := by
  by_cases hhigh : isHigh unit = true
  · have hsingle : characters [unit] = [Utf8.replacement] := by rw [characters, if_pos hhigh]
    rw [hhigh, Bool.true_and] at h
    rw [hsingle, characters, if_pos hhigh, if_neg h]
    rfl
  · rw [characters.eq_def (unit :: _), characters.eq_def [unit]]
    dsimp only
    rw [if_neg hhigh, if_neg hhigh]
    split <;> rfl

theorem flatMap_codePoints (string : List UInt16) :
    (codePoints string).flatMap characters = characters string := by
  induction string using codePoints.induct with
  | case1 => rfl
  | case2 unit => exact List.append_nil _
  | case3 unit next rest hpair ih =>
    obtain ⟨hhigh, hlow⟩ := Bool.and_eq_true_iff.mp hpair
    rw [codePoints, if_pos hpair, List.flatMap_cons, ih, ← characters_pair hhigh hlow]
  | case4 unit next rest hpair ih =>
    rw [codePoints, if_neg hpair, List.flatMap_cons, ih, ← characters_single hpair]

end HarnessControl.Library.Utf16
