import HarnessControl.Library.JsonText

/-!
# Equality of JSON values

Values are compared by what they hold: the members of objects in any order, and numbers as the same
number.  A value is the one that is read back from its text exactly where each of its numbers is the
number of its numeral, which for finite doubles leaves out negative zero only.
-/

namespace HarnessControl.Library.JsonText

variable {ν : Type}

mutual

/-- `isDeepStrictEqual` of two values. -/
def deepEqual [DecidableEq ν] : Value ν → Value ν → Bool
  | .null, .null => true
  | .bool a, .bool b => a == b
  | .number a, .number b => decide (a = b)
  | .string a, .string b => a == b
  | .array a, .array b => deepEqualItems a b
  | .object a, .object b => a.length == b.length && deepEqualMembers a b
  | _, _ => false

def deepEqualItems [DecidableEq ν] : List (Value ν) → List (Value ν) → Bool
  | [], [] => true
  | a :: as, b :: bs => deepEqual a b && deepEqualItems as bs
  | _, _ => false

/-- Each member is found in the other object. -/
def deepEqualMembers [DecidableEq ν] : List (Units × Value ν) → List (Units × Value ν) → Bool
  | [], _ => true
  | (key, value) :: rest, others =>
    (others.lookup key).any (deepEqual value) && deepEqualMembers rest others

end

mutual

/-- The numbers in a value. -/
def Value.numbers : Value ν → List ν
  | .null => []
  | .bool _ => []
  | .number value => [value]
  | .string _ => []
  | .array items => numbersOfItems items
  | .object members => numbersOfMembers members

def numbersOfItems : List (Value ν) → List ν
  | [] => []
  | item :: rest => item.numbers ++ numbersOfItems rest

def numbersOfMembers : List (Units × Value ν) → List ν
  | [] => []
  | (_, value) :: rest => value.numbers ++ numbersOfMembers rest

end

mutual

/-- The keys of every object are distinct. -/
def Value.Keyed : Value ν → Prop
  | .array items => keyedItems items
  | .object members => (members.map Prod.fst).Nodup ∧ keyedMembers members
  | _ => True

def keyedItems : List (Value ν) → Prop
  | [] => True
  | item :: rest => item.Keyed ∧ keyedItems rest

def keyedMembers : List (Units × Value ν) → Prop
  | [] => True
  | (_, value) :: rest => value.Keyed ∧ keyedMembers rest

end

/-! ## Reading a value back -/

theorem length_rereadMembers (numerals : Numerals ν) (members : List (Units × Value ν)) :
    (rereadMembers numerals members).length = members.length := by
  induction members with
  | nil => rfl
  | cons member rest ih => exact congrArg Nat.succ ih

variable {members : List (Units × Value ν)}

theorem lookup_of_mem (h : (members.map Prod.fst).Nodup)
    {key : Units} {value : Value ν} (hin : (key, value) ∈ members) :
    members.lookup key = some value := by
  induction members with
  | nil => nomatch hin
  | cons member rest ih =>
    rw [List.map_cons, List.nodup_cons] at h
    obtain heq | hin := List.mem_cons.mp hin
    · rw [← heq, List.lookup_cons_self]
    · have hne : key ≠ member.1 := by
        rintro rfl
        exact h.1 (List.mem_map.mpr ⟨_, hin, rfl⟩)
      rw [List.lookup_cons, beq_false_of_ne hne]
      exact ih h.2 hin

theorem mem_of_lookup {key : Units} {value : Value ν}
    (h : members.lookup key = some value) : (key, value) ∈ members := by
  obtain ⟨before, rest, rfl, _⟩ := List.lookup_eq_some_iff.mp h
  simp

theorem keyed_of_mem (h : keyedMembers members)
    {member : Units × Value ν} (hin : member ∈ members) : member.2.Keyed := by
  induction members with
  | nil => exact nomatch hin
  | cons first rest ih =>
    unfold keyedMembers at h
    obtain rfl | hin := List.mem_cons.mp hin
    · exact h.1
    · exact ih h.2 hin

/-- A number is the one of its numeral. -/
def Reads (numerals : Numerals ν) (number : ν) : Prop :=
  numerals.value (numerals.text number) = number

section

variable [DecidableEq ν]

mutual

theorem deepEqual_reread (numerals : Numerals ν) : (value : Value ν) → value.Keyed →
    (deepEqual (value.reread numerals) value = true ↔
      ∀ number ∈ value.numbers, Reads numerals number)
  | .null, _ => ⟨fun _ => nofun, fun _ => rfl⟩
  | .bool _, _ => ⟨fun _ => nofun, fun _ => by
    unfold Value.reread deepEqual
    exact beq_self_eq_true _⟩
  | .number number, _ => by
    unfold Value.reread deepEqual Value.numbers
    rw [decide_eq_true_iff, List.forall_mem_singleton]
    rfl
  | .string _, _ => ⟨fun _ => nofun, fun _ => by
    unfold Value.reread deepEqual
    exact beq_self_eq_true _⟩
  | .array items, h => by
    unfold Value.reread deepEqual Value.numbers
    unfold Value.Keyed at h
    exact deepEqualItems_reread numerals items h
  | .object members, h => by
    unfold Value.reread deepEqual Value.numbers
    unfold Value.Keyed at h
    rw [length_rereadMembers, beq_self_eq_true, Bool.true_and]
    exact deepEqualMembers_reread numerals members h.2 members h.1 (List.Subset.refl _)

theorem deepEqualItems_reread (numerals : Numerals ν) : (items : List (Value ν)) →
    keyedItems items →
    (deepEqualItems (rereadItems numerals items) items = true ↔
      ∀ number ∈ numbersOfItems items, Reads numerals number)
  | [], _ => ⟨fun _ => nofun, fun _ => by unfold rereadItems deepEqualItems; rfl⟩
  | item :: rest, h => by
    unfold rereadItems deepEqualItems numbersOfItems
    unfold keyedItems at h
    rw [Bool.and_eq_true, List.forall_mem_append, deepEqual_reread numerals item h.1,
      deepEqualItems_reread numerals rest h.2]

theorem deepEqualMembers_reread (numerals : Numerals ν) : (members : List (Units × Value ν)) →
    keyedMembers members → ∀ all : List (Units × Value ν), (all.map Prod.fst).Nodup →
    members ⊆ all →
    (deepEqualMembers (rereadMembers numerals members) all = true ↔
      ∀ number ∈ numbersOfMembers members, Reads numerals number)
  | [], _, _, _, _ => ⟨fun _ => nofun, fun _ => by unfold rereadMembers deepEqualMembers; rfl⟩
  | (key, value) :: rest, h, all, hkeys, hsubset => by
    rw [List.cons_subset] at hsubset
    unfold rereadMembers deepEqualMembers numbersOfMembers
    unfold keyedMembers at h
    rw [Bool.and_eq_true, List.forall_mem_append, lookup_of_mem hkeys hsubset.1, Option.any_some,
      deepEqual_reread numerals value h.1,
      deepEqualMembers_reread numerals rest h.2 all hkeys hsubset.2]

end

end

/-! ## Doubles -/

/-- Numbers of which only negative zero is another number once it was printed. -/
structure Doubles (ν : Type) extends Numerals ν where
  negativeZero : ν
  isNumeral_text : ∀ number, isNumeral (text number) = true
  reads : ∀ number, value (text number) = number ↔ number ≠ negativeZero

mutual

theorem printable_of_keyed (doubles : Doubles ν) : (value : Value ν) → value.Keyed →
    value.Printable doubles.toNumerals
  | .null, _ | .bool _, _ | .string _, _ => by
    unfold Value.Printable
    trivial
  | .number number, _ => by
    unfold Value.Printable
    exact doubles.isNumeral_text number
  | .array items, h => by
    unfold Value.Printable
    unfold Value.Keyed at h
    exact printableItems_of_keyed doubles items h
  | .object members, h => by
    unfold Value.Printable
    unfold Value.Keyed at h
    exact ⟨h.1, printableMembers_of_keyed doubles members h.2⟩

theorem printableItems_of_keyed (doubles : Doubles ν) : (items : List (Value ν)) →
    keyedItems items → printableItems doubles.toNumerals items
  | [], _ => trivial
  | item :: rest, h => by
    unfold printableItems
    unfold keyedItems at h
    exact ⟨printable_of_keyed doubles item h.1, printableItems_of_keyed doubles rest h.2⟩

theorem printableMembers_of_keyed (doubles : Doubles ν) : (members : List (Units × Value ν)) →
    keyedMembers members → printableMembers doubles.toNumerals members
  | [], _ => trivial
  | (_, value) :: rest, h => by
    unfold printableMembers
    unfold keyedMembers at h
    exact ⟨printable_of_keyed doubles value h.1, printableMembers_of_keyed doubles rest h.2⟩

end

/-- What is read back from the text of a value equals it exactly where there is no negative zero. -/
theorem parse_stringify_equal [DecidableEq ν] (doubles : Doubles ν) {value : Value ν}
    (h : value.Keyed) :
    ∃ read, parse doubles.toNumerals (stringify doubles.toNumerals value) = some read ∧
      (deepEqual read value = true ↔ doubles.negativeZero ∉ value.numbers) := by
  refine ⟨value.reread doubles.toNumerals,
    parse_stringify doubles.toNumerals (printable_of_keyed doubles value h), ?_⟩
  rw [deepEqual_reread doubles.toNumerals value h]
  constructor
  · intro hreads hin
    exact (doubles.reads _).mp (hreads _ hin) rfl
  · intro hzero number hin
    apply (doubles.reads number).mpr
    rintro rfl
    exact hzero hin

/-! ## Whole numbers -/

/-- Whole numbers with two zeros. -/
inductive Whole where
  | natural (value : Nat)
  | negated (value : Nat)
deriving DecidableEq

def Whole.text : Whole → List Char
  | .natural value => Nat.toDigits 10 value
  | .negated 0 => ['0']
  | .negated (value + 1) => '-' :: Nat.toDigits 10 (value + 1)

def Whole.ofNumeral : List Char → Whole
  | '-' :: digits => .negated (Nat.ofDigitChars 10 digits 0)
  | digits => .natural (Nat.ofDigitChars 10 digits 0)

theorem digitChar_numeral : ∀ digit < 10, 0 < digit → ∀ rest,
    isNumeralFrom .start (Nat.digitChar digit :: rest) = isNumeralFrom .whole rest := by
  intro digit hlt hpos rest
  interval_cases digit <;> rfl

theorem digitChar_whole : ∀ digit < 10, ∀ rest,
    isNumeralFrom .whole (Nat.digitChar digit :: rest) = isNumeralFrom .whole rest := by
  intro digit hlt rest
  interval_cases digit <;> rfl

theorem isNumeralFrom_toDigits (n : Nat) (hpos : 0 < n) (rest : List Char) :
    isNumeralFrom .start (Nat.toDigits 10 n ++ rest) = isNumeralFrom .whole rest := by
  induction n using Nat.strongRecOn generalizing rest with
  | ind n ih =>
    by_cases hsmall : n < 10
    · rw [Nat.toDigits_of_lt_base hsmall, List.singleton_append]
      exact digitChar_numeral n hsmall hpos rest
    · rw [Nat.toDigits_of_base_le (by decide) (Nat.not_lt.mp hsmall), List.append_assoc,
        List.singleton_append, ih (n / 10) (by omega) (by omega)]
      exact digitChar_whole (n % 10) (Nat.mod_lt n (by decide)) rest

theorem isNumeral_toDigits (n : Nat) : isNumeral (Nat.toDigits 10 n) = true := by
  unfold isNumeral
  by_cases hpos : 0 < n
  · rw [← List.append_nil (Nat.toDigits 10 n), isNumeralFrom_toDigits n hpos]
    rfl
  · obtain rfl := Nat.eq_zero_of_not_pos hpos
    decide

theorem isNumeral_minus {n : Nat} (hpos : 0 < n) :
    isNumeral ('-' :: Nat.toDigits 10 n) = true := by
  have hdigits := isNumeralFrom_toDigits n hpos []
  have hmember := fun c hc => Nat.isDigit_of_mem_toDigits (b := 10) (by decide) (by decide)
    (n := n) (c := c) hc
  obtain ⟨c, rest, htext⟩ := List.exists_cons_of_ne_nil (Nat.toDigits_ne_nil (n := n) (b := 10))
  rw [htext, List.append_nil] at hdigits
  rw [htext] at hmember ⊢
  have hdigit := hmember c List.mem_cons_self
  have hminus : c ≠ '-' := by
    rintro rfl
    nomatch hdigit
  -- the first digit is read after the sign as it is read at the beginning
  unfold isNumeral
  have hnext : NumeralState.next .minus c = NumeralState.next .start c := by
    unfold NumeralState.next
    dsimp only
    rw [if_neg hminus]
  unfold isNumeralFrom at hdigits ⊢
  change isNumeralFrom .minus (c :: rest) = true
  unfold isNumeralFrom
  rw [hnext, hdigits]
  rfl

theorem ofNumeral_digits {text : List Char} (h : ∀ c ∈ text, c.isDigit = true) :
    Whole.ofNumeral text = .natural (Nat.ofDigitChars 10 text 0) := by
  unfold Whole.ofNumeral
  split
  · have hdigit := h '-' List.mem_cons_self
    nomatch hdigit
  · rfl

theorem ofNumeral_natural (n : Nat) : Whole.ofNumeral (Nat.toDigits 10 n) = .natural n := by
  rw [ofNumeral_digits fun c hc =>
    Nat.isDigit_of_mem_toDigits (b := 10) (by decide) (by decide) hc,
    Nat.ofDigitChars_ten_toDigits]

def wholeNumbers : Doubles Whole where
  text := Whole.text
  value := Whole.ofNumeral
  negativeZero := .negated 0
  isNumeral_text number := by
    match number with
    | .natural value => exact isNumeral_toDigits value
    | .negated 0 => decide
    | .negated (value + 1) => exact isNumeral_minus (Nat.succ_pos value)
  reads number := by
    match number with
    | .natural value => exact ⟨nofun, fun _ => ofNumeral_natural value⟩
    | .negated 0 => decide
    | .negated (value + 1) =>
      exact ⟨nofun, fun _ => congrArg Whole.negated Nat.ofDigitChars_ten_toDigits⟩

end HarnessControl.Library.JsonText
