import HarnessControl.Library.Utf8

/-!
# UTF-8 without replacement

A decoder that refuses input reads it up to the first byte that is part of no sequence.  Like
`TextDecoder` it drops a byte order mark at the start, and takes the input in parts.
-/

namespace HarnessControl.Library.Utf8

/-- The bytes may be those of valid input so far. -/
def readable (seen : List UInt8) : List UInt8 → Bool
  | [] => true
  | byte :: rest => accepts seen byte && readable (step seen byte).1 rest

/-- The characters before the first byte that is refused. -/
def readText (seen : List UInt8) : List UInt8 → List Char
  | [] => []
  | byte :: rest =>
    if accepts seen byte then (step seen byte).2 ++ readText (step seen byte).1 rest else []

theorem readable_append (seen first second : List UInt8) :
    readable seen (first ++ second) =
      (readable seen first && readable (after seen first) second) := by
  induction first generalizing seen with
  | nil => rfl
  | cons byte rest ih =>
    show (accepts seen byte && readable (step seen byte).1 (rest ++ second)) = _
    rw [ih, ← Bool.and_assoc]
    rfl

theorem readText_append {seen first : List UInt8} (h : readable seen first = true)
    (second : List UInt8) :
    readText seen (first ++ second) = emitted seen first ++ readText (after seen first) second := by
  induction first generalizing seen with
  | nil => rfl
  | cons byte rest ih =>
    have hbyte := Bool.and_eq_true_iff.mp h
    rw [List.cons_append, readText, if_pos hbyte.1, ih hbyte.2]
    exact (List.append_assoc _ _ _).symm

theorem readText_readable {seen bytes : List UInt8} (h : readable seen bytes = true) :
    readText seen bytes = emitted seen bytes := by
  have happend := readText_append h []
  rw [List.append_nil] at happend
  rw [happend]
  exact List.append_nil _

theorem readText_unreadable {seen first : List UInt8} (h : readable seen first = false)
    (second : List UInt8) : readText seen (first ++ second) = readText seen first := by
  induction first generalizing seen with
  | nil => cases h
  | cons byte rest ih =>
    rw [List.cons_append, readText, readText]
    split
    · rename_i hbyte
      rw [readable, hbyte, Bool.true_and] at h
      rw [ih h]
    · rfl

theorem validFrom_eq (seen bytes : List UInt8) :
    validFrom seen bytes = (readable seen bytes && (after seen bytes).isEmpty) := by
  induction bytes generalizing seen with
  | nil => rfl
  | cons byte rest ih =>
    show (accepts seen byte && validFrom (step seen byte).1 rest) = _
    rw [ih, ← Bool.and_assoc]
    rfl

/-! ## The byte order mark -/

def byteOrderMark : Char := '\uFEFF'

/-- The text of a part, at the start of the input if none came before. -/
def dropMark (started : Bool) : List Char → List Char
  | [] => []
  | c :: rest => if !started && c = byteOrderMark then rest else c :: rest

theorem dropMark_append (started : Bool) (first second : List Char) :
    dropMark started (first ++ second) =
      dropMark started first ++ dropMark (started || !first.isEmpty) second := by
  cases first with
  | nil =>
    rw [List.isEmpty_nil, Bool.not_true, Bool.or_false]
    rfl
  | cons c rest =>
    have hstarted : ∀ text, dropMark (started || !(c :: rest).isEmpty) text = text := by
      intro text
      rw [List.isEmpty_cons, Bool.not_false, Bool.or_true]
      cases text <;> rfl
    rw [hstarted, List.cons_append]
    show (if _ then rest ++ second else c :: (rest ++ second)) = (if _ then rest else _) ++ second
    split <;> rfl

/-! ## The decoder -/

structure TextDecoder where
  seen : List UInt8
  /-- A character was read. -/
  started : Bool

namespace TextDecoder

def opened : TextDecoder := ⟨[], false⟩

/-- `decode(bytes, {stream: !last})`, `none` where it throws. -/
def decode (last : Bool) (bytes : List UInt8) (decoder : TextDecoder) :
    Option (List Char × TextDecoder) :=
  if readable decoder.seen bytes && (!last || (after decoder.seen bytes).isEmpty) then
    let text := emitted decoder.seen bytes
    some (dropMark decoder.started text,
      ⟨after decoder.seen bytes, decoder.started || !text.isEmpty⟩)
  else none

/-- The decoder after some input. -/
def reached (bytes : List UInt8) : TextDecoder :=
  ⟨after [] bytes, !(emitted [] bytes).isEmpty⟩

end TextDecoder

/-- The text of a stream, up to the first byte that is refused. -/
def streamText (bytes : List UInt8) : List Char := dropMark false (readText [] bytes)

theorem streamText_append {before : List UInt8} (h : readable [] before = true)
    (bytes : List UInt8) :
    streamText (before ++ bytes) = streamText before ++
      dropMark (TextDecoder.reached before).started
        (readText (TextDecoder.reached before).seen bytes) := by
  unfold streamText
  rw [readText_append h, dropMark_append, readText_readable h]
  rfl

theorem streamText_extends {before : List UInt8} (h : readable [] before = true)
    (bytes : List UInt8) : ∃ more, streamText (before ++ bytes) = streamText before ++ more :=
  ⟨_, streamText_append h bytes⟩

namespace TextDecoder

theorem decode_some {before bytes : List UInt8} {last : Bool} {read : List Char}
    {decoder : TextDecoder} (hbefore : readable [] before = true)
    (h : (reached before).decode last bytes = some (read, decoder)) :
    readable [] (before ++ bytes) = true ∧ decoder = reached (before ++ bytes) ∧
      streamText (before ++ bytes) = streamText before ++ read ∧
      (last = true → valid (before ++ bytes) = true) := by
  unfold decode at h
  split at h
  · rename_i hread
    rw [Bool.and_eq_true] at hread
    obtain ⟨rfl, rfl⟩ := Prod.mk.inj (Option.some.inj h)
    have hreadable : readable [] (before ++ bytes) = true := by
      rw [readable_append, hbefore]
      exact hread.1
    refine ⟨hreadable, ?_, ?_, ?_⟩
    · unfold reached
      rw [after_append, emitted_append]
      cases emitted [] before <;> rfl
    · rw [streamText_append hbefore, readText_readable hread.1]
    · rintro rfl
      unfold valid
      rw [validFrom_eq, hreadable, after_append]
      exact hread.2
  · cases h

/-- A part is refused where the input has an invalid sequence in it, or ends inside of one. -/
theorem decode_none {before bytes : List UInt8} {last : Bool}
    (hbefore : readable [] before = true) (h : (reached before).decode last bytes = none) :
    readable [] (before ++ bytes) = false ∨ last = true ∧ valid (before ++ bytes) = false := by
  unfold decode at h
  split at h
  · cases h
  · rename_i hread
    rw [Bool.not_eq_true, Bool.and_eq_false_iff] at hread
    obtain hread | hread := hread
    · left
      rw [readable_append, hbefore]
      exact hread
    · right
      rw [Bool.or_eq_false_iff, Bool.not_eq_false'] at hread
      refine ⟨hread.1, ?_⟩
      unfold valid
      rw [validFrom_eq, after_append, Bool.and_eq_false_iff]
      exact Or.inr hread.2

end TextDecoder

end HarnessControl.Library.Utf8
