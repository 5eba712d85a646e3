import Mathlib
import HarnessControl.Library.SelfDelimiting
import HarnessControl.Library.StableSort
import HarnessControl.Connection.Commands

/-!
# The text that is hashed of a payload

`stableStringify` sorts the entries of every object by a comparison that may leave keys tied.  The
text of a value can be read back from whatever follows it, so the text of an array or an object tells
the texts of its elements or of its sorted entries.
-/

namespace HarnessControl.Connection

open HarnessControl.Library HarnessControl.Protocol HarnessControl.State

/-! ## `JSON.stringify` of strings and numbers -/

def hexDigit (digit : Nat) : Char :=
  if digit < 10 then Char.ofNat (48 + digit) else Char.ofNat (87 + digit)

def hexValue (c : Char) : Nat := if c.toNat < 58 then c.toNat - 48 else c.toNat - 87

/-- A character inside a JSON string. -/
def escapeChar (c : Char) : List Char :=
  if c = '"' then ['\\', '"']
  else if c = '\\' then ['\\', '\\']
  else if c = '\x08' then ['\\', 'b']
  else if c = '\x0c' then ['\\', 'f']
  else if c = '\n' then ['\\', 'n']
  else if c = '\r' then ['\\', 'r']
  else if c = '\t' then ['\\', 't']
  else if c.toNat < 0x20 then
    ['\\', 'u', '0', '0', hexDigit (c.toNat / 16), hexDigit (c.toNat % 16)]
  else [c]

def quoted (s : String) : String := String.ofList ('"' :: s.toList.flatMap escapeChar ++ ['"'])

/-- `JSON.stringify` of a value that is neither an array nor an object. -/
def leafText : Json → String
  | .null => "null"
  | .bool value => if value then "true" else "false"
  | .num value => value.repr
  | .str s => quoted s
  | _ => ""

def numberChar (c : Char) : Bool := c.isDigit || "+-.e".toList.contains c

/-- What `JSON.stringify` gives for the values that are neither arrays nor objects. -/
structure StringifiesLeaves (stringify : Json → String) : Prop where
  null : stringify .null = "null"
  bool : ∀ value, stringify (.bool value) = if value then "true" else "false"
  str : ∀ s, stringify (.str s) = quoted s
  num : ∀ value, stringify (.num value) ≠ "" ∧ ∀ c ∈ (stringify (.num value)).toList, numberChar c
  num_injective : ∀ value other, stringify (.num value) = stringify (.num other) → value = other

theorem escapeChar_plain {c : Char} (hquote : c ≠ '"') (hslash : c ≠ '\\')
    (hcontrol : ¬c.toNat < 0x20) : escapeChar c = [c] := by
  have hne : ∀ d : Char, d.toNat < 0x20 → c ≠ d := by
    rintro d hd rfl
    exact hcontrol hd
  unfold escapeChar
  rw [if_neg hquote, if_neg hslash, if_neg (hne _ (by decide)), if_neg (hne _ (by decide)),
    if_neg (hne _ (by decide)), if_neg (hne _ (by decide)), if_neg (hne _ (by decide)),
    if_neg hcontrol]

/-! ## The reader -/

inductive TextMode where
  | plain
  | quoted
  | escaped

/-- Brackets are counted outside strings.  A comma or a closing bracket ends the outermost value. -/
def readChar : Nat × TextMode → Char → Option (Nat × TextMode)
  | (depth, .escaped), _ => some (depth, .quoted)
  | (depth, .quoted), c =>
    if c = '"' then some (depth, .plain)
    else if c = '\\' then some (depth, .escaped)
    else some (depth, .quoted)
  | (depth, .plain), c =>
    if c = '"' then some (depth, .quoted)
    else if c = '[' ∨ c = '\x7b' then some (depth + 1, .plain)
    else if c = ']' ∨ c = '\x7d' then if depth = 0 then none else some (depth - 1, .plain)
    else if c = ',' then if depth = 0 then none else some (depth, .plain)
    else some (depth, .plain)

/-- A text over which the reader passes at every depth. -/
def Complete (text : List Char) : Prop := ∀ depth, Passes readChar (depth, .plain) text

theorem control_chars {P : Char → Prop} (h : ∀ n < 0x20, P (Char.ofNat n)) {c : Char}
    (hc : c.toNat < 0x20) : P c := by
  have hn := h c.toNat hc
  rwa [Char.ofNat_toNat] at hn

theorem escapeChar_control_passes (depth : Nat) {c : Char} (hc : c.toNat < 0x20) :
    Passes readChar (depth, .quoted) (escapeChar c) := by
  apply control_chars _ hc
  intro n hn
  interval_cases n <;> rfl

theorem escapeChar_passes (depth : Nat) (c : Char) :
    Passes readChar (depth, .quoted) (escapeChar c) := by
  by_cases hquote : c = '"'
  · subst hquote
    rfl
  by_cases hslash : c = '\\'
  · subst hslash
    rfl
  by_cases hcontrol : c.toNat < 0x20
  · exact escapeChar_control_passes depth hcontrol
  · have hplain : escapeChar c = [c] := escapeChar_plain hquote hslash hcontrol
    rw [hplain]
    apply passes_single
    show (if c = '"' then _ else if c = '\\' then _ else _) = some (depth, TextMode.quoted)
    rw [if_neg hquote, if_neg hslash]

/-! ## Strings -/

/-- The first character inside a string that is read, and what follows. -/
def unescapeChar : List Char → Option (Char × List Char)
  | '"' :: _ => none
  | '\\' :: '"' :: rest => some ('"', rest)
  | '\\' :: '\\' :: rest => some ('\\', rest)
  | '\\' :: 'b' :: rest => some ('\x08', rest)
  | '\\' :: 'f' :: rest => some ('\x0c', rest)
  | '\\' :: 'n' :: rest => some ('\n', rest)
  | '\\' :: 'r' :: rest => some ('\r', rest)
  | '\\' :: 't' :: rest => some ('\t', rest)
  | '\\' :: 'u' :: _ :: _ :: high :: low :: rest =>
    some (Char.ofNat (16 * hexValue high + hexValue low), rest)
  | '\\' :: _ => none
  | c :: rest => some (c, rest)
  | [] => none

theorem unescapeChar_escapeChar (c : Char) (rest : List Char) :
    unescapeChar (escapeChar c ++ rest) = some (c, rest) := by
  by_cases hquote : c = '"'
  · subst hquote
    rfl
  by_cases hslash : c = '\\'
  · subst hslash
    rfl
  by_cases hcontrol : c.toNat < 0x20
  · apply control_chars
      (P := fun c => unescapeChar (escapeChar c ++ rest) = some (c, rest)) _ hcontrol
    intro n hn
    interval_cases n <;> rfl
  · rw [escapeChar_plain hquote hslash hcontrol]
    unfold unescapeChar
    split <;> simp_all

theorem flatMap_escapeChar_unique {first second rest rest' : List Char}
    (heq : first.flatMap escapeChar ++ '"' :: rest = second.flatMap escapeChar ++ '"' :: rest') :
    first = second ∧ rest = rest' := by
  induction first generalizing second with
  | nil =>
    cases second with
    | nil => exact ⟨rfl, (List.cons.inj heq).2⟩
    | cons c second =>
      have hread := unescapeChar_escapeChar c (second.flatMap escapeChar ++ '"' :: rest')
      rw [← List.append_assoc, ← List.flatMap_cons, ← heq] at hread
      cases hread
  | cons c first ih =>
    have hread := unescapeChar_escapeChar c (first.flatMap escapeChar ++ '"' :: rest)
    rw [← List.append_assoc, ← List.flatMap_cons, heq] at hread
    cases second with
    | nil => cases hread
    | cons d second =>
      rw [List.flatMap_cons, List.append_assoc, unescapeChar_escapeChar] at hread
      obtain ⟨rfl, hrest⟩ := Prod.mk.inj (Option.some.inj hread)
      obtain ⟨htail, hrest⟩ := ih hrest.symm
      exact ⟨congrArg _ htail, hrest⟩

theorem quoted_toList (s : String) :
    (quoted s).toList = '"' :: s.toList.flatMap escapeChar ++ ['"'] := by
  unfold quoted
  exact String.toList_ofList

theorem quoted_unique {s t : String} {rest rest' : List Char}
    (heq : (quoted s).toList ++ rest = (quoted t).toList ++ rest') : s = t ∧ rest = rest' := by
  rw [quoted_toList, quoted_toList, List.cons_append, List.cons_append, List.append_assoc,
    List.append_assoc] at heq
  obtain ⟨htext, hrest⟩ := flatMap_escapeChar_unique (List.cons.inj heq).2
  exact ⟨String.toList_injective htext, hrest⟩

theorem quoted_complete (s : String) : Complete (quoted s).toList := by
  intro depth
  rw [quoted_toList]
  unfold Passes
  have hinner : Passes readChar (depth, .quoted) (s.toList.flatMap escapeChar) := by
    induction s.toList with
    | nil => rfl
    | cons c text ih => exact (escapeChar_passes depth c).append ih
  rw [List.cons_append, readThrough_cons]
  show readThrough readChar (depth, .quoted) (_ ++ ['"']) = _
  rw [readThrough_append, show readThrough readChar _ _ = _ from hinner]
  rfl

theorem quoted_ne_nil (s : String) : (quoted s).toList ≠ [] := by
  rw [quoted_toList]
  exact List.cons_ne_nil _ _

/-! ## Values -/

theorem numberChar_passes {c : Char} (hc : numberChar c = true) (depth : Nat) :
    readChar (depth, .plain) c = some (depth, .plain) := by
  have hne : ∀ d : Char, numberChar d = false → c ≠ d := by
    rintro d hd rfl
    rw [hc] at hd
    cases hd
  unfold readChar
  simp only [hne '"' (by decide), hne '[' (by decide), hne '\x7b' (by decide), hne ']' (by decide),
    hne '\x7d' (by decide), hne ',' (by decide), or_self, if_false]

theorem intercalate_passes (depth : Nat) {texts : List (List Char)}
    (h : ∀ text ∈ texts, Passes readChar (depth + 1, .plain) text) :
    Passes readChar (depth + 1, .plain) ([','].intercalate texts) := by
  induction texts with
  | nil => rfl
  | cons text texts ih =>
    have htext := h text List.mem_cons_self
    have hrest := ih fun other hin => h other (List.mem_cons_of_mem text hin)
    cases texts with
    | nil =>
      rw [List.intercalate_singleton]
      exact htext
    | cons next texts =>
      rw [List.intercalate_cons_cons]
      have hcomma : Passes readChar (depth + 1, .plain) [','] := rfl
      exact (htext.append hcomma).append hrest

variable {host : Host}

theorem bracketed_complete {opening closing : Char} {inner : List Char}
    (hopening : opening = '[' ∨ opening = '\x7b') (hclosing : closing = ']' ∨ closing = '\x7d')
    (hinner : ∀ depth, Passes readChar (depth + 1, .plain) inner) :
    Complete (opening :: (inner ++ [closing])) := by
  intro depth
  unfold Passes
  have hopens : readChar (depth, .plain) opening = some (depth + 1, .plain) := by
    obtain rfl | rfl := hopening <;> rfl
  have hcloses : readChar (depth + 1, .plain) closing = some (depth, .plain) := by
    obtain rfl | rfl := hclosing <;> rfl
  rw [readThrough_cons, hopens, Option.bind_some, readThrough_append,
    show readThrough readChar _ inner = _ from hinner depth, Option.bind_some, readThrough_cons,
    hcloses]
  rfl

def entryText (entry : String × String) : List Char :=
  (quoted entry.1).toList ++ ':' :: entry.2.toList

theorem entryText_complete {entry : String × String} (h : Complete entry.2.toList) :
    Complete (entryText entry) := by
  intro depth
  have hcolon : Passes readChar (depth, .plain) [':'] := rfl
  exact (quoted_complete entry.1 depth).append (hcolon.append (h depth))

theorem entryText_ne_nil (entry : String × String) : entryText entry ≠ [] := by
  intro hnil
  exact quoted_ne_nil entry.1 (List.append_eq_nil_iff.mp hnil).1

def sortedEntries (host : Host) (entries : List (String × String)) : List (String × String) :=
  entries.mergeSort fun left right => host.localeLe left.1 right.1

theorem entryText_eq (hleaves : StringifiesLeaves host.stringify) (entry : String × String) :
    (host.stringify (.str entry.1) ++ ":" ++ entry.2).toList = entryText entry := by
  rw [hleaves.str, String.toList_append, String.toList_append, List.append_assoc,
    show ":".toList = [':'] by decide, List.singleton_append]
  rfl

theorem joinEntries_toList (hleaves : StringifiesLeaves host.stringify)
    (entries : List (String × String)) :
    (joinEntries host entries).toList =
      '\x7b' :: ([','].intercalate ((sortedEntries host entries).map entryText) ++ ['\x7d']) := by
  have htexts : ((sortedEntries host entries).map fun entry =>
      host.stringify (.str entry.1) ++ ":" ++ entry.2).map String.toList =
        (sortedEntries host entries).map entryText := by
    rw [List.map_map]
    apply List.map_congr_left
    intro entry _
    exact entryText_eq hleaves entry
  have hjoin : joinEntries host entries =
      "\x7b" ++ ",".intercalate ((sortedEntries host entries).map fun entry =>
        host.stringify (.str entry.1) ++ ":" ++ entry.2) ++ "\x7d" := rfl
  rw [hjoin, String.toList_append, String.toList_append, String.toList_intercalate, htexts,
    show "\x7b".toList = ['\x7b'] by decide, show ",".toList = [','] by decide,
    show "\x7d".toList = ['\x7d'] by decide, List.append_assoc, List.singleton_append]

theorem stableStringify_arr (host : Host) (elements : JsonList) :
    (stableStringify host (.arr elements)).toList =
      '[' :: ([','].intercalate ((stableElements host elements).map String.toList) ++ [']']) := by
  show ("[" ++ ",".intercalate (stableElements host elements) ++ "]").toList = _
  rw [String.toList_append, String.toList_append, String.toList_intercalate,
    show "[".toList = ['['] by decide, show ",".toList = [','] by decide,
    show "]".toList = [']'] by decide, List.append_assoc, List.singleton_append]

mutual

theorem stableStringify_complete (hleaves : StringifiesLeaves host.stringify) :
    (value : Json) → Complete (stableStringify host value).toList
  | .null => by
    show Complete (host.stringify .null).toList
    rw [hleaves.null]
    exact fun _ => rfl
  | .bool value => by
    show Complete (host.stringify (.bool value)).toList
    rw [hleaves.bool]
    cases value <;> exact fun _ => rfl
  | .num value => by
    intro depth
    apply passes_of_forall
    intro c hc
    exact numberChar_passes ((hleaves.num value).2 c hc) depth
  | .str s => by
    show Complete (host.stringify (.str s)).toList
    rw [hleaves.str]
    exact quoted_complete s
  | .arr elements => by
    rw [stableStringify_arr]
    apply bracketed_complete (Or.inl rfl) (Or.inl rfl)
    intro depth
    apply intercalate_passes
    intro text htext
    obtain ⟨element, helement, rfl⟩ := List.mem_map.mp htext
    exact stableElements_complete hleaves elements element helement (depth + 1)
  | .obj fields => by
    show Complete (joinEntries host _).toList
    rw [joinEntries_toList hleaves]
    apply bracketed_complete (Or.inr rfl) (Or.inr rfl)
    intro depth
    apply intercalate_passes
    intro text htext
    obtain ⟨entry, hentry, rfl⟩ := List.mem_map.mp htext
    have hcomplete := stableEntries_complete hleaves fields entry (List.mem_mergeSort.mp hentry)
    exact entryText_complete hcomplete (depth + 1)

theorem stableElements_complete (hleaves : StringifiesLeaves host.stringify) :
    (elements : JsonList) → ∀ text ∈ stableElements host elements, Complete text.toList
  | .nil, _, hin => absurd hin List.not_mem_nil
  | .cons head tail, text, hin => by
    obtain heq | htail := List.mem_cons.mp hin
    · rw [heq]
      exact stableStringify_complete hleaves head
    · exact stableElements_complete hleaves tail text htail

theorem stableEntries_complete (hleaves : StringifiesLeaves host.stringify) :
    (fields : JsonFields) → ∀ entry ∈ stableEntries host fields, Complete entry.2.toList
  | .nil, _, hin => absurd hin List.not_mem_nil
  | .cons key value tail, entry, hin => by
    obtain heq | htail := List.mem_cons.mp hin
    · rw [heq]
      exact stableStringify_complete hleaves value
    · exact stableEntries_complete hleaves tail entry htail

end

theorem stableStringify_ne_nil (hleaves : StringifiesLeaves host.stringify) (value : Json) :
    (stableStringify host value).toList ≠ [] := by
  cases value with
  | null =>
    show (host.stringify .null).toList ≠ []
    rw [hleaves.null]
    decide
  | bool value =>
    show (host.stringify (.bool value)).toList ≠ []
    rw [hleaves.bool]
    cases value <;> decide
  | num value =>
    intro hnil
    exact (hleaves.num value).1 (String.toList_eq_nil_iff.mp hnil)
  | str s =>
    show (host.stringify (.str s)).toList ≠ []
    rw [hleaves.str]
    exact quoted_ne_nil s
  | arr elements =>
    rw [stableStringify_arr]
    exact List.cons_ne_nil _ _
  | obj fields =>
    show (joinEntries host _).toList ≠ []
    rw [joinEntries_toList hleaves]
    exact List.cons_ne_nil _ _

theorem stableElements_eq (host : Host) (elements : JsonList) :
    ∀ text ∈ stableElements host elements, ∃ value, stableStringify host value = text := by
  cases elements with
  | nil => exact fun _ hin => absurd hin List.not_mem_nil
  | cons head tail =>
    intro text hin
    obtain heq | htail := List.mem_cons.mp hin
    · exact ⟨head, heq.symm⟩
    · exact stableElements_eq host tail text htail

/-! ## Equal texts -/

theorem arr_text_eq_iff (hleaves : StringifiesLeaves host.stringify) (left right : JsonList) :
    stableStringify host (.arr left) = stableStringify host (.arr right) ↔
      stableElements host left = stableElements host right := by
  constructor
  · intro heq
    have hlist := congrArg String.toList heq
    rw [stableStringify_arr, stableStringify_arr] at hlist
    have hinner := List.append_cancel_right (List.cons.inj hlist).2
    have htexts : ∀ elements : JsonList,
        ∀ text ∈ (stableElements host elements).map String.toList,
          Passes readChar (0, .plain) text ∧ text ≠ [] := by
      intro elements text htext
      obtain ⟨element, helement, rfl⟩ := List.mem_map.mp htext
      obtain ⟨value, rfl⟩ := stableElements_eq host elements element helement
      exact ⟨stableStringify_complete hleaves value 0, stableStringify_ne_nil hleaves value⟩
    have hcomma : readChar (0, .plain) ',' = none := rfl
    have hmap := intercalate_unique hcomma (htexts left) (htexts right) hinner
    exact List.map_injective_iff.mpr (fun _ _ => String.toList_injective) hmap
  · intro heq
    show "[" ++ ",".intercalate (stableElements host left) ++ "]" = _
    rw [heq]
    rfl

theorem entryText_inj {entry other : String × String} (h : entryText entry = entryText other) :
    entry = other := by
  obtain ⟨hkey, hrest⟩ := quoted_unique h
  exact Prod.ext hkey (String.toList_injective (List.cons.inj hrest).2)

theorem joinEntries_eq_iff (hleaves : StringifiesLeaves host.stringify)
    {left right : List (String × String)} (hleft : ∀ entry ∈ left, Complete entry.2.toList)
    (hright : ∀ entry ∈ right, Complete entry.2.toList) :
    joinEntries host left = joinEntries host right ↔
      sortedEntries host left = sortedEntries host right := by
  constructor
  · intro heq
    have hlist := congrArg String.toList heq
    rw [joinEntries_toList hleaves, joinEntries_toList hleaves] at hlist
    have hinner := List.append_cancel_right (List.cons.inj hlist).2
    have htexts : ∀ entries : List (String × String), (∀ entry ∈ entries, Complete entry.2.toList) →
        ∀ text ∈ (sortedEntries host entries).map entryText,
          Passes readChar (0, .plain) text ∧ text ≠ [] := by
      intro entries hcomplete text htext
      obtain ⟨entry, hentry, rfl⟩ := List.mem_map.mp htext
      have hin := hcomplete entry (List.mem_mergeSort.mp hentry)
      exact ⟨entryText_complete hin 0, entryText_ne_nil entry⟩
    have hcomma : readChar (0, .plain) ',' = none := rfl
    have hmap := intercalate_unique hcomma (htexts left hleft) (htexts right hright) hinner
    exact List.map_injective_iff.mpr (fun _ _ => entryText_inj) hmap
  · intro heq
    unfold joinEntries
    unfold sortedEntries at heq
    rw [heq]

end HarnessControl.Connection
