import HarnessControl.Connection.CanonicalText

/-!
# Payloads with the same text
-/

namespace HarnessControl.Protocol

open HarnessControl.Library

mutual

/-- No object has a key twice, so it is a value that `JSON.parse` returns. -/
def Json.wellKeyed : Json → Bool
  | .arr elements => elements.wellKeyed
  | .obj fields => decide fields.keys.Nodup && fields.wellKeyed
  | _ => true

def JsonList.wellKeyed : JsonList → Bool
  | .nil => true
  | .cons head tail => head.wellKeyed && tail.wellKeyed

def JsonFields.wellKeyed : JsonFields → Bool
  | .nil => true
  | .cons _ value tail => value.wellKeyed && tail.wellKeyed

end

/-- The keys that the comparison does not tell apart stand in the same order. -/
def JsonFields.sameTies (localeLe : String → String → Bool) (left right : JsonFields) : Bool :=
  left.keys.all fun key =>
    left.keys.filter (tied localeLe key) == right.keys.filter (tied localeLe key)

mutual

/-- In objects that stand in the same place, tied keys are in the same order. -/
def Json.tiesAgree (localeLe : String → String → Bool) : Json → Json → Bool
  | .arr left, .arr right => left.tiesAgree localeLe right
  | .obj left, .obj right => left.sameTies localeLe right && left.tiesIncluded localeLe right
  | _, _ => true

def JsonList.tiesAgree (localeLe : String → String → Bool) : JsonList → JsonList → Bool
  | .cons left lefts, .cons right rights =>
    left.tiesAgree localeLe right && lefts.tiesAgree localeLe rights
  | _, _ => true

def JsonFields.tiesIncluded (localeLe : String → String → Bool) : JsonFields → JsonFields → Bool
  | .nil, _ => true
  | .cons key value tail, other =>
    (match other.get? key with
      | some found => value.tiesAgree localeLe found
      | none => true) && tail.tiesIncluded localeLe other

end

theorem JsonFields.mem_keys_of_get? {fields : JsonFields} {key : String} {value : Json}
    (h : fields.get? key = some value) : key ∈ fields.keys := by
  match fields with
  | .nil => cases h
  | .cons other found tail =>
    unfold JsonFields.get? at h
    by_cases hkey : other = key
    · rw [hkey]
      exact List.mem_cons_self
    · rw [if_neg hkey] at h
      exact List.mem_cons_of_mem other (JsonFields.mem_keys_of_get? h)

theorem JsonFields.wellKeyed_of_get? {fields : JsonFields} (hfields : fields.wellKeyed = true)
    {key : String} {value : Json} (h : fields.get? key = some value) : value.wellKeyed = true := by
  match fields with
  | .nil => cases h
  | .cons other found tail =>
    unfold JsonFields.wellKeyed at hfields
    rw [Bool.and_eq_true] at hfields
    unfold JsonFields.get? at h
    by_cases hkey : other = key
    · rw [if_pos hkey] at h
      obtain rfl := Option.some.inj h
      exact hfields.1
    · rw [if_neg hkey] at h
      exact JsonFields.wellKeyed_of_get? hfields.2 h

end HarnessControl.Protocol

namespace HarnessControl.Connection

open HarnessControl.Library HarnessControl.Protocol HarnessControl.State

variable {host : Host}

/-! ## Objects -/

theorem stableEntries_keys (host : Host) (fields : JsonFields) :
    (stableEntries host fields).map Prod.fst = fields.keys := by
  cases fields with
  | nil => rfl
  | cons key value tail => exact congrArg _ (stableEntries_keys host tail)

theorem get?_of_mem_stableEntries {fields : JsonFields} (hnodup : fields.keys.Nodup)
    {entry : String × String} (hentry : entry ∈ stableEntries host fields) :
    ∃ value, fields.get? entry.1 = some value ∧ stableStringify host value = entry.2 := by
  match fields with
  | .nil => cases hentry
  | .cons key value tail =>
    obtain ⟨hfresh, htail⟩ := List.nodup_cons.mp hnodup
    obtain heq | hin := List.mem_cons.mp hentry
    · refine ⟨value, ?_, by rw [heq]⟩
      rw [heq]
      exact if_pos rfl
    · obtain ⟨found, hfound, htext⟩ := get?_of_mem_stableEntries htail hin
      have hne : key ≠ entry.1 := by
        rintro rfl
        exact hfresh (JsonFields.mem_keys_of_get? hfound)
      exact ⟨found, (if_neg hne).trans hfound, htext⟩

/-- Each entry of the first object has a value with the same text in the second. -/
def ValuesAgree (host : Host) (left right : JsonFields) : Prop :=
  ∀ entry ∈ stableEntries host left,
    ∃ found, right.get? entry.1 = some found ∧ stableStringify host found = entry.2

def entryOf (host : Host) (fields : JsonFields) (key : String) : String × String :=
  (key, (fields.get? key).elim "" (stableStringify host))

theorem stableEntries_eq_map {left right : JsonFields} (h : ValuesAgree host left right) :
    stableEntries host left = left.keys.map (entryOf host right) := by
  rw [← stableEntries_keys host left, List.map_map]
  conv_lhs => rw [← List.map_id (stableEntries host left)]
  apply List.map_congr_left
  intro entry hentry
  obtain ⟨found, hfound, htext⟩ := h entry hentry
  show entry = (entry.1, (right.get? entry.1).elim "" (stableStringify host))
  rw [hfound, Option.elim_some, htext]

theorem sortedEntries_map (host : Host) (fields : JsonFields) (keys : List String) :
    sortedEntries host (keys.map (entryOf host fields)) =
      (keys.mergeSort host.localeLe).map (entryOf host fields) := by
  unfold sortedEntries
  symm
  apply List.map_mergeSort
  intro a _ b _
  rfl

theorem entryOf_injective (host : Host) (fields : JsonFields) :
    Function.Injective (entryOf host fields) := by
  intro key other heq
  exact congrArg Prod.fst heq

/-- `JSON.stringify`, and `localeCompare` as a total preorder. -/
structure SerialisesJson (host : Host) : Prop where
  leaves : StringifiesLeaves host.stringify
  locale_trans : ∀ a b c,
    host.localeLe a b = true → host.localeLe b c = true → host.localeLe a c = true
  locale_total : ∀ a b, (host.localeLe a b || host.localeLe b a) = true

theorem sortedEntries_eq_iff (hhost : SerialisesJson host) {left right : JsonFields}
    (hleft : left.keys.Nodup) (hright : right.keys.Nodup) :
    sortedEntries host (stableEntries host left) = sortedEntries host (stableEntries host right) ↔
      left.keys.length = right.keys.length ∧ ValuesAgree host left right ∧
        left.sameTies host.localeLe right = true := by
  have hself : ValuesAgree host right right := fun entry => get?_of_mem_stableEntries hright
  -- where the values agree, only the order of the keys is left to compare
  have hkeys : ValuesAgree host left right →
      (sortedEntries host (stableEntries host left) =
          sortedEntries host (stableEntries host right) ↔
        left.keys.Perm right.keys ∧ left.sameTies host.localeLe right = true) := by
    intro hagree
    rw [stableEntries_eq_map hagree, stableEntries_eq_map hself, sortedEntries_map,
      sortedEntries_map, (List.map_injective_iff.mpr (entryOf_injective host right)).eq_iff,
      mergeSort_eq_iff hhost.locale_trans hhost.locale_total]
    unfold JsonFields.sameTies
    simp only [List.all_eq_true, beq_iff_eq]
  constructor
  · intro heq
    have hperm : (stableEntries host left).Perm (stableEntries host right) := by
      have hsorted := (List.mergeSort_perm (stableEntries host left)
        fun left right => host.localeLe left.1 right.1).symm
      exact (hsorted.trans (List.Perm.of_eq heq)).trans (List.mergeSort_perm _ _)
    have hagree : ValuesAgree host left right := by
      intro entry hentry
      exact hself entry (hperm.subset hentry)
    obtain ⟨hpermKeys, hties⟩ := (hkeys hagree).mp heq
    exact ⟨hpermKeys.length_eq, hagree, hties⟩
  · rintro ⟨hlength, hagree, hties⟩
    apply (hkeys hagree).mpr
    refine ⟨?_, hties⟩
    have hsubset : left.keys ⊆ right.keys := by
      intro key hkey
      rw [← stableEntries_keys host left] at hkey
      obtain ⟨entry, hentry, rfl⟩ := List.mem_map.mp hkey
      obtain ⟨found, hfound, -⟩ := hagree entry hentry
      exact JsonFields.mem_keys_of_get? hfound
    apply (List.subperm_of_subset hleft hsubset).perm_of_length_le
    exact Nat.le_of_eq hlength.symm

/-! ## Values -/

/-- The kind of a value, which the first character of its text tells. -/
def kind : Json → Nat
  | .null => 0
  | .bool _ => 1
  | .num _ => 2
  | .str _ => 3
  | .arr _ => 4
  | .obj _ => 5

def kindOfFirst (c : Char) : Nat :=
  if c = 'n' then 0
  else if c = 't' ∨ c = 'f' then 1
  else if c = '"' then 3
  else if c = '[' then 4
  else if c = '\x7b' then 5
  else 2

theorem kind_of_text (hleaves : StringifiesLeaves host.stringify) (value : Json) :
    (stableStringify host value).toList.head?.map kindOfFirst = some (kind value) := by
  cases value with
  | null =>
    show (host.stringify .null).toList.head?.map kindOfFirst = _
    rw [hleaves.null]
    decide
  | bool value =>
    show (host.stringify (.bool value)).toList.head?.map kindOfFirst = _
    rw [hleaves.bool]
    cases value <;> decide
  | num value =>
    show (host.stringify (.num value)).toList.head?.map kindOfFirst = _
    obtain ⟨hne, hchars⟩ := hleaves.num value
    cases htext : (host.stringify (.num value)).toList with
    | nil => exact absurd (String.toList_eq_nil_iff.mp htext) hne
    | cons c rest =>
      rw [htext] at hchars
      have hc := hchars c List.mem_cons_self
      have hother : ∀ d : Char, numberChar d = false → c ≠ d := by
        rintro d hd rfl
        rw [hc] at hd
        cases hd
      rw [List.head?_cons, Option.map_some]
      unfold kindOfFirst
      simp only [hother 'n' (by decide), hother 't' (by decide), hother 'f' (by decide),
        hother '"' (by decide), hother '[' (by decide), hother '\x7b' (by decide), or_self,
        if_false]
      rfl
  | str s =>
    show (host.stringify (.str s)).toList.head?.map kindOfFirst = _
    rw [hleaves.str, quoted_toList]
    rfl
  | arr elements =>
    rw [stableStringify_arr]
    rfl
  | obj fields =>
    show (joinEntries host _).toList.head?.map kindOfFirst = _
    rw [joinEntries_toList hleaves]
    rfl

theorem kind_eq_of_text (hleaves : StringifiesLeaves host.stringify) {left right : Json}
    (heq : stableStringify host left = stableStringify host right) : kind left = kind right := by
  have hleft := kind_of_text hleaves left
  rw [heq, kind_of_text hleaves right] at hleft
  exact (Option.some.inj hleft).symm

theorem kind_eq_of_deepEqual {left right : Json} (h : left.deepEqual right = true) :
    kind left = kind right := by
  cases left <;> cases right <;> first | rfl | cases h

theorem text_eq_iff_of_kind (hleaves : StringifiesLeaves host.stringify) {left right : Json}
    (hkind : kind left ≠ kind right) :
    stableStringify host left = stableStringify host right ↔
      left.deepEqual right = true ∧ left.tiesAgree host.localeLe right = true := by
  constructor
  · intro heq
    exact absurd (kind_eq_of_text hleaves heq) hkind
  · rintro ⟨hequal, -⟩
    exact absurd (kind_eq_of_deepEqual hequal) hkind

mutual

theorem stableStringify_eq_iff (hhost : SerialisesJson host) (left right : Json)
    (hleft : left.wellKeyed = true) (hright : right.wellKeyed = true) :
    stableStringify host left = stableStringify host right ↔
      left.deepEqual right = true ∧ left.tiesAgree host.localeLe right = true := by
  by_cases hkind : kind left = kind right
  · match left, right with
    | .null, .null => exact iff_of_true rfl ⟨rfl, rfl⟩
    | .bool a, .bool b =>
      show host.stringify (.bool a) = host.stringify (.bool b) ↔ (a == b) = true ∧ true = true
      rw [hhost.leaves.bool, hhost.leaves.bool]
      cases a <;> cases b <;> decide
    | .num a, .num b =>
      show host.stringify (.num a) = host.stringify (.num b) ↔ (a == b) = true ∧ true = true
      constructor
      · intro heq
        exact ⟨beq_iff_eq.mpr (hhost.leaves.num_injective a b heq), rfl⟩
      · rintro ⟨hab, -⟩
        rw [beq_iff_eq.mp hab]
    | .str a, .str b =>
      show host.stringify (.str a) = host.stringify (.str b) ↔ (a == b) = true ∧ true = true
      rw [hhost.leaves.str, hhost.leaves.str]
      constructor
      · intro heq
        have hlist := congrArg (fun text => text.toList ++ []) heq
        exact ⟨beq_iff_eq.mpr (quoted_unique hlist).1, rfl⟩
      · rintro ⟨hab, -⟩
        rw [beq_iff_eq.mp hab]
    | .arr left, .arr right =>
      rw [arr_text_eq_iff hhost.leaves]
      exact stableElements_eq_iff hhost left right hleft hright
    | .obj left, .obj right =>
      unfold Json.wellKeyed at hleft hright
      rw [Bool.and_eq_true, decide_eq_true_iff] at hleft hright
      have hentries := joinEntries_eq_iff hhost.leaves (stableEntries_complete hhost.leaves left)
        (stableEntries_complete hhost.leaves right)
      show joinEntries host _ = joinEntries host _ ↔
        (left.keys.length == right.keys.length && left.deepIncluded right) = true ∧
          (left.sameTies host.localeLe right && left.tiesIncluded host.localeLe right) = true
      rw [hentries, sortedEntries_eq_iff hhost hleft.1 hright.1,
        valuesAgree_iff hhost left right hleft.2 hright.2, Bool.and_eq_true, Bool.and_eq_true,
        beq_iff_eq]
      grind
  · exact text_eq_iff_of_kind hhost.leaves hkind

theorem stableElements_eq_iff (hhost : SerialisesJson host) (left right : JsonList)
    (hleft : left.wellKeyed = true) (hright : right.wellKeyed = true) :
    stableElements host left = stableElements host right ↔
      left.deepEqual right = true ∧ left.tiesAgree host.localeLe right = true := by
  match left, right with
  | .nil, .nil => exact iff_of_true rfl ⟨rfl, rfl⟩
  | .nil, .cons _ _ => exact iff_of_false nofun nofun
  | .cons _ _, .nil => exact iff_of_false nofun nofun
  | .cons left lefts, .cons right rights =>
    unfold JsonList.wellKeyed at hleft hright
    rw [Bool.and_eq_true] at hleft hright
    show stableStringify host left :: stableElements host lefts =
        stableStringify host right :: stableElements host rights ↔
      (left.deepEqual right && lefts.deepEqual rights) = true ∧
        (left.tiesAgree host.localeLe right && lefts.tiesAgree host.localeLe rights) = true
    rw [List.cons.injEq, stableStringify_eq_iff hhost left right hleft.1 hright.1,
      stableElements_eq_iff hhost lefts rights hleft.2 hright.2, Bool.and_eq_true,
      Bool.and_eq_true, and_and_and_comm]

theorem valuesAgree_iff (hhost : SerialisesJson host) (left right : JsonFields)
    (hleft : left.wellKeyed = true) (hright : right.wellKeyed = true) :
    ValuesAgree host left right ↔
      left.deepIncluded right = true ∧ left.tiesIncluded host.localeLe right = true := by
  match left with
  | .nil => exact iff_of_true (fun _ hin => absurd hin List.not_mem_nil) ⟨rfl, rfl⟩
  | .cons key value tail =>
    unfold JsonFields.wellKeyed at hleft
    rw [Bool.and_eq_true] at hleft
    have htail := valuesAgree_iff hhost tail right hleft.2 hright
    have hcons : ValuesAgree host (.cons key value tail) right ↔
        (∃ found, right.get? key = some found ∧
          stableStringify host found = stableStringify host value) ∧
        ValuesAgree host tail right := List.forall_mem_cons
    have hincluded : (JsonFields.cons key value tail).deepIncluded right =
        ((match right.get? key with
          | some found => value.deepEqual found
          | none => false) && tail.deepIncluded right) := rfl
    have hties : (JsonFields.cons key value tail).tiesIncluded host.localeLe right =
        ((match right.get? key with
          | some found => value.tiesAgree host.localeLe found
          | none => true) && tail.tiesIncluded host.localeLe right) := rfl
    rw [hcons, htail, hincluded, hties]
    cases hfound : right.get? key with
    | none => simp
    | some found =>
      have hvalue := stableStringify_eq_iff hhost value found hleft.1
        (JsonFields.wellKeyed_of_get? hright hfound)
      simp only [Option.some.injEq, exists_eq_left', Bool.and_eq_true]
      rw [eq_comm, hvalue, and_and_and_comm]

end

end HarnessControl.Connection
