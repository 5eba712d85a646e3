import Mathlib

/-!
# Insertion-ordered dictionaries

An object used as a dictionary keeps its keys in the order of their first insertion: assigning an
existing key replaces the value in place, a new key goes last.  `Dict` carries the uniqueness of
its keys as a field, so `get?` needs no side condition.
-/

namespace HarnessControl.Library

/-- A dictionary in insertion order, each key once. -/
structure Dict (κ : Type*) (α : Type*) where
  entries : List (κ × α)
  nodup : (entries.map Prod.fst).Nodup

namespace Dict

variable {κ α β : Type*}

instance [DecidableEq κ] [DecidableEq α] : DecidableEq (Dict κ α) := fun a b =>
  decidable_of_iff (a.entries = b.entries) (by cases a; cases b; simp)

theorem ext {a b : Dict κ α} (h : a.entries = b.entries) : a = b := by
  cases a; cases b; simpa using h

def empty : Dict κ α := ⟨[], List.nodup_nil⟩

def keys (d : Dict κ α) : List κ := d.entries.map Prod.fst

def values (d : Dict κ α) : List α := d.entries.map Prod.snd

def size (d : Dict κ α) : Nat := d.entries.length

theorem size_eq_length_keys (d : Dict κ α) : d.size = d.keys.length := by
  simp [size, keys]

/-! ## Lists of entries -/

/-- Replace the value at `k` in place, or append the new entry. -/
def assign [DecidableEq κ] (k : κ) (v : α) : List (κ × α) → List (κ × α)
  | [] => [(k, v)]
  | (l, w) :: rest => if l = k then (k, v) :: rest else (l, w) :: assign k v rest

theorem assign_keys [DecidableEq κ] (k : κ) (v : α) (l : List (κ × α)) :
    (assign k v l).map Prod.fst =
      if k ∈ l.map Prod.fst then l.map Prod.fst else l.map Prod.fst ++ [k] := by
  induction l with
  | nil => simp [assign]
  | cons e rest ih =>
    rcases e with ⟨l, w⟩
    by_cases h : l = k
    · subst h
      simp [assign]
    · simp only [assign, if_neg h, List.map_cons, ih, List.mem_cons]
      by_cases hk : k ∈ rest.map Prod.fst
      · rw [if_pos hk, if_pos (Or.inr hk)]
      · rw [if_neg hk, if_neg (by simp [Ne.symm h, hk])]
        rfl

theorem assign_nodup [DecidableEq κ] (k : κ) (v : α) {l : List (κ × α)}
    (h : (l.map Prod.fst).Nodup) : ((assign k v l).map Prod.fst).Nodup := by
  rw [assign_keys]
  split
  · exact h
  · rename_i hk
    exact h.append (List.nodup_singleton k) (by simpa using hk)

/-- The first value stored under `k`. -/
def find [DecidableEq κ] (k : κ) : List (κ × α) → Option α
  | [] => none
  | (l, w) :: rest => if l = k then some w else find k rest

theorem find_assign [DecidableEq κ] (k j : κ) (v : α) (l : List (κ × α)) :
    find j (assign k v l) = if j = k then some v else find j l := by
  induction l with
  | nil => simp [assign, find, eq_comm]
  | cons e rest ih =>
    rcases e with ⟨l, w⟩
    by_cases h : l = k
    · subst h
      by_cases hj : j = l
      · simp [assign, find, hj]
      · simp [assign, find, hj, Ne.symm hj]
    · simp only [assign, if_neg h, find, ih]
      by_cases hlj : l = j
      · subst hlj
        rw [if_pos rfl, if_neg h, if_pos rfl]
      · rw [if_neg hlj, if_neg hlj]

theorem find_map_key [DecidableEq κ] (key : α → κ) (k : κ) (values : List α) :
    find k (values.map fun value => (key value, value)) =
      values.find? fun value => key value == k := by
  induction values with
  | nil => rfl
  | cons value rest ih =>
    by_cases h : key value = k
    · simp [find, h]
    · simp [find, h, ih]

theorem assign_of_not_mem [DecidableEq κ] {k : κ} (v : α) {l : List (κ × α)}
    (h : k ∉ l.map Prod.fst) : assign k v l = l ++ [(k, v)] := by
  induction l with
  | nil => rfl
  | cons e rest ih =>
    rcases e with ⟨l, w⟩
    simp only [List.map_cons, List.mem_cons, not_or] at h
    rw [assign, if_neg (Ne.symm h.1), ih h.2, List.cons_append]

theorem find_eq_none_iff [DecidableEq κ] {k : κ} {l : List (κ × α)} :
    find k l = none ↔ k ∉ l.map Prod.fst := by
  induction l with
  | nil => simp [find]
  | cons e rest ih =>
    rcases e with ⟨l, w⟩
    by_cases h : l = k
    · simp [find, h]
    · simp [find, h, ih, Ne.symm h]

theorem find_filter [DecidableEq κ] {p : κ → α → Bool} (k : κ) {l : List (κ × α)}
    (hl : (l.map Prod.fst).Nodup) :
    find k (l.filter fun e => p e.1 e.2) = (find k l).filter (p k) := by
  induction l with
  | nil => simp [find]
  | cons e rest ih =>
    rcases e with ⟨l, w⟩
    simp only [List.map_cons, List.nodup_cons] at hl
    by_cases h : l = k
    · subst h
      have hrest : find l (rest.filter fun e => p e.1 e.2) = none := by
        rw [ih hl.2, find_eq_none_iff.mpr hl.1, Option.filter_none]
      by_cases hp : p l w
      · simp [hp, find, Option.filter]
      · simp [hp, find, hrest, Option.filter]
    · by_cases hp : p l w
      · simp [hp, find, h, ih hl.2]
      · simp [hp, find, h, ih hl.2]

theorem find_eq_some_iff [DecidableEq κ] {k : κ} {v : α} {l : List (κ × α)}
    (hl : (l.map Prod.fst).Nodup) : find k l = some v ↔ (k, v) ∈ l := by
  induction l with
  | nil => simp [find]
  | cons e rest ih =>
    rcases e with ⟨l, w⟩
    simp only [List.map_cons, List.nodup_cons] at hl
    by_cases h : l = k
    · subst h
      have hnot : (l, v) ∉ rest := fun hm => hl.1 (List.mem_map_of_mem hm)
      simp [find, hnot, eq_comm]
    · simp [find, h, ih hl.2, Ne.symm h]

theorem filter_flatMap_find [DecidableEq κ] {f : α → List β} {p : β → Bool} (k : κ)
    {l : List (κ × α)} (hl : (l.map Prod.fst).Nodup)
    (hp : ∀ e ∈ l, ∀ b ∈ f e.2, p b = decide (e.1 = k)) :
    ((l.map Prod.snd).flatMap f).filter p = (find k l).elim [] f := by
  induction l with
  | nil => rfl
  | cons e rest ih =>
    rcases e with ⟨j, v⟩
    simp only [List.map_cons, List.nodup_cons] at hl
    have hfirst := hp (j, v) List.mem_cons_self
    have hrest := ih hl.2 fun e he => hp e (List.mem_cons_of_mem _ he)
    rw [List.map_cons, List.flatMap_cons, List.filter_append, hrest]
    by_cases hj : j = k
    · subst hj
      have hnone : find j rest = none := find_eq_none_iff.mpr hl.1
      have hall : (f v).filter p = f v := List.filter_eq_self.mpr fun b hb => by simp [hfirst b hb]
      rw [hnone, hall, find, if_pos rfl]
      exact List.append_nil _
    · have hno : (f v).filter p = [] := List.filter_eq_nil_iff.mpr fun b hb => by
        simp [hfirst b hb, hj]
      rw [hno, find, if_neg hj]
      rfl

/-! ## Operations -/

/-- The entries that satisfy `p`, in their order. -/
def filter (d : Dict κ α) (p : κ → α → Bool) : Dict κ α :=
  ⟨d.entries.filter fun e => p e.1 e.2, d.nodup.sublist (List.filter_sublist.map _)⟩

theorem filter_filter_self (d : Dict κ α) (p : κ → α → Bool) :
    (d.filter p).filter p = d.filter p := by
  apply ext
  simp only [filter, List.filter_filter, Bool.and_self]

/-- The dictionary of the images of the values. -/
def map (d : Dict κ α) (f : α → β) : Dict κ β :=
  ⟨d.entries.map fun e => (e.1, f e.2), by
    rw [List.map_map]
    exact d.nodup⟩

section Operations

variable [DecidableEq κ]

def get? (d : Dict κ α) (k : κ) : Option α := find k d.entries

def set (d : Dict κ α) (k : κ) (v : α) : Dict κ α := ⟨assign k v d.entries, assign_nodup k v d.nodup⟩

def erase (d : Dict κ α) (k : κ) : Dict κ α := d.filter fun l _ => l ≠ k

/-- `previous ? (d[k] = previous) : delete d[k]`, the restoring half of a rollback. -/
def restore (d : Dict κ α) (k : κ) (previous : Option α) : Dict κ α :=
  match previous with
  | some v => d.set k v
  | none => d.erase k

@[simp] theorem get?_empty (k : κ) : (empty : Dict κ α).get? k = none := rfl

@[simp] theorem get?_set_self (d : Dict κ α) (k : κ) (v : α) : (d.set k v).get? k = some v := by
  simp [get?, set, find_assign]

theorem get?_set (d : Dict κ α) (k j : κ) (v : α) :
    (d.set k v).get? j = if j = k then some v else d.get? j :=
  find_assign k j v d.entries

theorem get?_set_of_ne (d : Dict κ α) {k j : κ} (v : α) (h : j ≠ k) :
    (d.set k v).get? j = d.get? j := by
  rw [get?_set, if_neg h]

theorem get?_filter (d : Dict κ α) (p : κ → α → Bool) (k : κ) :
    (d.filter p).get? k = (d.get? k).filter (p k) :=
  find_filter k d.nodup

theorem get?_map (d : Dict κ α) (f : α → β) (k : κ) : (d.map f).get? k = (d.get? k).map f := by
  unfold get? map
  dsimp only
  induction d.entries with
  | nil => rfl
  | cons entry rest ih =>
    rcases entry with ⟨l, w⟩
    by_cases h : l = k
    · simp [find, h]
    · simp [find, h, ih]

@[simp] theorem get?_erase_self (d : Dict κ α) (k : κ) : (d.erase k).get? k = none := by
  simp [erase, get?_filter]

theorem get?_erase_of_ne (d : Dict κ α) {k j : κ} (h : j ≠ k) : (d.erase k).get? j = d.get? j := by
  rw [erase, get?_filter]
  cases d.get? j with
  | none => rfl
  | some v => simp [Option.filter, h]

variable {d : Dict κ α}

theorem get?_of_erase {k j : κ} {v : α} (h : (d.erase k).get? j = some v) :
    d.get? j = some v := by
  by_cases hkey : j = k
  · rw [hkey, get?_erase_self] at h
    cases h
  · rw [get?_erase_of_ne d hkey] at h
    exact h

variable {k : κ}

theorem erase_of_none (h : d.get? k = none) : d.erase k = d := by
  apply ext
  apply List.filter_eq_self.mpr
  rintro ⟨key, value⟩ hentry
  rw [decide_eq_true_eq]
  rintro rfl
  exact find_eq_none_iff.mp h (List.mem_map_of_mem hentry)

theorem get?_eq_some_iff {v : α} : d.get? k = some v ↔ (k, v) ∈ d.entries :=
  find_eq_some_iff d.nodup

theorem get?_eq_none_iff : d.get? k = none ↔ k ∉ d.keys :=
  find_eq_none_iff

theorem isSome_get?_iff : (d.get? k).isSome ↔ k ∈ d.keys := by
  rw [Option.isSome_iff_ne_none, ne_eq, get?_eq_none_iff, not_not]

theorem mem_values_of_get? {v : α} (h : d.get? k = some v) :
    v ∈ d.values :=
  List.mem_map_of_mem (f := Prod.snd) (get?_eq_some_iff.mp h)

theorem get?_restore (d : Dict κ α) (k j : κ) (previous : Option α) :
    (d.restore k previous).get? j = if j = k then previous else d.get? j := by
  unfold restore
  by_cases h : j = k
  · subst h
    cases previous <;> simp
  · rw [if_neg h]
    cases previous with
    | none => exact get?_erase_of_ne d h
    | some v => exact get?_set_of_ne d v h

theorem keys_set (d : Dict κ α) (k : κ) (v : α) :
    (d.set k v).keys = if k ∈ d.keys then d.keys else d.keys ++ [k] :=
  assign_keys k v d.entries

theorem size_set (d : Dict κ α) (k : κ) (v : α) :
    (d.set k v).size = if (d.get? k).isSome then d.size else d.size + 1 := by
  simp only [size_eq_length_keys, keys_set, isSome_get?_iff]
  split <;> simp

theorem set_get? {v : α} (h : d.get? k = some v) : d.set k v = d := by
  apply ext
  have hmem := get?_eq_some_iff.mp h
  have aux : ∀ l : List (κ × α), (l.map Prod.fst).Nodup → (k, v) ∈ l → assign k v l = l := by
    intro l
    induction l with
    | nil => intro _ hm; cases hm
    | cons e rest ih =>
      rcases e with ⟨l, w⟩
      intro hn hm
      simp only [List.map_cons, List.nodup_cons] at hn
      by_cases hl : l = k
      · subst hl
        rcases List.mem_cons.mp hm with he | hr
        · rw [assign, if_pos rfl, he]
        · exact absurd (List.mem_map_of_mem (f := Prod.fst) hr) hn.1
      · rw [assign, if_neg hl, ih hn.2]
        rcases List.mem_cons.mp hm with he | hr
        · exact absurd (congrArg Prod.fst he).symm hl
        · exact hr
  exact aux d.entries d.nodup hmem

theorem assign_assign (k : κ) (v w : α) (l : List (κ × α)) :
    assign k w (assign k v l) = assign k w l := by
  induction l with
  | nil => simp [assign]
  | cons e rest ih =>
    rcases e with ⟨l, x⟩
    by_cases h : l = k
    · subst h
      simp [assign]
    · simp only [assign, if_neg h, ih]

theorem entries_set_of_none (v : α) (h : d.get? k = none) :
    (d.set k v).entries = d.entries ++ [(k, v)] :=
  assign_of_not_mem v (get?_eq_none_iff.mp h)

theorem set_set (d : Dict κ α) (k : κ) (v w : α) : (d.set k v).set k w = d.set k w :=
  ext (assign_assign k v w d.entries)

theorem filter_assign_of_not_mem (v : α) {l : List (κ × α)}
    (h : k ∉ l.map Prod.fst) : (assign k v l).filter (fun e => decide (e.1 ≠ k)) = l := by
  induction l with
  | nil => simp [assign]
  | cons e rest ih =>
    rcases e with ⟨l, x⟩
    simp only [List.map_cons, List.mem_cons, not_or] at h
    have hl : l ≠ k := fun he => h.1 he.symm
    simp only [assign, if_neg hl, List.filter_cons, ih h.2]
    rw [if_pos (by simpa using hl)]

theorem restore_set (d : Dict κ α) (k : κ) (v : α) : (d.set k v).restore k (d.get? k) = d := by
  cases h : d.get? k with
  | some w =>
    apply ext
    change assign k w (assign k v d.entries) = d.entries
    rw [assign_assign]
    exact congrArg entries (set_get? h)
  | none =>
    apply ext
    exact filter_assign_of_not_mem v (get?_eq_none_iff.mp h)

theorem restore_get? (d : Dict κ α) (k : κ) : d.restore k (d.get? k) = d := by
  cases h : d.get? k with
  | some w => exact set_get? h
  | none =>
    apply ext
    have hk := get?_eq_none_iff.mp h
    apply List.filter_eq_self.mpr
    intro e he
    have hne : e.1 ≠ k := fun hk' => hk (hk' ▸ List.mem_map_of_mem (f := Prod.fst) he)
    simpa using hne

/-! ## Totals -/

/-- The sum of a measure over the values. -/
def total (d : Dict κ α) (f : α → Nat) : Nat := (d.entries.map fun entry => f entry.2).sum

theorem sum_assign (k : κ) (v : α) (f : α → Nat) (l : List (κ × α)) :
    ((assign k v l).map fun entry => f entry.2).sum + ((find k l).elim 0 f) =
      (l.map fun entry => f entry.2).sum + f v := by
  induction l with
  | nil => simp [assign, find]
  | cons e rest ih =>
    rcases e with ⟨l, w⟩
    by_cases h : l = k
    · subst h
      simp only [assign, find, if_true, List.map_cons, List.sum_cons, Option.elim_some]
      omega
    · simp only [assign, find, if_neg h, List.map_cons, List.sum_cons]
      omega

theorem total_set (d : Dict κ α) (k : κ) (v : α) (f : α → Nat) :
    (d.set k v).total f + (d.get? k).elim 0 f = d.total f + f v :=
  sum_assign k v f d.entries

theorem size_erase_le (d : Dict κ α) (k : κ) : (d.erase k).size ≤ d.size := List.length_filter_le _ _

theorem sum_filter_ne (k : κ) (f : α → Nat) {l : List (κ × α)} (hl : (l.map Prod.fst).Nodup) :
    ((l.filter fun entry => decide (entry.1 ≠ k)).map fun entry => f entry.2).sum +
        (find k l).elim 0 f = (l.map fun entry => f entry.2).sum := by
  induction l with
  | nil => rfl
  | cons entry rest ih =>
    rcases entry with ⟨key, value⟩
    simp only [List.map_cons, List.nodup_cons] at hl
    by_cases h : key = k
    · subst h
      have hnone : find key rest = none := find_eq_none_iff.mpr hl.1
      have hrest := ih hl.2
      rw [hnone] at hrest
      simp only [find, if_true, Option.elim_some, Option.elim_none, List.filter_cons, ne_eq,
        not_true_eq_false, decide_false, Bool.false_eq_true, if_false, List.map_cons,
        List.sum_cons] at hrest ⊢
      omega
    · have hrest := ih hl.2
      simp only [find, h, if_false, List.filter_cons, ne_eq, not_false_eq_true, decide_true,
        if_true, List.map_cons, List.sum_cons] at hrest ⊢
      omega

theorem total_erase (d : Dict κ α) (k : κ) (f : α → Nat) :
    (d.erase k).total f + (d.get? k).elim 0 f = d.total f :=
  sum_filter_ne k f d.nodup

theorem total_erase_le (d : Dict κ α) (k : κ) (f : α → Nat) : (d.erase k).total f ≤ d.total f := by
  have hsub : List.Sublist (d.erase k).entries d.entries := List.filter_sublist
  exact (hsub.map fun entry => f entry.2).sum_le_sum fun _ _ => Nat.zero_le _

end Operations

end Dict

end HarnessControl.Library
