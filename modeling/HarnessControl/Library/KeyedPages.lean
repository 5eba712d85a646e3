import HarnessControl.Library.Paging
import Mathlib.Data.List.Sort

/-!
# Pages after a key

Values with distinct keys, handed out in the order of the keys.  The key of the last value that was
handed out says where the next page begins.
-/

namespace HarnessControl.Library

variable {α β κ : Type*} [LinearOrder κ] (key : α → κ)

def Ascending (list : List α) : Prop := list.Pairwise fun a b => key a < key b

/-- What comes after a key. -/
def after (cursor : Option κ) (list : List α) : List α :=
  list.filter fun a => cursor.all fun reached => decide (reached < key a)

def sortByKey (list : List α) : List α := list.mergeSort fun a b => decide (key a ≤ key b)

variable {key}

variable {list : List α}

theorem mem_after {cursor : Option κ} {a : α} :
    a ∈ after key cursor list ↔ a ∈ list ∧ ∀ reached, cursor = some reached → reached < key a := by
  unfold after
  rw [List.mem_filter]
  cases cursor <;> simp

theorem after_none (list : List α) : after key none list = list := List.filter_true list

theorem mem_sortByKey {a : α} : a ∈ sortByKey key list ↔ a ∈ list :=
  List.mem_mergeSort

theorem Ascending.after (h : Ascending key list) (cursor : Option κ) :
    Ascending key (after key cursor list) := List.Pairwise.filter _ h

theorem sortByKey_ascending (h : (list.map key).Nodup) :
    Ascending key (sortByKey key list) := by
  have hsorted := @List.pairwise_mergeSort _ (fun a b => decide (key a ≤ key b))
    (fun a b c hab hbc => decide_eq_true (le_trans (of_decide_eq_true hab) (of_decide_eq_true hbc)))
    (fun a b => by
      rw [Bool.or_eq_true, decide_eq_true_iff, decide_eq_true_iff]
      exact le_total _ _) list
  have hdistinct : ((sortByKey key list).map key).Nodup :=
    ((List.mergeSort_perm list _).map key).nodup_iff.mpr h
  apply List.Pairwise.imp_of_mem _ (hsorted.and (List.pairwise_map.mp hdistinct))
  intro a b _ _ hab
  exact lt_of_le_of_ne (of_decide_eq_true hab.1) hab.2

theorem Ascending.eq_of_mem_iff {first second : List α} (hfirst : Ascending key first)
    (hsecond : Ascending key second) (h : ∀ a, a ∈ first ↔ a ∈ second) : first = second := by
  have : Std.Antisymm fun a b => key a < key b := ⟨fun a b hab hba => absurd hab (lt_asymm hba)⟩
  have : Std.Irrefl fun a b => key a < key b := ⟨fun a => lt_irrefl (key a)⟩
  exact List.Pairwise.eq_of_mem_iff hfirst hsecond h

theorem sortByKey_after (h : (list.map key).Nodup) (cursor : Option κ) :
    sortByKey key (after key cursor list) = after key cursor (sortByKey key list) := by
  have hpicked : ((after key cursor list).map key).Nodup :=
    h.sublist (List.filter_sublist.map key)
  apply (sortByKey_ascending hpicked).eq_of_mem_iff ((sortByKey_ascending h).after cursor)
  intro a
  rw [mem_sortByKey, mem_after, mem_after, mem_sortByKey]

theorem Ascending.after_append_cons {first rest : List α} {a : α}
    (h : Ascending key (first ++ a :: rest)) :
    Library.after key (some (key a)) (first ++ a :: rest) = rest := by
  obtain ⟨_, hcons, hbefore⟩ := List.pairwise_append.mp h
  obtain ⟨hrest, _⟩ := List.pairwise_cons.mp hcons
  unfold Library.after
  rw [List.filter_append, List.filter_eq_nil_iff.mpr, List.nil_append,
    List.filter_cons_of_neg (by simp), List.filter_eq_self]
  · intro b hb
    exact decide_eq_true (hrest b hb)
  · intro b hb hlater
    exact lt_asymm (of_decide_eq_true hlater) (hbefore b hb a List.mem_cons_self)

/-- Of what comes after a key, what comes after a later one is all that comes after that. -/
theorem after_after {cursor : Option κ} {later : κ}
    (h : ∀ reached, cursor = some reached → reached < later) :
    after key (some later) (after key cursor list) = after key (some later) list := by
  unfold after
  rw [List.filter_filter]
  apply List.filter_congr
  intro a _
  rw [Bool.and_eq_left_iff_imp]
  intro hlater
  cases cursor with
  | none => rfl
  | some reached => exact decide_eq_true ((h reached rfl).trans (of_decide_eq_true hlater))

theorem after_filterMap {other : β → κ} {f : α → Option β}
    (h : ∀ a b, f a = some b → other b = key a) (cursor : Option κ) (list : List α) :
    (after key cursor list).filterMap f = after other cursor (list.filterMap f) := by
  unfold after
  induction list with
  | nil => rfl
  | cons a rest ih =>
    rw [List.filter_cons]
    cases hmade : f a with
    | none =>
      rw [List.filterMap_cons_none hmade, ← ih]
      split
      · rw [List.filterMap_cons_none hmade]
      · rfl
    | some b =>
      rw [List.filterMap_cons_some hmade, List.filter_cons, h a b hmade, ← ih]
      split
      · rw [List.filterMap_cons_some hmade]
      · rfl

theorem Ascending.filterMap {other : β → κ} {f : α → Option β}
    (h : Ascending key list) (hkeys : ∀ a b, f a = some b → other b = key a) :
    Ascending other (list.filterMap f) := by
  apply List.Pairwise.filterMap _ _ h
  intro a a' hlt b hb b' hb'
  rw [hkeys a b hb, hkeys a' b' hb']
  exact hlt

/-! ## Following the pages -/

variable (key) in
/-- The key of the last value of a page. -/
def lastKey (list : List α) : Option κ := list.getLast?.map key

theorem Ascending.after_lastKey {first rest : List α} (h : Ascending key (first ++ rest))
    (hfirst : first ≠ []) : Library.after key (lastKey key first) (first ++ rest) = rest := by
  obtain ⟨before, last, rfl⟩ := (List.eq_nil_or_concat first).resolve_left hfirst
  rw [List.concat_eq_append] at h ⊢
  unfold lastKey
  rw [List.getLast?_concat, Option.map_some]
  rw [List.append_assoc, List.singleton_append] at h ⊢
  exact h.after_append_cons

end HarnessControl.Library
