import Mathlib.Data.List.Sort

/-!
# Stable sorting

A merge sort only compares an element with later ones, so a comparison that is no order on all
elements sorts like an order that it agrees with on the pairs of the list.  What already stands in
order keeps its order.
-/

namespace HarnessControl.Library

variable {α : Type*} {le other : α → α → Bool}

theorem merge_congr {left right : List α} (h : ∀ a ∈ left, ∀ b ∈ right, le a b = other a b) :
    left.merge right le = left.merge right other := by
  induction left generalizing right with
  | nil => simp
  | cons a left ihl =>
    induction right with
    | nil => simp
    | cons b right ihr =>
      have hab := h a List.mem_cons_self b List.mem_cons_self
      have hleft := ihl fun c hc d hd => h c (List.mem_cons_of_mem a hc) d hd
      have hright := ihr fun c hc d hd => h c hc d (List.mem_cons_of_mem b hd)
      rw [List.cons_merge_cons, List.cons_merge_cons, hab, hleft, hright]

theorem mergeSort_congr (other : α → α → Bool) :
    (list : List α) → (list.Pairwise fun a b => le a b = other a b) →
    list.mergeSort le = list.mergeSort other
  | [], _ => by simp
  | [a], _ => by simp
  | a :: b :: rest, h => by
    rw [List.mergeSort, List.mergeSort]
    simp only [List.MergeSort.Internal.splitInTwo_fst, List.MergeSort.Internal.splitInTwo_snd]
    -- the first half stands before the second
    have hsplit := h
    rw [← List.take_append_drop (((a :: b :: rest).length + 1) / 2) (a :: b :: rest),
      List.pairwise_append] at hsplit
    rw [mergeSort_congr other _ hsplit.1, mergeSort_congr other _ hsplit.2.1]
    apply merge_congr
    intro c hc d hd
    exact hsplit.2.2 c (List.mem_mergeSort.mp hc) d (List.mem_mergeSort.mp hd)
termination_by list => list.length
decreasing_by
  all_goals
    simp only [List.length_take, List.length_drop, List.length_cons]
    omega

theorem filter_mergeSort {list : List α} (p : α → Bool)
    (htrans : ∀ a b c, le a b = true → le b c = true → le a c = true)
    (htotal : ∀ a b, (le a b || le b a) = true)
    (h : (list.filter p).Pairwise fun a b => le a b = true) :
    (list.mergeSort le).filter p = list.filter p := by
  have hsublist := List.sublist_mergeSort htrans htotal h List.filter_sublist
  have hkept := hsublist.filter p
  simp only [List.filter_filter, Bool.and_self] at hkept
  symm
  apply hkept.eq_of_length
  exact ((List.mergeSort_perm list le).filter p).length_eq.symm

/-! ## Ties -/

/-- The comparison does not tell the elements apart. -/
def tied (le : α → α → Bool) (a b : α) : Bool := le a b && le b a

section Ties

variable (htrans : ∀ a b c, le a b = true → le b c = true → le a c = true)

include htrans in
theorem tied_trans {a b c : α} (h : tied le a b = true) (h' : tied le a c = true) :
    le b c = true := by
  unfold tied at h h'
  rw [Bool.and_eq_true] at h h'
  exact htrans b a c h.2 h'.1

variable (htotal : ∀ a b, (le a b || le b a) = true)

include htrans htotal in
theorem filter_tied_mergeSort (a : α) (list : List α) :
    (list.mergeSort le).filter (tied le a) = list.filter (tied le a) := by
  apply filter_mergeSort _ htrans htotal
  rw [List.pairwise_filter]
  apply List.pairwise_of_forall
  intro b c hb hc
  exact tied_trans htrans hb hc

/-- Sorted lists of the same elements are the same where tied elements stand in the same order. -/
theorem sorted_unique {first second : List α} (hfirst : first.Pairwise fun a b => le a b = true)
    (hsecond : second.Pairwise fun a b => le a b = true) (hperm : first.Perm second)
    (hrefl : ∀ a, le a a = true)
    (hties : ∀ a ∈ first, first.filter (tied le a) = second.filter (tied le a)) :
    first = second := by
  induction first generalizing second with
  | nil => exact hperm.nil_eq
  | cons a first ih =>
    cases second with
    | nil => exact absurd hperm.symm.nil_eq nofun
    | cons b second =>
      -- each of the two heads is a least element
      have hab : le a b = true := by
        obtain heq | hin := List.mem_cons.mp (hperm.symm.subset List.mem_cons_self)
        · rw [heq]
          exact hrefl a
        · exact List.rel_of_pairwise_cons hfirst hin
      have hba : le b a = true := by
        obtain heq | hin := List.mem_cons.mp (hperm.subset List.mem_cons_self)
        · rw [heq]
          exact hrefl b
        · exact List.rel_of_pairwise_cons hsecond hin
      have hhead := hties a List.mem_cons_self
      rw [List.filter_cons_of_pos (by unfold tied; rw [hrefl a]; rfl),
        List.filter_cons_of_pos (by unfold tied; rw [hab, hba]; rfl)] at hhead
      obtain rfl := (List.cons.inj hhead).1
      have htail : first = second := by
        apply ih hfirst.of_cons hsecond.of_cons (hperm.cons_inv)
        intro c hin
        have hc := hties c (List.mem_cons_of_mem a hin)
        by_cases htied : tied le c a = true
        · rw [List.filter_cons_of_pos htied, List.filter_cons_of_pos htied] at hc
          exact (List.cons.inj hc).2
        · rwa [List.filter_cons_of_neg htied, List.filter_cons_of_neg htied] at hc
      rw [htail]

include htrans htotal in
/-- Lists sort to the same list where they have the same elements, the tied ones in the same order. -/
theorem mergeSort_eq_iff (first second : List α) :
    first.mergeSort le = second.mergeSort le ↔
      first.Perm second ∧ ∀ a ∈ first, first.filter (tied le a) = second.filter (tied le a) := by
  constructor
  · intro heq
    constructor
    · have hperm := (List.mergeSort_perm first le).symm
      rw [heq] at hperm
      exact hperm.trans (List.mergeSort_perm second le)
    · intro a _
      rw [← filter_tied_mergeSort htrans htotal, heq, filter_tied_mergeSort htrans htotal]
  · rintro ⟨hperm, hties⟩
    apply sorted_unique (List.pairwise_mergeSort htrans htotal first)
      (List.pairwise_mergeSort htrans htotal second)
    · exact ((List.mergeSort_perm first le).trans hperm).trans (List.mergeSort_perm second le).symm
    · intro a
      have hself := htotal a a
      rwa [Bool.or_self] at hself
    · intro a hin
      rw [filter_tied_mergeSort htrans htotal, filter_tied_mergeSort htrans htotal]
      exact hties a (List.mem_mergeSort.mp hin)

end Ties

end HarnessControl.Library
