import Mathlib.Data.List.Induction

/-!
# Fields joined by a mark

The fields at the end of a joined text that do not hold the mark can be told apart from what stands
before them.
-/

namespace HarnessControl.Library

variable {α : Type*}

/-- `fields.join(mark)` -/
def joined (mark : α) : List (List α) → List α
  | [] => []
  | [field] => field
  | field :: next :: rest => field ++ mark :: joined mark (next :: rest)

theorem joined_cons (mark : α) (field : List α) {rest : List (List α)} (h : rest ≠ []) :
    joined mark (field :: rest) = field ++ mark :: joined mark rest := by
  cases rest with
  | nil => exact absurd rfl h
  | cons next rest => rfl

theorem joined_append (mark : α) {fields rest : List (List α)} (hfields : fields ≠ [])
    (hrest : rest ≠ []) :
    joined mark (fields ++ rest) = joined mark fields ++ mark :: joined mark rest := by
  induction fields with
  | nil => exact absurd rfl hfields
  | cons field others ih =>
    by_cases hothers : others = []
    · subst hothers
      exact joined_cons mark field hrest
    · rw [List.cons_append, joined_cons mark field (List.append_ne_nil_of_left_ne_nil hothers _),
        ih hothers, joined_cons mark field hothers, List.append_assoc, List.cons_append]

theorem first_field {mark : α} {x y t u : List α} (hx : mark ∉ x) (hy : mark ∉ y)
    (h : x ++ mark :: t = y ++ mark :: u) : x = y ∧ t = u := by
  induction x generalizing y with
  | nil =>
    cases y with
    | nil => exact ⟨rfl, (List.cons.inj h).2⟩
    | cons d y => exact absurd ((List.cons.inj h).1 ▸ List.mem_cons_self) hy
  | cons c x ih =>
    cases y with
    | nil => exact absurd ((List.cons.inj h).1 ▸ List.mem_cons_self) hx
    | cons d y =>
      obtain ⟨rfl, htail⟩ := List.cons.inj h
      obtain ⟨rfl, rfl⟩ := ih (fun hmem => hx (List.mem_cons_of_mem _ hmem))
        (fun hmem => hy (List.mem_cons_of_mem _ hmem)) htail
      exact ⟨rfl, rfl⟩

theorem last_field {mark : α} {x y t u : List α} (ht : mark ∉ t) (hu : mark ∉ u)
    (h : x ++ mark :: t = y ++ mark :: u) : x = y ∧ t = u := by
  have hreverse := congrArg List.reverse h
  rw [List.reverse_append, List.reverse_append, List.reverse_cons, List.reverse_cons,
    List.append_assoc, List.append_assoc] at hreverse
  obtain ⟨hlast, hfront⟩ := first_field (mt List.mem_reverse.mp ht) (mt List.mem_reverse.mp hu)
    hreverse
  exact ⟨List.reverse_inj.mp hfront, List.reverse_inj.mp hlast⟩

theorem joined_suffix {mark : α} {fields others rest more : List (List α)} (hfields : fields ≠ [])
    (hothers : others ≠ []) (hlength : rest.length = more.length)
    (hrest : ∀ field ∈ rest, mark ∉ field) (hmore : ∀ field ∈ more, mark ∉ field)
    (h : joined mark (fields ++ rest) = joined mark (others ++ more)) :
    joined mark fields = joined mark others ∧ rest = more := by
  induction rest using List.reverseRecOn generalizing more with
  | nil =>
    rw [List.eq_nil_of_length_eq_zero hlength.symm, List.append_nil, List.append_nil] at h
    exact ⟨h, (List.eq_nil_of_length_eq_zero hlength.symm).symm⟩
  | append_singleton rest field ih =>
    obtain rfl | ⟨more, last, rfl⟩ := List.eq_nil_or_concat more
    · rw [List.length_append, List.length_singleton, List.length_nil] at hlength
      omega
    · rw [List.concat_eq_append] at hlength hmore h ⊢
      rw [← List.append_assoc, ← List.append_assoc,
        joined_append mark (List.append_ne_nil_of_left_ne_nil hfields _) (List.cons_ne_nil _ _),
        joined_append mark (List.append_ne_nil_of_left_ne_nil hothers _) (List.cons_ne_nil _ _)]
        at h
      rw [List.forall_mem_append] at hrest hmore
      obtain ⟨hfront, rfl⟩ := last_field (hrest.2 field List.mem_cons_self)
        (hmore.2 last List.mem_cons_self) h
      rw [List.length_append, List.length_append, Nat.add_right_cancel_iff] at hlength
      obtain ⟨hjoined, rfl⟩ := ih hlength hrest.1 hmore.1 hfront
      exact ⟨hjoined, rfl⟩

end HarnessControl.Library
