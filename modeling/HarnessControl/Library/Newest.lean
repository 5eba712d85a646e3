import Mathlib

/-!
# The newest item of a stream

Items carry a time.  A summary keeps the newest item and, beside it, the last item of a kind among
those that were newest when they came; an item that is not newer than the summary is dropped.  The
newest item does not depend on the order in which the items come, the one of the kind does.
-/

namespace HarnessControl.Library

variable {α τ : Type*} [LinearOrder τ]

structure Summary (α : Type*) where
  latest : α
  /-- The last item of the kind that was not dropped. -/
  last : Option α

/-- An item comes; what is not newer than the summary is dropped. -/
def Summary.observe (time : α → τ) (kind : α → Bool) (summary : Option (Summary α)) (item : α) :
    Option (Summary α) :=
  match summary with
  | none => some ⟨item, if kind item then some item else none⟩
  | some summary =>
    if time item ≤ time summary.latest then some summary
    else some ⟨item, if kind item then some item else summary.last⟩

def summarize (time : α → τ) (kind : α → Bool) (items : List α) : Option (Summary α) :=
  items.foldl (Summary.observe time kind) none

/-- The item was newer than all that came before it. -/
def Leads (time : α → τ) (items : List α) (item : α) : Prop :=
  ∃ before after, items = before ++ item :: after ∧ ∀ earlier ∈ before, time earlier < time item

/-- The item is the newest of those with the property. -/
def NewestOf (time : α → τ) (P : α → Prop) (item : α) : Prop :=
  P item ∧ ∀ other, P other → time other ≤ time item

variable {time : α → τ} {kind : α → Bool} {items : List α} {item other : α}

theorem summarize_concat (items : List α) (item : α) :
    summarize time kind (items ++ [item]) =
      Summary.observe time kind (summarize time kind items) item := by
  unfold summarize
  rw [List.foldl_append]
  rfl

theorem Leads.mem (h : Leads time items item) : item ∈ items := by
  rcases h with ⟨before, after, rfl, -⟩
  exact List.mem_append_right before List.mem_cons_self

/-- An item leads once more comes if it led before, or is what comes and newer than all before. -/
theorem leads_concat :
    Leads time (items ++ [other]) item ↔
      Leads time items item ∨ item = other ∧ ∀ earlier ∈ items, time earlier < time other := by
  constructor
  · rintro ⟨before, after, heq, hbefore⟩
    rcases List.eq_nil_or_concat after with rfl | ⟨rest, last, rfl⟩
    · have hsplit := List.append_inj' heq rfl
      rcases hsplit with ⟨rfl, hlast⟩
      cases hlast
      exact Or.inr ⟨rfl, hbefore⟩
    · rw [List.concat_eq_append, ← List.cons_append, ← List.append_assoc] at heq
      have hsplit := List.append_inj' heq rfl
      exact Or.inl ⟨before, rest, hsplit.1, hbefore⟩
  · rintro (⟨before, after, rfl, hbefore⟩ | ⟨rfl, hnewer⟩)
    · exact ⟨before, after ++ [other], by simp, hbefore⟩
    · exact ⟨items, [], rfl, hnewer⟩

/-- What a summary says of the items that came. -/
structure Summarizes (time : α → τ) (kind : α → Bool) (items : List α) (summary : Summary α) :
    Prop where
  latest : NewestOf time (· ∈ items) summary.latest
  leads : Leads time items summary.latest
  last : ∀ item, summary.last = some item →
    NewestOf time (fun other => kind other = true ∧ Leads time items other) item
  missed : summary.last = none → ∀ item, Leads time items item → kind item = false

theorem Summarizes.first (item : α) :
    Summarizes time kind [item] ⟨item, if kind item then some item else none⟩ := by
  have honly : ∀ other, Leads time [item] other → other = item :=
    fun other h => List.mem_singleton.mp h.mem
  have hleads : Leads time [item] item := ⟨[], [], rfl, fun _ h => nomatch h⟩
  constructor
  · refine ⟨List.mem_singleton_self item, fun other hother => ?_⟩
    rw [List.mem_singleton.mp hother]
  · exact hleads
  · intro other hother
    dsimp only at hother
    split at hother
    · rename_i hkind
      cases hother
      exact ⟨⟨hkind, hleads⟩, fun other h => (honly other h.2).symm ▸ le_refl (time item)⟩
    · cases hother
  · intro hnone other hother
    dsimp only at hnone
    split at hnone
    · cases hnone
    · rename_i hkind
      rw [honly other hother]
      exact Bool.not_eq_true _ ▸ hkind

theorem Summarizes.drop {summary : Summary α} (h : Summarizes time kind items summary)
    (hold : time item ≤ time summary.latest) :
    Summarizes time kind (items ++ [item]) summary := by
  have hleads : ∀ other, Leads time (items ++ [item]) other ↔ Leads time items other := by
    intro other
    rw [leads_concat]
    constructor
    · rintro (hother | ⟨rfl, hnewer⟩)
      · exact hother
      · exact absurd hold (not_le.mpr (hnewer summary.latest h.latest.1))
    · exact Or.inl
  constructor
  · refine ⟨List.mem_append_left _ h.latest.1, fun other hother => ?_⟩
    rcases List.mem_append.mp hother with hbefore | hlast
    · exact h.latest.2 other hbefore
    · rw [List.mem_singleton.mp hlast]
      exact hold
  · exact (hleads _).mpr h.leads
  · intro last hlast
    have hnewest := h.last last hlast
    refine ⟨⟨hnewest.1.1, (hleads last).mpr hnewest.1.2⟩, fun other hother => ?_⟩
    exact hnewest.2 other ⟨hother.1, (hleads other).mp hother.2⟩
  · intro hnone other hother
    exact h.missed hnone other ((hleads other).mp hother)

theorem Summarizes.advance {summary : Summary α} (h : Summarizes time kind items summary)
    (hnew : time summary.latest < time item) :
    Summarizes time kind (items ++ [item])
      ⟨item, if kind item then some item else summary.last⟩ := by
  have hnewer : ∀ earlier ∈ items, time earlier < time item :=
    fun earlier hearlier => lt_of_le_of_lt (h.latest.2 earlier hearlier) hnew
  have hleads : Leads time (items ++ [item]) item := leads_concat.mpr (Or.inr ⟨rfl, hnewer⟩)
  constructor
  · refine ⟨hleads.mem, fun other hother => ?_⟩
    rcases List.mem_append.mp hother with hbefore | hlast
    · exact le_of_lt (hnewer other hbefore)
    · rw [List.mem_singleton.mp hlast]
  · exact hleads
  · intro last hlast
    dsimp only at hlast
    split at hlast
    · rename_i hkind
      cases hlast
      refine ⟨⟨hkind, hleads⟩, fun other hother => ?_⟩
      rcases leads_concat.mp hother.2 with hbefore | ⟨rfl, -⟩
      · exact le_of_lt (hnewer other hbefore.mem)
      · exact le_refl _
    · rename_i hkind
      have hnewest := h.last last hlast
      refine ⟨⟨hnewest.1.1, leads_concat.mpr (Or.inl hnewest.1.2)⟩, fun other hother => ?_⟩
      rcases leads_concat.mp hother.2 with hbefore | ⟨rfl, -⟩
      · exact hnewest.2 other ⟨hother.1, hbefore⟩
      · exact absurd hother.1 hkind
  · intro hnone other hother
    dsimp only at hnone
    split at hnone
    · cases hnone
    · rename_i hkind
      rcases leads_concat.mp hother with hbefore | ⟨rfl, -⟩
      · exact h.missed hnone other hbefore
      · exact Bool.not_eq_true _ ▸ hkind

theorem summarize_cases (time : α → τ) (kind : α → Bool) (items : List α) :
    (items = [] ∧ summarize time kind items = none) ∨
    ∃ summary, summarize time kind items = some summary ∧ Summarizes time kind items summary := by
  induction items using List.reverseRecOn with
  | nil => exact Or.inl ⟨rfl, rfl⟩
  | append_singleton items item ih =>
    right
    rw [summarize_concat]
    rcases ih with ⟨rfl, hnone⟩ | ⟨summary, hsome, hsummary⟩
    · rw [hnone]
      exact ⟨_, rfl, Summarizes.first item⟩
    · rw [hsome]
      unfold Summary.observe
      dsimp only
      split
      · rename_i hold
        exact ⟨_, rfl, hsummary.drop hold⟩
      · rename_i hnew
        exact ⟨_, rfl, hsummary.advance (not_le.mp hnew)⟩

/-- Items with one time are one item. -/
def TimesDiffer (time : α → τ) (items : List α) : Prop :=
  ∀ item ∈ items, ∀ other ∈ items, time item = time other → item = other

theorem NewestOf.unique {P : α → Prop} (hitem : NewestOf time P item)
    (hother : NewestOf time P other) (hdiffer : TimesDiffer time items) (hP : ∀ a, P a → a ∈ items) :
    item = other :=
  hdiffer item (hP item hitem.1) other (hP other hother.1)
    (le_antisymm (hother.2 item hitem.1) (hitem.2 other hother.1))

theorem Summarizes.last_eq_some_iff {summary : Summary α}
    (h : Summarizes time kind items summary) (hdiffer : TimesDiffer time items)
    (hitem : NewestOf time (fun other => kind other = true ∧ other ∈ items) item) :
    summary.last = some item ↔ Leads time items item := by
  constructor
  · intro hlast
    exact (h.last item hlast).1.2
  · intro hleads
    cases hlast : summary.last with
    | none =>
      have hkind := h.missed hlast item hleads
      rw [hitem.1.1] at hkind
      cases hkind
    | some last =>
      have hnewest := h.last last hlast
      have hitem' : NewestOf time (fun other => kind other = true ∧ Leads time items other) item :=
        ⟨⟨hitem.1.1, hleads⟩, fun other hother => hitem.2 other ⟨hother.1, hother.2.mem⟩⟩
      rw [hnewest.unique hitem' hdiffer fun other hother => hother.2.mem]

end HarnessControl.Library
