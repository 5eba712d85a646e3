import Mathlib.Data.List.Basic

/-!
# Evidence in versions of a record

A record is replaced version by version, each version with a list of receipts.  A receipt has an
identity and is pending or completed.  `Advances` says what one replacement may do to the receipts,
`Evidence` what holds of all versions together; the first is exactly the step of the second.
-/

namespace HarnessControl.Library

/-- Every element, together with the elements before it, satisfies `P`. -/
def Throughout {α : Type*} (P : List α → α → Prop) (l : List α) : Prop :=
  ∀ i a, l[i]? = some a → P (l.take i) a

theorem Throughout.nil {α : Type*} (P : List α → α → Prop) : Throughout P [] := by
  intro i a h
  rw [List.getElem?_nil] at h
  cases h

theorem throughout_concat {α : Type*} {P : List α → α → Prop} {l : List α} {last : α} :
    Throughout P (l ++ [last]) ↔ Throughout P l ∧ P l last := by
  constructor
  · intro h
    constructor
    · intro i a ha
      have hi := (List.getElem?_eq_some_iff.mp ha).1
      have hstep := h i a (by rw [List.getElem?_append_left hi, ha])
      rwa [List.take_append_of_le_length (Nat.le_of_lt hi)] at hstep
    · have hstep := h l.length last (by rw [List.getElem?_concat_length])
      rwa [List.take_append_of_le_length (Nat.le_refl _), List.take_length] at hstep
  · rintro ⟨h, hlast⟩ i a ha
    by_cases hi : i < l.length
    · rw [List.getElem?_append_left hi] at ha
      rw [List.take_append_of_le_length (Nat.le_of_lt hi)]
      exact h i a ha
    · have hlength := (List.getElem?_eq_some_iff.mp ha).1
      rw [List.length_append, List.length_singleton] at hlength
      have heq : i = l.length := by omega
      subst heq
      rw [List.getElem?_concat_length] at ha
      cases ha
      rw [List.take_append_of_le_length (Nat.le_refl _), List.take_length]
      exact hlast

/-- A receipt is one dispatch, by its identity, and completed or not. -/
structure ReceiptKind (ρ : Type*) (ι : Type*) where
  identity : ρ → ι
  completed : ρ → Bool

namespace ReceiptKind

variable {ρ ι : Type*} (kind : ReceiptKind ρ ι)

/-- Every receipt is still there; it may have been completed, a completed one is the same. -/
def Kept (before after : List ρ) : Prop :=
  ∀ receipt ∈ before, ∃ next ∈ after,
    kind.identity next = kind.identity receipt ∧ (kind.completed receipt = true → next = receipt)

/-- Every completed receipt had been there before, pending or completed. -/
def Fenced (before after : List ρ) : Prop :=
  ∀ next ∈ after, kind.completed next = true →
    ∃ receipt ∈ before, kind.identity receipt = kind.identity next

structure Advances (before after : List ρ) : Prop where
  kept : kind.Kept before after
  fenced : kind.Fenced before after

/-- A completed receipt was saved as pending in an earlier version. -/
def FencedBy (earlier : List (List ρ)) (version : List ρ) : Prop :=
  ∀ receipt ∈ version, kind.completed receipt = true →
    ∃ old ∈ earlier, ∃ fence ∈ old,
      kind.identity fence = kind.identity receipt ∧ kind.completed fence = false

/-- Over all versions: what was saved stays, and what is completed was pending before. -/
structure Evidence (versions : List (List ρ)) : Prop where
  kept : versions.Pairwise kind.Kept
  fenced : Throughout kind.FencedBy versions

variable {kind}

theorem Kept.refl (receipts : List ρ) : kind.Kept receipts receipts :=
  fun receipt hmem => ⟨receipt, hmem, rfl, fun _ => rfl⟩

theorem Kept.trans {first second third : List ρ} (h : kind.Kept first second)
    (h' : kind.Kept second third) : kind.Kept first third := by
  intro receipt hmem
  rcases h receipt hmem with ⟨next, hnext, hidentity, hsame⟩
  rcases h' next hnext with ⟨last, hlast, hidentity', hsame'⟩
  refine ⟨last, hlast, hidentity'.trans hidentity, fun hcompleted => ?_⟩
  have heq := hsame hcompleted
  subst heq
  exact hsame' hcompleted

theorem Advances.refl (receipts : List ρ) : kind.Advances receipts receipts :=
  ⟨Kept.refl receipts, fun next hmem _ => ⟨next, hmem, rfl⟩⟩

theorem Advances.concat (receipts : List ρ) {receipt : ρ} (h : kind.completed receipt = false) :
    kind.Advances receipts (receipts ++ [receipt]) := by
  constructor
  · exact fun old hmem => ⟨old, List.mem_append_left _ hmem, rfl, fun _ => rfl⟩
  · intro next hmem hcompleted
    rcases List.mem_append.mp hmem with hold | hnew
    · exact ⟨next, hold, rfl⟩
    · rw [List.mem_singleton.mp hnew, h] at hcompleted
      cases hcompleted

theorem Evidence.nil : kind.Evidence [] := ⟨List.Pairwise.nil, Throughout.nil _⟩

theorem Evidence.kept_last {init : List (List ρ)} {last : List ρ}
    (h : kind.Evidence (init ++ [last])) : ∀ version ∈ init ++ [last], kind.Kept version last := by
  intro version hmem
  rcases List.mem_append.mp hmem with hinit | hone
  · exact (List.pairwise_append.mp h.kept).2.2 version hinit last (List.mem_singleton_self _)
  · rw [List.mem_singleton.mp hone]
    exact Kept.refl last

theorem evidence_concat {versions : List (List ρ)} {next : List ρ} :
    kind.Evidence (versions ++ [next]) ↔
      kind.Evidence versions ∧ kind.Advances (versions.getLast?.getD []) next := by
  constructor
  · intro h
    have hversions : kind.Evidence versions :=
      ⟨(List.pairwise_append.mp h.kept).1, (throughout_concat.mp h.fenced).1⟩
    have hfenced := (throughout_concat.mp h.fenced).2
    refine ⟨hversions, ?_⟩
    rcases List.eq_nil_or_concat versions with rfl | ⟨init, last, rfl⟩
    · refine ⟨fun receipt hmem => (nomatch hmem), fun receipt hmem hcompleted => ?_⟩
      rcases hfenced receipt hmem hcompleted with ⟨old, hold, -⟩
      cases hold
    · rw [List.concat_eq_append, List.getLast?_concat, Option.getD_some] at *
      constructor
      · exact (List.pairwise_append.mp h.kept).2.2 last (by simp) next (by simp)
      · intro receipt hmem hcompleted
        rcases hfenced receipt hmem hcompleted with ⟨old, hold, fence, hfence, hidentity, -⟩
        rcases hversions.kept_last old hold fence hfence with ⟨kept, hkept, hsame, -⟩
        exact ⟨kept, hkept, hsame.trans hidentity⟩
  · rintro ⟨h, hnext⟩
    rcases List.eq_nil_or_concat versions with rfl | ⟨init, last, rfl⟩
    · refine ⟨List.pairwise_singleton _ _, throughout_concat.mpr ⟨Throughout.nil _, ?_⟩⟩
      intro receipt hmem hcompleted
      rcases hnext.fenced receipt hmem hcompleted with ⟨fence, hfence, -⟩
      cases hfence
    · rw [List.concat_eq_append, List.getLast?_concat, Option.getD_some] at *
      constructor
      · refine List.pairwise_append.mpr ⟨h.kept, List.pairwise_singleton _ _, ?_⟩
        intro version hmem other hother
        rw [List.mem_singleton.mp hother]
        exact (h.kept_last version hmem).trans hnext.kept
      · refine throughout_concat.mpr ⟨h.fenced, fun receipt hmem hcompleted => ?_⟩
        rcases hnext.fenced receipt hmem hcompleted with ⟨fence, hfence, hidentity⟩
        cases hphase : kind.completed fence with
        | false => exact ⟨last, by simp, fence, hfence, hidentity, hphase⟩
        | true =>
          -- it was completed before, so its own fence is older still
          rcases (throughout_concat.mp h.fenced).2 fence hfence hphase with
            ⟨old, hold, origin, horigin, hsame, hpending⟩
          exact ⟨old, List.mem_append_left _ hold, origin, horigin, hsame.trans hidentity,
            hpending⟩

end ReceiptKind

end HarnessControl.Library
