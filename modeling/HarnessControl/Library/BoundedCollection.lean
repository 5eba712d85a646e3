import Mathlib.Data.List.Basic

/-!
# Collecting up to a limit

A collection takes elements one by one.  From the first element that finds no room on, it is marked as
truncated and stays as it is.
-/

namespace HarnessControl.Library

structure Collection (α : Type*) where
  elements : List α
  truncated : Bool

namespace Collection

variable {α : Type*} {limit : Option Nat} {collection : Collection α}

def empty : Collection α := ⟨[], false⟩

/-- There is no room for another element. -/
def full (limit : Option Nat) (collection : Collection α) : Bool :=
  limit.any fun limit => decide (limit ≤ collection.elements.length)

def push (limit : Option Nat) (collection : Collection α) (element : α) : Collection α :=
  if collection.full limit then { collection with truncated := true }
  else { collection with elements := collection.elements ++ [element] }

def extend (limit : Option Nat) (collection : Collection α) (elements : List α) : Collection α :=
  elements.foldl (push limit) collection

/-- Only a full collection is truncated. -/
def Sound (limit : Option Nat) (collection : Collection α) : Prop :=
  collection.truncated = true → collection.full limit = true

theorem full_some (limit : Nat) (elements : List α) (truncated : Bool) :
    (⟨elements, truncated⟩ : Collection α).full (some limit) =
      decide (limit ≤ elements.length) := rfl

@[simp] theorem extend_nil : collection.extend limit [] = collection := rfl

@[simp] theorem extend_cons (element : α) (rest : List α) :
    collection.extend limit (element :: rest) = (collection.push limit element).extend limit rest :=
  rfl

theorem extend_append (first second : List α) :
    collection.extend limit (first ++ second) =
      (collection.extend limit first).extend limit second :=
  List.foldl_append

theorem push_room (h : collection.full limit = false) (element : α) :
    collection.push limit element =
      { collection with elements := collection.elements ++ [element] } := by
  unfold push
  rw [h]
  rfl

theorem Sound.empty : Sound limit (empty : Collection α) := nofun

theorem Sound.push (h : collection.Sound limit) (element : α) :
    (collection.push limit element).Sound limit := by
  unfold Collection.push
  by_cases hfull : collection.full limit = true
  · rw [if_pos hfull]
    exact fun _ => hfull
  · rw [if_neg hfull]
    intro htruncated
    exact absurd (h htruncated) hfull

theorem Sound.extend (h : collection.Sound limit) (elements : List α) :
    (collection.extend limit elements).Sound limit := by
  induction elements generalizing collection with
  | nil => exact h
  | cons element rest ih => exact ih (h.push element)

theorem extend_truncated (h : collection.Sound limit) (htruncated : collection.truncated = true)
    (elements : List α) : collection.extend limit elements = collection := by
  induction elements with
  | nil => rfl
  | cons element rest ih =>
    rw [extend_cons]
    have hpush : collection.push limit element = collection := by
      unfold Collection.push
      rw [if_pos (h htruncated), ← htruncated]
    rw [hpush]
    exact ih

theorem extend_full (h : collection.full limit = true) (element : α) (rest : List α) :
    collection.extend limit (element :: rest) = { collection with truncated := true } := by
  have hpush : collection.push limit element = { collection with truncated := true } := by
    unfold Collection.push
    rw [if_pos h]
  have hsound : ({ collection with truncated := true } : Collection α).Sound limit := fun _ => h
  rw [extend_cons, hpush]
  exact extend_truncated hsound rfl rest

theorem extend_none (elements : List α) :
    collection.extend none elements =
      { collection with elements := collection.elements ++ elements } := by
  induction elements generalizing collection with
  | nil => simp
  | cons element rest ih =>
    rw [extend_cons, ih]
    show Collection.mk (collection.elements ++ [element] ++ rest) _ = _
    rw [List.append_assoc]
    rfl

theorem extend_some {limit : Nat} {taken : List α} (h : taken.length ≤ limit) (elements : List α) :
    (⟨taken, false⟩ : Collection α).extend (some limit) elements =
      ⟨(taken ++ elements).take limit, decide (limit < (taken ++ elements).length)⟩ := by
  induction elements generalizing taken with
  | nil =>
    rw [List.append_nil, List.take_of_length_le h, extend_nil, decide_eq_false (by omega)]
  | cons element rest ih =>
    rw [extend_cons]
    by_cases hroom : taken.length < limit
    · have hpush : (⟨taken, false⟩ : Collection α).push (some limit) element =
          ⟨taken ++ [element], false⟩ := by
        unfold push
        rw [full_some, decide_eq_false (by omega)]
        rfl
      have hlength : (taken ++ [element]).length ≤ limit := by
        rw [List.length_append, List.length_singleton]
        omega
      rw [hpush, ih hlength, List.append_assoc, List.singleton_append]
    · have hfull : taken.length = limit := by omega
      have hpush : (⟨taken, false⟩ : Collection α).push (some limit) element = ⟨taken, true⟩ := by
        unfold push
        rw [full_some, decide_eq_true (by omega)]
        rfl
      have hsound : (⟨taken, true⟩ : Collection α).Sound (some limit) := by
        intro _
        rw [full_some, decide_eq_true (by omega)]
      rw [hpush, extend_truncated hsound rfl, List.take_left' hfull, decide_eq_true]
      rw [List.length_append, List.length_cons]
      omega

end Collection

end HarnessControl.Library
