import Mathlib

/-!
# Eviction from the front of a queue

A queue is walked in the order in which its elements expire.  What has expired goes, and what is
left goes from the front until its weight and its length leave room for what is to come.
-/

namespace HarnessControl.Library.Eviction

variable {α : Type*} (weight : α → Nat) (expired : α → Bool) (maxWeight maxLength incoming : Nat)

def total (queue : List α) : Nat := (queue.map weight).sum

@[simp] theorem total_cons (element : α) (rest : List α) :
    total weight (element :: rest) = weight element + total weight rest := rfl

/-- The front of the queue stays, with all that is behind it. -/
def admits : List α → Bool
  | [] => true
  | element :: rest =>
    !expired element &&
      decide (total weight (element :: rest) + incoming ≤ maxWeight) &&
      decide ((element :: rest).length < maxLength)

/-- What is left of the queue. -/
def survivors : List α → List α
  | [] => []
  | element :: rest =>
    if admits weight expired maxWeight maxLength incoming (element :: rest) then element :: rest
    else survivors rest

variable {weight expired maxWeight maxLength incoming}

theorem survivors_suffix (queue : List α) :
    survivors weight expired maxWeight maxLength incoming queue <:+ queue := by
  induction queue with
  | nil => exact List.suffix_rfl
  | cons element rest ih =>
    unfold survivors
    split
    · exact List.suffix_rfl
    · exact ih.trans (List.suffix_cons element rest)

theorem survivors_admitted (queue : List α) :
    admits weight expired maxWeight maxLength incoming
      (survivors weight expired maxWeight maxLength incoming queue) = true := by
  induction queue with
  | nil => rfl
  | cons element rest ih =>
    unfold survivors
    split
    · assumption
    · exact ih

theorem survivors_room (queue : List α) :
    survivors weight expired maxWeight maxLength incoming queue = [] ∨
      total weight (survivors weight expired maxWeight maxLength incoming queue) + incoming ≤
          maxWeight ∧
        (survivors weight expired maxWeight maxLength incoming queue).length < maxLength := by
  have hadmitted := @survivors_admitted _ weight expired maxWeight maxLength incoming queue
  cases hleft : survivors weight expired maxWeight maxLength incoming queue with
  | nil => exact Or.inl rfl
  | cons element rest =>
    rw [hleft] at hadmitted
    unfold admits at hadmitted
    rw [Bool.and_eq_true, Bool.and_eq_true, decide_eq_true_iff, decide_eq_true_iff] at hadmitted
    exact Or.inr ⟨hadmitted.1.2, hadmitted.2⟩

theorem not_admitted {front later : List α} {element : α} {queue : List α}
    (hqueue : queue = front ++ element :: later)
    (hgone : (survivors weight expired maxWeight maxLength incoming queue).length ≤ later.length) :
    admits weight expired maxWeight maxLength incoming (element :: later) = false := by
  induction front generalizing queue with
  | nil =>
    rw [hqueue, List.nil_append] at hgone
    unfold survivors at hgone
    split at hgone
    · rw [List.length_cons] at hgone
      omega
    · rename_i hadmits
      rw [Bool.not_eq_true] at hadmits
      exact hadmits
  | cons first front ih =>
    rw [hqueue, List.cons_append] at hgone
    unfold survivors at hgone
    split at hgone
    · rw [List.length_cons, List.length_append, List.length_cons] at hgone
      omega
    · exact ih rfl hgone

end HarnessControl.Library.Eviction
