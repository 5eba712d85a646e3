import Mathlib.Data.List.Nodup

/-!
# Slots that are handed over

A task that comes while all slots are taken waits.  A slot that is released goes to the first task
that waits, without the counter of taken slots going down in between.
-/

namespace HarnessControl.Library

variable {ι : Type*}

structure Slots (ι : Type*) where
  active : Nat
  waiting : List ι
  /-- The tasks that have a slot; the counter is all that is known of them. -/
  holders : List ι

namespace Slots

def empty : Slots ι := { active := 0, waiting := [], holders := [] }

def acquire (limit : Nat) (s : Slots ι) (task : ι) : Slots ι :=
  if limit ≤ s.active then { s with waiting := s.waiting ++ [task] }
  else { s with active := s.active + 1, holders := s.holders ++ [task] }

def release [DecidableEq ι] (s : Slots ι) (task : ι) : Slots ι :=
  match s.waiting with
  | next :: rest => { s with waiting := rest, holders := s.holders.erase task ++ [next] }
  | [] => { s with active := s.active - 1, holders := s.holders.erase task }

/-- The counter counts the tasks with a slot, and where a task waits all slots are taken. -/
structure Sound (limit : Nat) (s : Slots ι) : Prop where
  active : s.active = s.holders.length
  bound : s.active ≤ limit
  full : s.waiting ≠ [] → s.active = limit
  holders : s.holders.Nodup
  waiting : s.waiting.Nodup
  apart : ∀ task ∈ s.waiting, task ∉ s.holders

theorem Sound.empty (limit : Nat) : (Slots.empty : Slots ι).Sound limit where
  active := rfl
  bound := Nat.zero_le _
  full := fun h => absurd rfl h
  holders := List.nodup_nil
  waiting := List.nodup_nil
  apart := List.forall_mem_nil _

variable {limit : Nat} {s : Slots ι}

theorem mem_waiting_acquire {task other : ι} :
    other ∈ (s.acquire limit task).waiting ↔
      other ∈ s.waiting ∨ (limit ≤ s.active ∧ other = task) := by
  unfold acquire
  split
  · rename_i hfull
    rw [List.mem_append, List.mem_singleton]
    simp only [hfull, true_and]
  · rename_i hfree
    simp only [hfree, false_and, or_false]

theorem mem_holders_acquire {task other : ι} :
    other ∈ (s.acquire limit task).holders ↔
      other ∈ s.holders ∨ (¬ limit ≤ s.active ∧ other = task) := by
  unfold acquire
  split
  · rename_i hfull
    simp only [hfull, not_true_eq_false, false_and, or_false]
  · rename_i hfree
    rw [List.mem_append, List.mem_singleton]
    simp only [hfree, not_false_eq_true, true_and]

theorem Sound.acquire (h : s.Sound limit) {task : ι}
    (hholder : task ∉ s.holders) (hwaiting : task ∉ s.waiting) :
    (s.acquire limit task).Sound limit := by
  have hactive := h.active
  have hbound := h.bound
  unfold Slots.acquire
  split
  · rename_i hfull
    refine ⟨hactive, hbound, fun _ => Nat.le_antisymm hbound hfull, h.holders, ?_, ?_⟩
    · exact h.waiting.append (List.nodup_singleton _) (by simpa using hwaiting)
    · rw [List.forall_mem_append, List.forall_mem_singleton]
      exact ⟨h.apart, hholder⟩
  · rename_i hfree
    refine ⟨?_, by dsimp only; omega, ?_, ?_, h.waiting, ?_⟩
    · dsimp only
      rw [List.length_append, hactive]
      rfl
    · intro hsome
      exact absurd (Nat.le_of_eq (h.full hsome).symm) hfree
    · exact h.holders.append (List.nodup_singleton _) (by simpa using hholder)
    · intro other hother
      rw [List.mem_append, List.mem_singleton, not_or]
      refine ⟨h.apart other hother, ?_⟩
      rintro rfl
      exact hwaiting hother

variable [DecidableEq ι]

theorem release_nil (h : s.waiting = []) (task : ι) :
    s.release task =
      { active := s.active - 1, waiting := [], holders := s.holders.erase task } := by
  unfold release
  rw [h]

theorem release_cons {next : ι} {rest : List ι} (h : s.waiting = next :: rest)
    (task : ι) :
    s.release task =
      { active := s.active, waiting := rest, holders := s.holders.erase task ++ [next] } := by
  unfold release
  rw [h]

/-- What becomes of the slot of a task: the first that waits has it, and the counter goes down only
where none waits. -/
def HandedOver (s t : Slots ι) : Prop :=
  match s.waiting with
  | [] => t.waiting = [] ∧ t.active + 1 = s.active
  | next :: rest => t.waiting = rest ∧ t.active = s.active ∧ next ∈ t.holders

theorem Sound.handedOver (h : s.Sound limit) {task : ι}
    (htask : task ∈ s.holders) : HandedOver s (s.release task) := by
  have hpos := List.length_pos_of_mem htask
  have hactive := h.active
  unfold HandedOver
  cases hwaiting : s.waiting with
  | nil =>
    rw [release_nil hwaiting]
    exact ⟨rfl, by dsimp only; omega⟩
  | cons next rest =>
    rw [release_cons hwaiting]
    exact ⟨rfl, rfl, List.mem_append_right _ List.mem_cons_self⟩

theorem Sound.mem_holders_release (h : s.Sound limit) {task other : ι} :
    other ∈ (s.release task).holders ↔
      (other ∈ s.holders ∧ other ≠ task) ∨ s.waiting.head? = some other := by
  unfold Slots.release
  split
  · rename_i next rest hwaiting
    rw [hwaiting, List.head?_cons, List.mem_append, List.mem_singleton, h.holders.mem_erase_iff,
      Option.some_inj, eq_comm (a := other) (b := next), and_comm]
  · rename_i hwaiting
    rw [hwaiting, h.holders.mem_erase_iff, List.head?_nil, and_comm]
    simp only [reduceCtorEq, or_false]

theorem Sound.mem_waiting_release (h : s.Sound limit) {task other : ι} :
    other ∈ (s.release task).waiting ↔ other ∈ s.waiting ∧ s.waiting.head? ≠ some other := by
  have hnodup := h.waiting
  unfold Slots.release
  split
  · rename_i next rest hwaiting
    rw [hwaiting] at hnodup ⊢
    obtain ⟨hnext, -⟩ := List.nodup_cons.mp hnodup
    rw [List.mem_cons, List.head?_cons, ne_eq, Option.some_inj]
    constructor
    · intro hother
      refine ⟨Or.inr hother, ?_⟩
      rintro rfl
      exact hnext hother
    · rintro ⟨rfl | hother, hne⟩
      · exact absurd rfl hne
      · exact hother
  · rename_i hwaiting
    rw [hwaiting]
    simp only [List.not_mem_nil, false_and]

theorem Sound.release (h : s.Sound limit) {task : ι}
    (htask : task ∈ s.holders) : (s.release task).Sound limit := by
  have hpos := List.length_pos_of_mem htask
  have hactive := h.active
  have hbound := h.bound
  have hlength := List.length_erase_of_mem htask
  cases hwaiting : s.waiting with
  | nil =>
    rw [release_nil hwaiting]
    exact ⟨by dsimp only; omega, by dsimp only; omega, fun hsome => absurd rfl hsome,
      h.holders.erase _, List.nodup_nil, List.forall_mem_nil _⟩
  | cons next rest =>
    rw [release_cons hwaiting]
    have hnodup := h.waiting
    have hapart := h.apart
    rw [hwaiting, List.nodup_cons] at hnodup
    rw [hwaiting, List.forall_mem_cons] at hapart
    have hfull := h.full (by rw [hwaiting]; exact List.cons_ne_nil _ _)
    refine ⟨?_, hbound, fun _ => hfull, ?_, hnodup.2, ?_⟩
    · dsimp only
      rw [List.length_append, List.length_singleton]
      omega
    · have hnot : next ∉ s.holders.erase task := fun hmem => hapart.1 (List.mem_of_mem_erase hmem)
      exact (h.holders.erase _).append (List.nodup_singleton _) (by simpa using hnot)
    · intro other hother
      rw [List.mem_append, List.mem_singleton, not_or]
      refine ⟨fun hmem => hapart.2 other hother (List.mem_of_mem_erase hmem), ?_⟩
      rintro rfl
      exact hnodup.1 hother

end Slots

end HarnessControl.Library
