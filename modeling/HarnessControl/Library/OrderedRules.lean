import Mathlib.Data.List.Basic

/-!
# Ordered rules

Rules that are tried from the last to the first: the last rule that matches decides.
-/

namespace HarnessControl.Library

variable {ρ κ δ : Type*}

/-- The last rule that matches. -/
def lastMatch (matching : ρ → Bool) (rules : List ρ) : Option ρ := rules.reverse.find? matching

/-- What the last rule that matches a key says. -/
def decide? (matching : ρ → κ → Bool) (action : ρ → δ) (rules : List ρ) (key : κ) : Option δ :=
  (lastMatch (matching · key) rules).map action

theorem lastMatch_append (matching : ρ → Bool) (rules later : List ρ) :
    lastMatch matching (rules ++ later) =
      (lastMatch matching later).or (lastMatch matching rules) := by
  unfold lastMatch
  rw [List.reverse_append, List.find?_append]

variable {rules : List ρ}

theorem lastMatch_none {matching : ρ → Bool} :
    lastMatch matching rules = none ↔ ∀ rule ∈ rules, matching rule = false := by
  unfold lastMatch
  simp

theorem lastMatch_some {matching : ρ → Bool} {rule : ρ}
    (h : lastMatch matching rules = some rule) : rule ∈ rules ∧ matching rule = true := by
  unfold lastMatch at h
  exact ⟨List.mem_reverse.mp (List.mem_of_find?_eq_some h), List.find?_some h⟩

theorem lastMatch_congr {first second : ρ → Bool}
    (h : ∀ rule ∈ rules, first rule = second rule) :
    lastMatch first rules = lastMatch second rules := by
  have hreverse : ∀ rule ∈ rules.reverse, first rule = second rule :=
    fun rule hrule => h rule (List.mem_reverse.mp hrule)
  unfold lastMatch
  generalize rules.reverse = list at hreverse ⊢
  induction list with
  | nil => rfl
  | cons rule others ih =>
    rw [List.find?_cons, List.find?_cons, hreverse rule List.mem_cons_self,
      ih fun other hother => hreverse other (List.mem_cons_of_mem rule hother)]

theorem lastMatch_of_relevant {relevant matching : ρ → Bool} {rule : ρ}
    (h : lastMatch relevant rules = some rule) (hmatching : matching rule = true)
    (hrelevant : ∀ other ∈ rules, matching other = true → relevant other = true) :
    lastMatch matching rules = some rule := by
  unfold lastMatch at h ⊢
  rw [List.find?_eq_some_iff_append] at h ⊢
  obtain ⟨-, before, after, hsplit, hafter⟩ := h
  refine ⟨hmatching, before, after, hsplit, fun other hother => ?_⟩
  rw [Bool.not_eq_true', ← Bool.not_eq_true]
  intro hother'
  have hmem : other ∈ rules := by
    rw [← List.mem_reverse, hsplit]
    exact List.mem_append_left _ hother
  have hnot := hafter other hother
  rw [hrelevant other hmem hother'] at hnot
  cases hnot

section Decisions

variable {matching : ρ → κ → Bool} {action : ρ → δ}

theorem decide?_append (rules later : List ρ) (key : κ) :
    decide? matching action (rules ++ later) key =
      (decide? matching action later key).or (decide? matching action rules key) := by
  unfold decide?
  rw [lastMatch_append]
  cases lastMatch (matching · key) later <;> rfl

theorem decide?_none {key : κ} :
    decide? matching action rules key = none ↔ ∀ rule ∈ rules, matching rule key = false := by
  unfold decide?
  rw [Option.map_eq_none_iff, lastMatch_none]

theorem decide?_isSome {rule : ρ} {key : κ} (hrule : rule ∈ rules)
    (hmatching : matching rule key = true) : (decide? matching action rules key).isSome = true := by
  rw [Option.isSome_iff_ne_none]
  intro hnone
  rw [decide?_none.mp hnone rule hrule] at hmatching
  cases hmatching

theorem decide?_same {rule : ρ} {key : κ} {verdict : δ}
    (h : ∀ rule ∈ rules, action rule = verdict) (hrule : rule ∈ rules)
    (hmatching : matching rule key = true) :
    decide? matching action rules key = some verdict := by
  have hsome : (decide? matching action rules key).isSome = true := decide?_isSome hrule hmatching
  obtain ⟨found, hfound⟩ := Option.isSome_iff_exists.mp hsome
  obtain ⟨last, hlast, rfl⟩ := Option.map_eq_some_iff.mp hfound
  rw [hfound, h last (lastMatch_some hlast).1]

theorem decide?_append_of_none {rules later : List ρ} {key : κ}
    (h : ∀ rule ∈ later, matching rule key = false) :
    decide? matching action (rules ++ later) key = decide? matching action rules key := by
  rw [decide?_append, decide?_none.mpr h, Option.none_or]

theorem decide?_append_of_some {rules later : List ρ} {key : κ}
    (h : (decide? matching action later key).isSome = true) :
    decide? matching action (rules ++ later) key = decide? matching action later key := by
  rw [decide?_append]
  exact Option.or_of_isSome h

end Decisions

end HarnessControl.Library
