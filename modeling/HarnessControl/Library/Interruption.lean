import Mathlib.Data.List.Basic

/-!
# Interrupted sequences of effects

A call that changes memory and storage performs a sequence of effects.  A change of memory always
goes through.  A change of storage may fail after a part of it, and then ends the call.
`Effects.Fares` says what becomes of an invariant wherever the sequence is interrupted; its rules
follow the sequence.
-/

namespace HarnessControl.Library

/-- How effects change a state. -/
structure Effects (ε σ : Type*) where
  perform : ε → σ → σ
  /-- The effects on storage, which may fail. -/
  stored : ε → Bool
  /-- What an effect leaves that fails after so much of it. -/
  fail : Nat → ε → σ → σ

/-- So many effects on storage succeed, and the next fails after a part of it. -/
structure Failure where
  after : Nat
  part : Nat

namespace Effects

variable {ε σ : Type*} (effects : Effects ε σ)

def execute (trace : List ε) (s : σ) : σ := trace.foldl (fun s e => effects.perform e s) s

/-- The effect at which a failure strikes. -/
def failing (after : Nat) (trace : List ε) : Option ε := (trace.filter effects.stored)[after]?

def interrupt (part : Nat) : Nat → List ε → σ → σ
  | _, [], s => s
  | after, e :: trace, s =>
    if effects.stored e then
      match after with
      | 0 => effects.fail part e s
      | after + 1 => interrupt part after trace (effects.perform e s)
    else interrupt part after trace (effects.perform e s)

def attempt (failure : Option Failure) (trace : List ε) (s : σ) : σ :=
  match failure with
  | none => effects.execute trace s
  | some failure => effects.interrupt failure.part failure.after trace s

variable {effects} {trace first second : List ε} {s : σ} {e : ε} {after part : Nat}

@[simp] theorem execute_nil : effects.execute [] s = s := rfl

@[simp] theorem execute_cons :
    effects.execute (e :: trace) s = effects.execute trace (effects.perform e s) := rfl

theorem execute_append :
    effects.execute (first ++ second) s = effects.execute second (effects.execute first s) := by
  unfold execute
  rw [List.foldl_append]

/-! ## One effect -/

theorem failing_memory (h : effects.stored e = false) :
    effects.failing after (e :: trace) = effects.failing after trace := by
  unfold failing
  rw [List.filter_cons_of_neg]
  rw [h]
  exact Bool.false_ne_true

theorem failing_zero (h : effects.stored e = true) :
    effects.failing 0 (e :: trace) = some e := by
  unfold failing
  rw [List.filter_cons_of_pos h]
  rfl

theorem failing_succ (h : effects.stored e = true) :
    effects.failing (after + 1) (e :: trace) = effects.failing after trace := by
  unfold failing
  rw [List.filter_cons_of_pos h]
  rfl

theorem interrupt_memory (h : effects.stored e = false) :
    effects.interrupt part after (e :: trace) s =
      effects.interrupt part after trace (effects.perform e s) := by
  rw [interrupt.eq_def]
  dsimp only
  rw [if_neg]
  rw [h]
  exact Bool.false_ne_true

theorem interrupt_zero (h : effects.stored e = true) :
    effects.interrupt part 0 (e :: trace) s = effects.fail part e s := by
  rw [interrupt, if_pos h]

theorem interrupt_succ (h : effects.stored e = true) :
    effects.interrupt part (after + 1) (e :: trace) s =
      effects.interrupt part after trace (effects.perform e s) := by
  rw [interrupt, if_pos h]

theorem interrupt_of_none (h : effects.failing after trace = none) :
    effects.interrupt part after trace s = effects.execute trace s := by
  induction trace generalizing after s with
  | nil => rfl
  | cons e trace ih =>
    cases hstored : effects.stored e with
    | false =>
      rw [failing_memory hstored] at h
      rw [interrupt_memory hstored, ih h, execute_cons]
    | true =>
      cases after with
      | zero =>
        rw [failing_zero hstored] at h
        cases h
      | succ after =>
        rw [failing_succ hstored] at h
        rw [interrupt_succ hstored, ih h, execute_cons]

/-! ## Keeping an invariant -/

/-- The whole sequence keeps `I`; so does a failure at an effect that `spares`, and a failure at
another one breaks `P`. -/
structure Fares (effects : Effects ε σ) (I P : σ → Prop) (spares : ε → Prop) (trace : List ε)
    (s : σ) : Prop where
  completed : I (effects.execute trace s)
  spared : ∀ after part e, effects.failing after trace = some e → spares e →
    I (effects.interrupt part after trace s)
  broken : ∀ after part e, effects.failing after trace = some e → ¬spares e →
    ¬P (effects.interrupt part after trace s)

variable {I P : σ → Prop} {spares : ε → Prop}

theorem Fares.nil (h : I s) : effects.Fares I P spares [] s where
  completed := h
  spared := fun _ _ _ hfailing => nomatch hfailing
  broken := fun _ _ _ hfailing => nomatch hfailing

theorem Fares.memory (hstored : effects.stored e = false)
    (h : effects.Fares I P spares trace (effects.perform e s)) :
    effects.Fares I P spares (e :: trace) s where
  completed := h.completed
  spared := by
    intro after part failed hfailing hspares
    rw [failing_memory hstored] at hfailing
    rw [interrupt_memory hstored]
    exact h.spared after part failed hfailing hspares
  broken := by
    intro after part failed hfailing hspares
    rw [failing_memory hstored] at hfailing
    rw [interrupt_memory hstored]
    exact h.broken after part failed hfailing hspares

theorem Fares.storage (hstored : effects.stored e = true)
    (hspared : ∀ part, spares e → I (effects.fail part e s))
    (hbroken : ∀ part, ¬spares e → ¬P (effects.fail part e s))
    (h : effects.Fares I P spares trace (effects.perform e s)) :
    effects.Fares I P spares (e :: trace) s where
  completed := h.completed
  spared := by
    intro after part failed hfailing hspares
    cases after with
    | zero =>
      rw [failing_zero hstored] at hfailing
      cases hfailing
      rw [interrupt_zero hstored]
      exact hspared part hspares
    | succ after =>
      rw [failing_succ hstored] at hfailing
      rw [interrupt_succ hstored]
      exact h.spared after part failed hfailing hspares
  broken := by
    intro after part failed hfailing hspares
    cases after with
    | zero =>
      rw [failing_zero hstored] at hfailing
      cases hfailing
      rw [interrupt_zero hstored]
      exact hbroken part hspares
    | succ after =>
      rw [failing_succ hstored] at hfailing
      rw [interrupt_succ hstored]
      exact h.broken after part failed hfailing hspares

theorem Fares.of_cons_memory (hstored : effects.stored e = false)
    (h : effects.Fares I P spares (e :: trace) s) :
    effects.Fares I P spares trace (effects.perform e s) where
  completed := h.completed
  spared := by
    intro after part failed hfailing hspares
    rw [← interrupt_memory hstored]
    exact h.spared after part failed ((failing_memory hstored).trans hfailing) hspares
  broken := by
    intro after part failed hfailing hspares
    rw [← interrupt_memory hstored]
    exact h.broken after part failed ((failing_memory hstored).trans hfailing) hspares

theorem Fares.of_cons_storage (hstored : effects.stored e = true)
    (h : effects.Fares I P spares (e :: trace) s) :
    effects.Fares I P spares trace (effects.perform e s) where
  completed := h.completed
  spared := by
    intro after part failed hfailing hspares
    rw [← interrupt_succ hstored]
    exact h.spared (after + 1) part failed ((failing_succ hstored).trans hfailing) hspares
  broken := by
    intro after part failed hfailing hspares
    rw [← interrupt_succ hstored]
    exact h.broken (after + 1) part failed ((failing_succ hstored).trans hfailing) hspares

theorem Fares.append (hfirst : effects.Fares I P spares first s)
    (hsecond : effects.Fares I P spares second (effects.execute first s)) :
    effects.Fares I P spares (first ++ second) s := by
  induction first generalizing s with
  | nil => exact hsecond
  | cons e first ih =>
    cases hstored : effects.stored e with
    | false => exact Fares.memory hstored (ih (hfirst.of_cons_memory hstored) hsecond)
    | true =>
      have hnow : ∀ part, effects.interrupt part 0 (e :: first) s = effects.fail part e s :=
        fun part => interrupt_zero hstored
      apply Fares.storage hstored
      · intro part hspares
        rw [← hnow]
        exact hfirst.spared 0 part e (failing_zero hstored) hspares
      · intro part hspares
        rw [← hnow]
        exact hfirst.broken 0 part e (failing_zero hstored) hspares
      · exact ih (hfirst.of_cons_storage hstored) hsecond

/-- The failure strikes no effect, or one that spares the invariant. -/
def Spared (effects : Effects ε σ) (spares : ε → Prop) (failure : Option Failure)
    (trace : List ε) : Prop :=
  ∀ e ∈ failure.bind fun failure => effects.failing failure.after trace, spares e

instance [DecidablePred spares] {failure : Option Failure} :
    Decidable (effects.Spared spares failure trace) :=
  inferInstanceAs (Decidable (∀ e ∈ failure.bind fun failure =>
    effects.failing failure.after trace, spares e))

variable {failure : Option Failure}

theorem Spared.nil : effects.Spared spares failure [] := by
  cases failure with
  | none => exact fun _ hfailing => nomatch hfailing
  | some failure => exact fun _ hfailing => nomatch hfailing

theorem Fares.attempt (h : effects.Fares I P spares trace s)
    (hspared : effects.Spared spares failure trace) : I (effects.attempt failure trace s) := by
  cases failure with
  | none => exact h.completed
  | some failure =>
    change I (effects.interrupt failure.part failure.after trace s)
    cases hfailing : effects.failing failure.after trace with
    | none =>
      rw [interrupt_of_none hfailing]
      exact h.completed
    | some e => exact h.spared _ _ e hfailing (hspared e hfailing)

theorem Fares.breaks (h : effects.Fares I P spares trace s)
    (hspared : ¬effects.Spared spares failure trace) : ¬P (effects.attempt failure trace s) := by
  unfold Spared at hspared
  push Not at hspared
  rcases hspared with ⟨e, hfailing, hspares⟩
  cases failure with
  | none => cases hfailing
  | some failure => exact h.broken _ _ e hfailing hspares

end Effects

end HarnessControl.Library
