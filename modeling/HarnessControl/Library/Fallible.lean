import Mathlib.Data.List.Basic

/-!
# Computations that may fail

What a composed computation says of its parts when it does not fail.
-/

namespace HarnessControl.Library

variable {ε α β : Type}

theorem bind_ok {x : Except ε α} {f : α → Except ε β} {result : β} :
    x.bind f = .ok result ↔ ∃ value, x = .ok value ∧ f value = .ok result := by
  cases x with
  | error failure => exact ⟨nofun, fun ⟨_, h, _⟩ => nomatch h⟩
  | ok value => exact ⟨fun h => ⟨value, rfl, h⟩, fun ⟨_, h, hf⟩ => Except.ok.inj h ▸ hf⟩

theorem map_ok {x : Except ε α} {f : α → β} {result : β} :
    x.map f = .ok result ↔ ∃ value, x = .ok value ∧ f value = result := by
  cases x with
  | error failure => exact ⟨nofun, fun ⟨_, h, _⟩ => nomatch h⟩
  | ok value =>
    exact ⟨fun h => ⟨value, rfl, Except.ok.inj h⟩, fun ⟨_, h, hf⟩ => congrArg _ (Except.ok.inj h ▸ hf)⟩

theorem ite_error_ok {condition : Prop} [Decidable condition] {failure : ε} {x : Except ε α}
    {result : α} :
    (if condition then .error failure else x) = .ok result ↔ ¬ condition ∧ x = .ok result := by
  by_cases h : condition
  · rw [if_pos h]
    exact ⟨nofun, fun hok => absurd h hok.1⟩
  · rw [if_neg h]
    exact ⟨fun hok => ⟨h, hok⟩, fun hok => hok.2⟩

/-- What every step that succeeds keeps, of the elements before it and of the state, holds at the
end of a loop that succeeds. -/
theorem foldlM_keeps {σ : Type} {step : σ → α → Except ε σ} {P : List α → σ → Prop}
    (hstep : ∀ before state element next, P before state → step state element = .ok next →
      P (before ++ [element]) next)
    {before elements : List α} {state final : σ} (h : P before state)
    (hrun : elements.foldlM step state = .ok final) : P (before ++ elements) final := by
  induction elements generalizing before state with
  | nil =>
    obtain rfl := Except.ok.inj hrun
    rw [List.append_nil]
    exact h
  | cons element rest ih =>
    rw [List.foldlM_cons] at hrun
    obtain ⟨next, hnext, hrest⟩ := bind_ok.mp hrun
    have hall := ih (hstep before state element next h hnext) hrest
    rw [List.append_assoc] at hall
    exact hall

end HarnessControl.Library
