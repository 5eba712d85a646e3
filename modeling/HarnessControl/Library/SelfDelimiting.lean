import Mathlib.Data.List.Basic

/-!
# Self-delimiting texts

A reader passes over a text until it meets a symbol at which it stops.  A text over which it passes
from a state back to that state ends where the reader stops, so it is known from what it begins.
-/

namespace HarnessControl.Library

variable {σ α : Type*} {step : σ → α → Option σ} {s : σ}

/-- The state after a text, or `none` where the reader stops inside it. -/
def readThrough (step : σ → α → Option σ) : σ → List α → Option σ
  | s, [] => some s
  | s, a :: text => (step s a).bind fun next => readThrough step next text

@[simp] theorem readThrough_nil (step : σ → α → Option σ) (s : σ) :
    readThrough step s [] = some s := rfl

theorem readThrough_cons (step : σ → α → Option σ) (s : σ) (a : α) (text : List α) :
    readThrough step s (a :: text) = (step s a).bind fun next => readThrough step next text := rfl

theorem readThrough_append (step : σ → α → Option σ) (s : σ) (first second : List α) :
    readThrough step s (first ++ second) =
      (readThrough step s first).bind fun next => readThrough step next second := by
  induction first generalizing s with
  | nil => rfl
  | cons a first ih =>
    rw [List.cons_append, readThrough_cons, readThrough_cons, Option.bind_assoc]
    congr 1
    funext next
    exact ih next

/-- The reader passes over the text and is where it was. -/
def Passes (step : σ → α → Option σ) (s : σ) (text : List α) : Prop :=
  readThrough step s text = some s

/-- The reader stops at the first symbol, if there is one. -/
def Stops (step : σ → α → Option σ) (s : σ) (text : List α) : Prop :=
  ∀ a ∈ text.head?, step s a = none

theorem stops_nil (step : σ → α → Option σ) (s : σ) : Stops step s [] := nofun

theorem stops_cons {a : α} (h : step s a = none) (text : List α) : Stops step s (a :: text) := by
  intro b hb
  rw [List.head?_cons, Option.mem_some_iff] at hb
  rw [← hb]
  exact h

theorem Passes.append {first second : List α} (h : Passes step s first)
    (h' : Passes step s second) : Passes step s (first ++ second) := by
  unfold Passes at h h' ⊢
  rw [readThrough_append, h, Option.bind_some, h']

theorem passes_single {a : α} (h : step s a = some s) : Passes step s [a] := by
  unfold Passes
  rw [readThrough_cons, h]
  rfl

theorem passes_of_forall {text : List α} (h : ∀ a ∈ text, step s a = some s) :
    Passes step s text := by
  induction text with
  | nil => rfl
  | cons a text ih =>
    unfold Passes
    rw [readThrough_cons, h a List.mem_cons_self]
    exact ih fun b hb => h b (List.mem_cons_of_mem a hb)

theorem Passes.not_stops {first second : List α} (h : Passes step s first)
    (h' : Passes step s (first ++ second)) (hstops : Stops step s second) : second = [] := by
  cases second with
  | nil => rfl
  | cons a second =>
    exfalso
    unfold Passes at h h'
    rw [readThrough_append, h, Option.bind_some, readThrough_cons,
      hstops a (by rw [List.head?_cons]; rfl)] at h'
    cases h'

theorem Passes.unique {first second rest rest' : List α} (h : Passes step s first)
    (h' : Passes step s second) (hrest : Stops step s rest) (hrest' : Stops step s rest')
    (heq : first ++ rest = second ++ rest') : first = second ∧ rest = rest' := by
  obtain ⟨middle, hsecond, hmiddle⟩ | ⟨middle, hfirst, hmiddle⟩ := List.append_eq_append_iff.mp heq
  · have hstops : Stops step s middle := by
      intro a ha
      apply hrest
      rw [hmiddle, List.head?_append, Option.mem_def.mp ha]
      rfl
    rw [hsecond] at h'
    have hnil := h.not_stops h' hstops
    rw [hnil] at hsecond hmiddle
    rw [List.append_nil] at hsecond
    exact ⟨hsecond.symm, hmiddle⟩
  · have hstops : Stops step s middle := by
      intro a ha
      apply hrest'
      rw [hmiddle, List.head?_append, Option.mem_def.mp ha]
      rfl
    rw [hfirst] at h
    have hnil := h'.not_stops h hstops
    rw [hnil] at hfirst hmiddle
    rw [List.append_nil] at hfirst
    exact ⟨hfirst, hmiddle.symm⟩

/-! ## Separated texts -/

/-- What follows the first of several texts. -/
def afterFirst (separator : α) (texts : List (List α)) : List α :=
  texts.flatMap fun text => separator :: text

theorem intercalate_cons (separator : α) (text : List α) (texts : List (List α)) :
    [separator].intercalate (text :: texts) = text ++ afterFirst separator texts := by
  induction texts generalizing text with
  | nil => simp [afterFirst]
  | cons next texts ih =>
    rw [List.intercalate_cons_cons, ih]
    simp [afterFirst]

theorem stops_afterFirst {separator : α} (h : step s separator = none) (texts : List (List α)) :
    Stops step s (afterFirst separator texts) := by
  cases texts with
  | nil => exact stops_nil step s
  | cons text texts => exact stops_cons h _

theorem afterFirst_unique {separator : α} (hseparator : step s separator = none)
    {texts texts' : List (List α)} (h : ∀ text ∈ texts, Passes step s text)
    (h' : ∀ text ∈ texts', Passes step s text)
    (heq : afterFirst separator texts = afterFirst separator texts') : texts = texts' := by
  induction texts generalizing texts' with
  | nil =>
    cases texts' with
    | nil => rfl
    | cons text' texts' => cases heq
  | cons text texts ih =>
    cases texts' with
    | nil => cases heq
    | cons text' texts' =>
      have htail : text ++ afterFirst separator texts = text' ++ afterFirst separator texts' :=
        (List.cons.inj heq).2
      obtain ⟨hhead, hrest⟩ := (h text List.mem_cons_self).unique (h' text' List.mem_cons_self)
        (stops_afterFirst hseparator texts) (stops_afterFirst hseparator texts') htail
      rw [hhead, ih (fun other hin => h other (List.mem_cons_of_mem text hin))
        (fun other hin => h' other (List.mem_cons_of_mem text' hin)) hrest]

theorem intercalate_unique {separator : α} (hseparator : step s separator = none)
    {texts texts' : List (List α)} (h : ∀ text ∈ texts, Passes step s text ∧ text ≠ [])
    (h' : ∀ text ∈ texts', Passes step s text ∧ text ≠ [])
    (heq : [separator].intercalate texts = [separator].intercalate texts') : texts = texts' := by
  cases texts with
  | nil =>
    cases texts' with
    | nil => rfl
    | cons text' texts' =>
      rw [intercalate_cons] at heq
      have hempty := List.append_eq_nil_iff.mp heq.symm
      exact absurd hempty.1 (h' text' List.mem_cons_self).2
  | cons text texts =>
    cases texts' with
    | nil =>
      rw [intercalate_cons] at heq
      have hempty := List.append_eq_nil_iff.mp heq
      exact absurd hempty.1 (h text List.mem_cons_self).2
    | cons text' texts' =>
      apply afterFirst_unique hseparator (fun other hin => (h other hin).1)
        (fun other hin => (h' other hin).1)
      rw [intercalate_cons, intercalate_cons] at heq
      show separator :: (text ++ _) = separator :: (text' ++ _)
      exact congrArg _ heq

end HarnessControl.Library
