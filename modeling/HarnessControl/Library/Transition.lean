import Mathlib.Data.List.Basic

/-!
# Runs of deterministic machines

A machine is a step function on states; what the environment decides (which message arrives, when a
timer fires, whether a write fails) is part of the action.  `Always P` says that every state of a
run satisfies `P`, `Meets C` that every step of a run is taken from a state that admits it.  The
two rules after them turn a step lemma into a run lemma, in either direction.  A machine that keeps
a list of pending tasks lets the environment pick one by its index; the last section says what
remains of the list.
-/

namespace HarnessControl.Library

variable {σ α : Type*}

/-- The state reached by performing the actions in order. -/
def run (step : σ → α → σ) (s : σ) (actions : List α) : σ := actions.foldl step s

@[simp] theorem run_nil (step : σ → α → σ) (s : σ) : run step s [] = s := rfl

@[simp] theorem run_cons (step : σ → α → σ) (s : σ) (a : α) (actions : List α) :
    run step s (a :: actions) = run step (step s a) actions := rfl

theorem run_append (step : σ → α → σ) (s : σ) (first second : List α) :
    run step s (first ++ second) = run step (run step s first) second := by
  unfold run
  rw [List.foldl_append]

/-- Every state of the run, the first and the last included, satisfies `P`. -/
def Always (step : σ → α → σ) (P : σ → Prop) : σ → List α → Prop
  | s, [] => P s
  | s, a :: actions => P s ∧ Always step P (step s a) actions

/-- Every step of the run meets `C` in the state it is taken from. -/
def Meets (step : σ → α → σ) (C : σ → α → Prop) : σ → List α → Prop
  | _, [] => True
  | s, a :: actions => C s a ∧ Meets step C (step s a) actions

instance decidableMeets (step : σ → α → σ) (C : σ → α → Prop) [∀ s a, Decidable (C s a)] :
    (s : σ) → (actions : List α) → Decidable (Meets step C s actions)
  | _, [] => isTrue trivial
  | s, a :: actions => @instDecidableAnd _ _ _ (decidableMeets step C (step s a) actions)

variable {step : σ → α → σ} {actions : List α}

theorem Always.head {P : σ → Prop} {s : σ}
    (h : Always step P s actions) : P s := by
  cases actions with
  | nil => exact h
  | cons a rest => exact h.1

theorem Always.last {P : σ → Prop} {s : σ}
    (h : Always step P s actions) : P (run step s actions) := by
  induction actions generalizing s with
  | nil => exact h
  | cons a rest ih => exact ih h.2

theorem Always.mono {P Q : σ → Prop} (hPQ : ∀ s, P s → Q s) {s : σ}
    {actions : List α} (h : Always step P s actions) : Always step Q s actions := by
  induction actions generalizing s with
  | nil => exact hPQ s h
  | cons a rest ih => exact ⟨hPQ s h.1, ih h.2⟩

variable {first second : List α}

/-- The state after any prefix of the run satisfies `P`. -/
theorem Always.initial {P : σ → Prop} {s : σ}
    (h : Always step P s (first ++ second)) : P (run step s first) := by
  induction first generalizing s with
  | nil => exact Always.head h
  | cons a rest ih => exact ih h.2

variable {C : σ → α → Prop}

theorem Meets.initial {s : σ}
    (h : Meets step C s (first ++ second)) : Meets step C s first := by
  induction first generalizing s with
  | nil => trivial
  | cons a rest ih => exact ⟨h.1, ih h.2⟩

theorem Meets.final {s : σ}
    (h : Meets step C s (first ++ second)) : Meets step C (run step s first) second := by
  induction first generalizing s with
  | nil => exact h
  | cons a rest ih => exact ih h.2

theorem Meets.and {C D : σ → α → Prop} {s : σ}
    (hC : Meets step C s actions) (hD : Meets step D s actions) :
    Meets step (fun s a => C s a ∧ D s a) s actions := by
  induction actions generalizing s with
  | nil => trivial
  | cons a rest ih => exact ⟨⟨hC.1, hD.1⟩, ih hC.2 hD.2⟩

theorem Meets.of_forall {D : α → Prop}
    (h : ∀ a ∈ actions, D a) (s : σ) : Meets step (fun _ a => D a) s actions := by
  induction actions generalizing s with
  | nil => trivial
  | cons a rest ih =>
    exact ⟨h a List.mem_cons_self, ih (fun b hb => h b (List.mem_cons_of_mem a hb)) (step s a)⟩

theorem Meets.of_always {C D : σ → α → Prop} {I : σ → Prop}
    (hCD : ∀ s a, I s → C s a → D s a) {s : σ} {actions : List α} (hI : Always step I s actions)
    (hC : Meets step C s actions) : Meets step D s actions := by
  induction actions generalizing s with
  | nil => trivial
  | cons a rest ih => exact ⟨hCD s a hI.1 hC.1, ih hI.2 hC.2⟩

/-- An invariant of every step that meets `C` holds in every state of a run that meets `C`. -/
theorem always_of_meets {I : σ → Prop}
    (hstep : ∀ s a, I s → C s a → I (step s a)) {s : σ} {actions : List α} (h0 : I s)
    (hC : Meets step C s actions) : Always step I s actions := by
  induction actions generalizing s with
  | nil => exact h0
  | cons a rest ih => exact ⟨h0, ih (hstep s a h0 hC.1) hC.2⟩

theorem always_of_inv {I : σ → Prop} (hstep : ∀ s a, I s → I (step s a)) {s : σ}
    (h0 : I s) (actions : List α) : Always step I s actions := by
  induction actions generalizing s with
  | nil => exact h0
  | cons a rest ih => exact ⟨h0, ih (hstep s a h0)⟩

/-- Where leaving `C` at once leaves `P`, a run that stays inside `P` meets `C` at every step. -/
theorem meets_of_always {I P : σ → Prop}
    (hstep : ∀ s a, I s → C s a → I (step s a))
    (hleave : ∀ s a, I s → ¬C s a → ¬P (step s a)) {s : σ} {actions : List α} (h0 : I s)
    (hP : Always step P s actions) : Meets step C s actions := by
  induction actions generalizing s with
  | nil => trivial
  | cons a rest ih =>
    have hC : C s a := by
      by_contra hn
      exact hleave s a h0 hn hP.2.head
    exact ⟨hC, ih (hstep s a h0 hC) hP.2⟩

/-! ## Picking a task -/

variable {τ κ : Type*} {tasks : List τ} {index : Nat} {picked task : τ}

/-- Where tasks have different keys, those that remain do not have the key of the one picked. -/
theorem ne_of_mem_eraseIdx {key : τ → κ} (hnodup : (tasks.map key).Nodup)
    (hpicked : tasks[index]? = some picked) (htask : task ∈ tasks.eraseIdx index) :
    key task ≠ key picked := by
  intro heq
  rcases List.mem_eraseIdx_iff_getElem?.mp htask with ⟨place, hne, hplace⟩
  have hi : (tasks.map key)[index]? = some (key picked) := by
    rw [List.getElem?_map, hpicked]
    rfl
  have hj : (tasks.map key)[place]? = some (key picked) := by
    rw [List.getElem?_map, hplace, ← heq]
    rfl
  have hlt : index < (tasks.map key).length := by
    rcases List.getElem?_eq_some_iff.mp hi with ⟨hlt, -⟩
    exact hlt
  exact hne ((List.getElem?_inj hlt hnodup).mp (hi.trans hj.symm)).symm

theorem mem_eraseIdx_of_ne (htask : task ∈ tasks) (hne : tasks[index]? ≠ some task) :
    task ∈ tasks.eraseIdx index := by
  rcases List.mem_iff_getElem?.mp htask with ⟨place, hplace⟩
  rw [List.mem_eraseIdx_iff_getElem?]
  refine ⟨place, ?_, hplace⟩
  rintro rfl
  exact hne hplace

end HarnessControl.Library
