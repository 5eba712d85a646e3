import Mathlib

/-!
# Announcements to a set of watchers

A loop over a set that may change under it: it calls the watchers in the order of their
registration, those that are registered while it runs among them, and passes over those that have
left.  A callback may register and detach watchers, throw, which detaches its own watcher, or start
a further announcement, which is made to its end first.
-/

namespace HarnessControl.Library

variable {ε τ : Type*}

/-- A registration, with what its callback has been called with and a tag of its subscriber. -/
structure Watcher (ε τ : Type*) where
  told : List ε
  attached : Bool
  tag : τ
deriving DecidableEq

/-- A loop: the value that is being told with the place of the next watcher, and the values that
come after it. -/
structure Frame (ε : Type*) where
  current : Option (ε × Nat)
  queue : List ε

structure Announcement (ε τ : Type*) where
  /-- The innermost loop stands first. -/
  frames : List (Frame ε)
  watchers : List (Watcher ε τ)

/-- What a loop has still to tell the watcher at a place. -/
def Frame.pending (frame : Frame ε) (place : Nat) : List ε :=
  (match frame.current with
    | some (value, next) => if next ≤ place then [value] else []
    | none => []) ++ frame.queue

namespace Announcement

def opened : Announcement ε τ := ⟨[], []⟩

def idle (a : Announcement ε τ) : Bool := a.frames.isEmpty

def announce (values : List ε) (a : Announcement ε τ) : Announcement ε τ :=
  { a with frames := ⟨none, values⟩ :: a.frames }

def subscribe (tag : τ) (a : Announcement ε τ) : Announcement ε τ :=
  { a with watchers := a.watchers ++ [⟨[], true, tag⟩] }

def unsubscribe (place : Nat) (a : Announcement ε τ) : Announcement ε τ :=
  { a with watchers := a.watchers.modify place fun watcher => { watcher with attached := false } }

/-- Every attached watcher is told a last value and leaves. -/
def clear (value : ε) (a : Announcement ε τ) : Announcement ε τ :=
  { a with watchers := a.watchers.map fun watcher =>
      if watcher.attached then { watcher with told := watcher.told ++ [value], attached := false }
      else watcher }

/-- The tags of the attached watchers change. -/
def retag (f : τ → τ) (a : Announcement ε τ) : Announcement ε τ :=
  { a with watchers := a.watchers.map fun watcher =>
      if watcher.attached then { watcher with tag := f watcher.tag } else watcher }

/-- The call of one watcher. -/
def Watcher.call (value : ε) (throws : Bool) (watcher : Watcher ε τ) : Watcher ε τ :=
  if watcher.attached then
    { watcher with told := watcher.told ++ [value], attached := !throws }
  else watcher

theorem Watcher.call_attached (value : ε) (throws : Bool) {watcher : Watcher ε τ}
    (h : watcher.attached = true) : Watcher.call value throws watcher =
      ⟨watcher.told ++ [value], !throws, watcher.tag⟩ := if_pos h

theorem Watcher.call_detached (value : ε) (throws : Bool) {watcher : Watcher ε τ}
    (h : ¬ watcher.attached = true) : Watcher.call value throws watcher = watcher := if_neg h

/-- The next step of the innermost loop. -/
def advance (throws : Bool) (a : Announcement ε τ) : Announcement ε τ :=
  match a.frames with
  | [] => a
  | ⟨some (value, next), queue⟩ :: outer =>
    if next < a.watchers.length then
      ⟨⟨some (value, next + 1), queue⟩ :: outer,
        a.watchers.modify next (Watcher.call value throws)⟩
    else { a with frames := ⟨none, queue⟩ :: outer }
  | ⟨none, value :: queue⟩ :: outer => { a with frames := ⟨some (value, 0), queue⟩ :: outer }
  | ⟨none, []⟩ :: outer => { a with frames := outer }

/-- What the watcher at a place is still to be told. -/
def pending (a : Announcement ε τ) (place : Nat) : List ε :=
  a.frames.flatMap fun frame => frame.pending place

/-- What the loops have still to tell anyone. -/
def upcoming (a : Announcement ε τ) : List ε :=
  a.frames.flatMap fun frame => (frame.current.map Prod.fst).toList ++ frame.queue

theorem pending_subset (a : Announcement ε τ) (place : Nat) : a.pending place ⊆ a.upcoming := by
  intro value hvalue
  rcases List.mem_flatMap.mp hvalue with ⟨frame, hframe, hpending⟩
  refine List.mem_flatMap.mpr ⟨frame, hframe, ?_⟩
  unfold Frame.pending at hpending
  rcases List.mem_append.mp hpending with hcurrent | hqueue
  · apply List.mem_append_left
    split at hcurrent
    · rename_i current next hsome
      rw [hsome]
      split at hcurrent
      · exact hcurrent
      · exact absurd hcurrent List.not_mem_nil
    · exact absurd hcurrent List.not_mem_nil
  · exact List.mem_append_right _ hqueue

theorem advance_upcoming (a : Announcement ε τ) (throws : Bool) :
    (a.advance throws).upcoming ⊆ a.upcoming := by
  unfold advance upcoming
  split <;> rename_i hframes
  · exact List.Subset.refl _
  · rw [hframes]
    split
    · exact List.Subset.refl _
    · intro value hvalue
      exact List.mem_cons_of_mem _ hvalue
  · rw [hframes]
    exact List.Subset.refl _
  · rw [hframes]
    exact List.Subset.refl _

theorem pending_call (value : ε) (next : Nat) (queue : List ε) (outer : List (Frame ε))
    (watchers : List (Watcher ε τ)) (place : Nat) :
    pending ⟨⟨some (value, next), queue⟩ :: outer, watchers⟩ place =
      (if next ≤ place then [value] else []) ++
        (queue ++ outer.flatMap fun frame => frame.pending place) := by
  simp [pending, Frame.pending]

/-! ## Laws of what is told

A law of the told values that holds of each first part of them, `P`, is kept by every registration;
a law of all that is told in the end, `Q`, by the attached ones. -/

variable {P Q : τ → List ε → Prop}

structure Kept (P Q : τ → List ε → Prop) (a : Announcement ε τ) : Prop where
  told : ∀ watcher ∈ a.watchers, P watcher.tag watcher.told
  whole : ∀ place watcher, a.watchers[place]? = some watcher → watcher.attached = true →
    P watcher.tag (watcher.told ++ a.pending place) ∧ Q watcher.tag (watcher.told ++ a.pending place)

theorem Kept.opened : Kept P Q (opened : Announcement ε τ) where
  told _ hmem := absurd hmem List.not_mem_nil
  whole _ _ hget := nomatch hget

variable {a : Announcement ε τ}

theorem pending_idle (hidle : a.idle = true) (place : Nat) : a.pending place = [] := by
  unfold pending
  rw [List.isEmpty_iff.mp hidle, List.flatMap_nil]

theorem Kept.idle (h : Kept P Q a) (hidle : a.idle = true) {watcher : Watcher ε τ}
    (hmem : watcher ∈ a.watchers) (hattached : watcher.attached = true) :
    Q watcher.tag watcher.told := by
  rcases List.mem_iff_getElem?.mp hmem with ⟨place, hget⟩
  have hwhole := (h.whole place watcher hget hattached).2
  rw [pending_idle hidle, List.append_nil] at hwhole
  exact hwhole

theorem Kept.subscribe (h : Kept P Q a) {tag : τ} (htold : P tag [])
    (hwhole : P tag (a.pending a.watchers.length) ∧ Q tag (a.pending a.watchers.length)) :
    Kept P Q (a.subscribe tag) where
  told watcher hmem := by
    rcases List.mem_append.mp hmem with hold | hnew
    · exact h.told watcher hold
    · rw [List.mem_singleton.mp hnew]
      exact htold
  whole place watcher hget hattached := by
    unfold Announcement.subscribe at hget
    rcases Nat.lt_trichotomy place a.watchers.length with hlt | heq | hgt
    · rw [List.getElem?_append_left hlt] at hget
      exact h.whole place watcher hget hattached
    · subst heq
      rw [List.getElem?_concat_length, Option.some_inj] at hget
      subst hget
      exact hwhole
    · rw [List.getElem?_eq_none (by simp; omega)] at hget
      exact nomatch hget

theorem getElem?_modify_cases {list : List (Watcher ε τ)} {place i : Nat}
    {f : Watcher ε τ → Watcher ε τ} {watcher : Watcher ε τ}
    (hget : (list.modify place f)[i]? = some watcher) :
    (∃ old, place = i ∧ list[i]? = some old ∧ watcher = f old) ∨
      (place ≠ i ∧ list[i]? = some watcher) := by
  rw [List.getElem?_modify] at hget
  rcases Option.map_eq_some_iff.mp hget with ⟨old, hold, heq⟩
  by_cases hi : place = i
  · rw [if_pos hi] at heq
    exact Or.inl ⟨old, hi, hold, heq.symm⟩
  · rw [if_neg hi] at heq
    exact Or.inr ⟨hi, heq ▸ hold⟩

theorem mem_modify {list : List (Watcher ε τ)} {place : Nat} {f : Watcher ε τ → Watcher ε τ}
    {watcher : Watcher ε τ} (hmem : watcher ∈ list.modify place f) :
    watcher ∈ list ∨ ∃ old ∈ list, list[place]? = some old ∧ watcher = f old := by
  rcases List.mem_iff_getElem?.mp hmem with ⟨i, hget⟩
  rcases getElem?_modify_cases hget with ⟨old, rfl, hold, heq⟩ | ⟨-, hold⟩
  · exact Or.inr ⟨old, List.mem_of_getElem? hold, hold, heq⟩
  · exact Or.inl (List.mem_of_getElem? hold)

theorem Kept.unsubscribe (h : Kept P Q a) (place : Nat) : Kept P Q (a.unsubscribe place) where
  told watcher hmem := by
    rcases mem_modify hmem with hold | ⟨old, hold, -, rfl⟩
    · exact h.told watcher hold
    · exact h.told old hold
  whole i watcher hget hattached := by
    rcases getElem?_modify_cases hget with ⟨old, -, -, rfl⟩ | ⟨-, hold⟩
    · exact nomatch hattached
    · exact h.whole i watcher hold hattached

theorem Kept.clear {value : ε}
    (hlast : ∀ tag told, P tag told → P tag (told ++ [value])) (h : Kept P Q a) :
    Kept P Q (a.clear value) := by
  constructor
  · intro watcher hmem
    rcases List.mem_map.mp hmem with ⟨old, hold, rfl⟩
    split
    · exact hlast _ _ (h.told old hold)
    · exact h.told old hold
  · intro place watcher hget hattached
    change (a.watchers.map _)[place]? = some watcher at hget
    rw [List.getElem?_map] at hget
    rcases Option.map_eq_some_iff.mp hget with ⟨old, hold, rfl⟩
    split at hattached
    · exact nomatch hattached
    · rename_i hdetached
      exact absurd hattached hdetached

theorem Kept.announce {R : τ → List ε → Prop}
    (hfirst : ∀ tag told rest, P tag (told ++ rest) → P tag told) (h : Kept P Q a) (f : τ → τ)
    (values : List ε)
    (hnext : ∀ place watcher, a.watchers[place]? = some watcher → watcher.attached = true →
      P watcher.tag (watcher.told ++ a.pending place) →
      Q watcher.tag (watcher.told ++ a.pending place) →
      P (f watcher.tag) (watcher.told ++ (values ++ a.pending place)) ∧
        R (f watcher.tag) (watcher.told ++ (values ++ a.pending place))) :
    Kept P R ((a.retag f).announce values) := by
  have hall : ∀ place watcher, a.watchers[place]? = some watcher → watcher.attached = true →
      P (f watcher.tag) (watcher.told ++ (values ++ a.pending place)) ∧
        R (f watcher.tag) (watcher.told ++ (values ++ a.pending place)) := by
    intro place watcher hget hattached
    have hwhole := h.whole place watcher hget hattached
    exact hnext place watcher hget hattached hwhole.1 hwhole.2
  constructor
  · intro watcher hmem
    rcases List.mem_map.mp hmem with ⟨old, hold, rfl⟩
    by_cases hattached : old.attached = true
    · rw [if_pos hattached]
      rcases List.mem_iff_getElem?.mp hold with ⟨place, hget⟩
      exact hfirst _ _ _ (hall place old hget hattached).1
    · rw [if_neg hattached]
      exact h.told old hold
  · intro place watcher hget hattached
    change (a.watchers.map _)[place]? = some watcher at hget
    rw [List.getElem?_map] at hget
    rcases Option.map_eq_some_iff.mp hget with ⟨old, hold, rfl⟩
    by_cases holdAttached : old.attached = true
    · rw [if_pos holdAttached]
      exact hall place old hold holdAttached
    · rw [if_neg holdAttached] at hattached
      exact absurd hattached holdAttached

theorem retag_id : a.retag id = a := by
  unfold retag
  have hsame : (fun watcher : Watcher ε τ =>
      if watcher.attached then { watcher with tag := id watcher.tag } else watcher) = id := by
    funext watcher
    split <;> rfl
  rw [hsame, List.map_id]

theorem Kept.advance (hfirst : ∀ tag told rest, P tag (told ++ rest) → P tag told)
    (h : Kept P Q a) (throws : Bool) : Kept P Q (a.advance throws) := by
  rcases hframes : a.frames with _ | ⟨⟨_ | ⟨value, next⟩, queue⟩, outer⟩
  · unfold Announcement.advance
    rw [hframes]
    exact h
  · -- the loop takes its next value, or ends
    have hpending : ∀ place, (a.advance throws).pending place = a.pending place := by
      intro place
      unfold Announcement.advance pending
      rw [hframes]
      cases queue with
      | nil => rfl
      | cons value queue => simp [Frame.pending]
    have hwatchers : (a.advance throws).watchers = a.watchers := by
      unfold Announcement.advance
      rw [hframes]
      cases queue <;> rfl
    constructor
    · rw [hwatchers]
      exact h.told
    · intro place watcher hget hattached
      rw [hwatchers] at hget
      rw [hpending place]
      exact h.whole place watcher hget hattached
  · unfold Announcement.advance
    rw [hframes]
    dsimp only
    have hat : ∀ place, a.pending place =
        (if next ≤ place then [value] else []) ++
          (queue ++ outer.flatMap fun frame => frame.pending place) := by
      intro place
      rw [← pending_call value next queue outer a.watchers place, ← hframes]
    split
    · rename_i hnext
      constructor
      · intro watcher hmem
        rcases mem_modify hmem with hold | ⟨old, hold, hget, rfl⟩
        · exact h.told watcher hold
        · by_cases hattached : old.attached = true
          · rw [Watcher.call_attached value throws hattached]
            have hwhole := (h.whole next old hget hattached).1
            rw [hat, if_pos (Nat.le_refl next), ← List.append_assoc] at hwhole
            exact hfirst _ _ _ hwhole
          · rw [Watcher.call_detached value throws hattached]
            exact h.told old hold
      · intro place watcher hget hattached
        rw [pending_call]
        rcases getElem?_modify_cases hget with ⟨old, hplace, hold, rfl⟩ | ⟨hplace, hold⟩
        · by_cases holdAttached : old.attached = true
          · have hwhole := h.whole place old hold holdAttached
            rw [hat, if_pos (Nat.le_of_eq hplace), ← List.append_assoc] at hwhole
            rw [Watcher.call_attached value throws holdAttached, if_neg (by omega), List.nil_append]
            exact hwhole
          · rw [Watcher.call_detached value throws holdAttached] at hattached
            exact absurd hattached holdAttached
        · have hwhole := h.whole place watcher hold hattached
          rw [hat] at hwhole
          have hturn : next + 1 ≤ place ↔ next ≤ place := by omega
          simp only [hturn]
          exact hwhole
    · rename_i hnext
      constructor
      · exact h.told
      · intro place watcher hget hattached
        have hlt := (List.getElem?_eq_some_iff.mp hget).1
        have hwhole := h.whole place watcher hget hattached
        dsimp only at hlt
        rw [hat, if_neg (by omega)] at hwhole
        exact hwhole

end Announcement

end HarnessControl.Library
