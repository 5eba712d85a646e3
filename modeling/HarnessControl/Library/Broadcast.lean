import Mathlib.Data.List.Basic

/-!
# Re-entrant broadcast

Published values wait in a queue.  One loop takes them out, one after the other, and calls for each
the listeners that are attached when it is taken out; a callback may publish, attach and detach
listeners, or throw, which detaches its own listener.  A listener that stays attached is called with
what is published from its registration on, in the order of publication.
-/

namespace HarnessControl.Library

variable {ε τ : Type*}

/-- A listener with what it has been called with; `since` values were published before it was
registered, and `tag` is what its subscriber remembers of that moment. -/
structure Listener (ε τ : Type*) where
  id : Nat
  received : List ε
  attached : Bool
  since : Nat
  tag : τ
deriving DecidableEq

structure Broadcast (ε τ : Type*) where
  publishing : Bool
  /-- What was admitted to the queue since the loop began. -/
  admissions : Nat
  queue : List ε
  /-- The value that is being delivered, and the listeners that are still to be called. -/
  current : Option (ε × List Nat)
  listeners : List (Listener ε τ)
  published : List ε

namespace Broadcast

/-- No listener is there yet for what was published before. -/
def opened (published : List ε) : Broadcast ε τ := ⟨false, 0, [], none, [], published⟩

/-- The loop is at work and its queue admits no more. -/
def full (limit : Nat) (b : Broadcast ε τ) : Bool := b.publishing && decide (limit ≤ b.admissions)

def publish (value : ε) (b : Broadcast ε τ) : Broadcast ε τ :=
  { b with
    publishing := true
    admissions := b.admissions + 1
    queue := b.queue ++ [value]
    published := b.published ++ [value] }

def subscribe (tag : τ) (b : Broadcast ε τ) : Broadcast ε τ :=
  { b with listeners := b.listeners ++ [⟨b.listeners.length, [], true, b.published.length, tag⟩] }

def change (id : Nat) (f : Listener ε τ → Listener ε τ) (b : Broadcast ε τ) : Broadcast ε τ :=
  { b with listeners := b.listeners.map fun listener =>
      if listener.id = id then f listener else listener }

def unsubscribe (id : Nat) (b : Broadcast ε τ) : Broadcast ε τ :=
  b.change id fun listener => { listener with attached := false }

def attachedIds (b : Broadcast ε τ) : List Nat :=
  (b.listeners.filter fun listener => listener.attached).map Listener.id

/-- The next step of the loop; a callback may throw. -/
def advance (throws : Bool) (b : Broadcast ε τ) : Broadcast ε τ :=
  match b.current with
  | some (value, id :: rest) =>
    { b.change id fun listener => { listener with
        received := listener.received ++ [value],
        attached := listener.attached && !throws } with current := some (value, rest) }
  | some (_, []) => { b with current := none }
  | none =>
    match b.queue with
    | value :: rest => { b with current := some (value, b.attachedIds), queue := rest }
    | [] => { b with publishing := false, admissions := 0 }

/-- What a listener is still to be called with. -/
def pending (b : Broadcast ε τ) (listener : Listener ε τ) : List ε :=
  (match b.current with
    | some (value, rest) => if listener.id ∈ rest then [value] else []
    | none => []) ++ b.queue

/-- What holds between a loop and its listeners. -/
structure Sound (b : Broadcast ε τ) : Prop where
  ids : ∀ listener ∈ b.listeners, listener.id < b.listeners.length
  unique : b.listeners.Pairwise fun a c => a.id ≠ c.id
  calls : ∀ value rest, b.current = some (value, rest) →
    rest.Nodup ∧ ∀ id ∈ rest, id < b.listeners.length
  idle : b.publishing = false → b.current = none ∧ b.queue = []
  /-- The queue is the end of what was published. -/
  tail : ∃ taken, b.published = taken ++ b.queue
  delivered : ∀ listener ∈ b.listeners, listener.attached = true → ∃ k ≤ listener.since,
    listener.received ++ b.pending listener = b.published.drop k
  since : ∀ listener ∈ b.listeners, listener.since ≤ b.published.length

theorem Sound.opened (published : List ε) : Sound (opened published : Broadcast ε τ) where
  ids _ hmem := absurd hmem List.not_mem_nil
  unique := List.Pairwise.nil
  calls _ _ h := nomatch h
  idle _ := ⟨rfl, rfl⟩
  tail := ⟨published, (List.append_nil published).symm⟩
  delivered _ hmem := absurd hmem List.not_mem_nil
  since _ hmem := absurd hmem List.not_mem_nil

variable {b : Broadcast ε τ}

theorem Sound.publish (h : Sound b) (value : ε) : Sound (b.publish value) where
  ids := h.ids
  unique := h.unique
  calls := h.calls
  idle hpublishing := nomatch hpublishing
  tail := by
    rcases h.tail with ⟨taken, htaken⟩
    refine ⟨taken, ?_⟩
    change b.published ++ [value] = taken ++ (b.queue ++ [value])
    rw [htaken, List.append_assoc]
  delivered listener hmem hattached := by
    rcases h.delivered listener hmem hattached with ⟨k, hk, hreceived⟩
    refine ⟨k, hk, ?_⟩
    have hle := Nat.le_trans hk (h.since listener hmem)
    change listener.received ++ ((match b.current with
      | some (value, rest) => if listener.id ∈ rest then [value] else []
      | none => []) ++ (b.queue ++ [value])) = (b.published ++ [value]).drop k
    rw [List.drop_append_of_le_length hle, ← hreceived, pending]
    simp only [List.append_assoc]
  since listener hmem := by
    change listener.since ≤ (b.published ++ [value]).length
    rw [List.length_append]
    exact Nat.le_add_right_of_le (h.since listener hmem)

theorem Sound.subscribe (h : Sound b) (tag : τ) : Sound (b.subscribe tag) where
  ids listener hmem := by
    change listener.id < (b.listeners ++ [_]).length
    rw [List.length_append, List.length_singleton]
    rcases List.mem_append.mp hmem with hold | hnew
    · have hlt := h.ids listener hold
      omega
    · rw [List.mem_singleton.mp hnew]
      exact Nat.lt_succ_self _
  unique := by
    refine List.pairwise_append.mpr ⟨h.unique, List.pairwise_singleton _ _, ?_⟩
    intro old hold new hnew
    rw [List.mem_singleton.mp hnew]
    exact Nat.ne_of_lt (h.ids old hold)
  calls value rest hcurrent := by
    rcases h.calls value rest hcurrent with ⟨hnodup, hlt⟩
    refine ⟨hnodup, fun id hid => ?_⟩
    change id < (b.listeners ++ [_]).length
    rw [List.length_append, List.length_singleton]
    have hid := hlt id hid
    omega
  idle := h.idle
  tail := h.tail
  delivered listener hmem hattached := by
    rcases List.mem_append.mp hmem with hold | hnew
    · exact h.delivered listener hold hattached
    · rw [List.mem_singleton.mp hnew]
      rcases h.tail with ⟨taken, htaken⟩
      refine ⟨taken.length, ?_, ?_⟩
      · change taken.length ≤ b.published.length
        rw [htaken, List.length_append]
        exact Nat.le_add_right _ _
      · -- the new listener is not among those that the current value still goes to
        change [] ++ b.pending ⟨b.listeners.length, [], true, b.published.length, tag⟩ =
          b.published.drop taken.length
        rw [List.nil_append, htaken, List.drop_left]
        unfold pending
        cases hcurrent : b.current with
        | none => rfl
        | some current =>
          rcases current with ⟨value, rest⟩
          have hfresh : b.listeners.length ∉ rest := fun hid =>
            Nat.lt_irrefl _ ((h.calls value rest hcurrent).2 _ hid)
          dsimp only
          rw [if_neg hfresh]
          rfl
  since listener hmem := by
    rcases List.mem_append.mp hmem with hold | hnew
    · exact h.since listener hold
    · rw [List.mem_singleton.mp hnew]
      exact Nat.le_refl _

/-! ## Changes of a listener -/

theorem change_mem {id : Nat} {f : Listener ε τ → Listener ε τ} {listener : Listener ε τ}
    (hmem : listener ∈ (b.change id f).listeners) :
    ∃ old ∈ b.listeners, (old.id = id ∧ listener = f old) ∨ (old.id ≠ id ∧ listener = old) := by
  rcases List.mem_map.mp hmem with ⟨old, hold, heq⟩
  refine ⟨old, hold, ?_⟩
  by_cases hid : old.id = id
  · rw [if_pos hid] at heq
    exact Or.inl ⟨hid, heq.symm⟩
  · rw [if_neg hid] at heq
    exact Or.inr ⟨hid, heq.symm⟩

/-- A change that keeps the id and the registration of the listener. -/
structure Keeps (f : Listener ε τ → Listener ε τ) : Prop where
  id : ∀ listener, (f listener).id = listener.id
  since : ∀ listener, (f listener).since = listener.since
  tag : ∀ listener, (f listener).tag = listener.tag

theorem Keeps.detach : Keeps fun listener : Listener ε τ => { listener with attached := false } :=
  ⟨fun _ => rfl, fun _ => rfl, fun _ => rfl⟩

theorem Keeps.call (value : ε) (throws : Bool) : Keeps fun listener : Listener ε τ => { listener with
    received := listener.received ++ [value], attached := listener.attached && !throws } :=
  ⟨fun _ => rfl, fun _ => rfl, fun _ => rfl⟩

theorem change_length (id : Nat) (f : Listener ε τ → Listener ε τ) :
    (b.change id f).listeners.length = b.listeners.length := List.length_map _

theorem Sound.change_ids (h : Sound b) (id : Nat) {f : Listener ε τ → Listener ε τ}
    (hkeeps : Keeps f) : (∀ listener ∈ (b.change id f).listeners,
      listener.id < b.listeners.length ∧ listener.since ≤ b.published.length) ∧
      (b.change id f).listeners.Pairwise fun a c => a.id ≠ c.id := by
  constructor
  · intro listener hmem
    rcases change_mem hmem with ⟨old, hold, ⟨-, rfl⟩ | ⟨-, rfl⟩⟩
    · rw [hkeeps.id, hkeeps.since]
      exact ⟨h.ids old hold, h.since old hold⟩
    · exact ⟨h.ids listener hold, h.since listener hold⟩
  · have hid : ∀ listener : Listener ε τ,
        (if listener.id = id then f listener else listener).id = listener.id := by
      intro listener
      split
      · exact hkeeps.id listener
      · rfl
    refine List.pairwise_map.mpr (h.unique.imp fun hne => ?_)
    rw [hid, hid]
    exact hne

theorem Sound.unsubscribe (h : Sound b) (id : Nat) : Sound (b.unsubscribe id) := by
  rcases h.change_ids id Keeps.detach with ⟨hids, hunique⟩
  refine ⟨fun listener hmem => ?_, hunique, fun value rest hcurrent => ?_, h.idle, h.tail,
    fun listener hmem hattached => ?_, fun listener hmem => (hids listener hmem).2⟩
  · rw [show (b.unsubscribe id).listeners.length = b.listeners.length from change_length id _]
    exact (hids listener hmem).1
  · rw [show (b.unsubscribe id).listeners.length = b.listeners.length from change_length id _]
    exact h.calls value rest hcurrent
  · rcases change_mem hmem with ⟨old, hold, ⟨-, rfl⟩ | ⟨-, rfl⟩⟩
    · cases hattached
    · exact h.delivered listener hold hattached

theorem attachedIds_nodup (h : Sound b) : b.attachedIds.Nodup := by
  unfold attachedIds List.Nodup
  exact List.pairwise_map.mpr (h.unique.filter _)

theorem Sound.call (h : Sound b) {value : ε} {id : Nat} {rest : List Nat}
    (hcurrent : b.current = some (value, id :: rest)) (throws : Bool) :
    Sound { b.change id fun listener => { listener with
        received := listener.received ++ [value],
        attached := listener.attached && !throws } with current := some (value, rest) } := by
  rcases h.change_ids id (Keeps.call value throws) with ⟨hids, hunique⟩
  rcases h.calls value (id :: rest) hcurrent with ⟨hnodup, hlt⟩
  rw [List.nodup_cons] at hnodup
  refine ⟨fun listener hmem => ?_, hunique, fun other calls hcalls => ?_, fun hidle => ?_, h.tail,
    fun listener hmem hattached => ?_, fun listener hmem => (hids listener hmem).2⟩
  · change listener.id < (b.change id _).listeners.length
    rw [change_length]
    exact (hids listener hmem).1
  · cases hcalls
    refine ⟨hnodup.2, fun other hother => ?_⟩
    change other < (b.change id _).listeners.length
    rw [change_length]
    exact hlt other (List.mem_cons_of_mem _ hother)
  · rw [(h.idle hidle).1] at hcurrent
    cases hcurrent
  · rcases change_mem hmem with ⟨old, hold, ⟨hid, rfl⟩ | ⟨hid, rfl⟩⟩
    · -- the listener that is called
      have hold_attached : old.attached = true := by
        have hboth : (old.attached && !throws) = true := hattached
        rw [Bool.and_eq_true] at hboth
        exact hboth.1
      rcases h.delivered old hold hold_attached with ⟨k, hk, hreceived⟩
      refine ⟨k, hk, ?_⟩
      rw [pending, hcurrent] at hreceived
      dsimp only at hreceived
      rw [hid, if_pos List.mem_cons_self] at hreceived
      change old.received ++ [value] ++ ((if old.id ∈ rest then [value] else []) ++ b.queue) =
        b.published.drop k
      rw [← hreceived, hid, if_neg hnodup.1, List.nil_append, List.append_assoc]
    · rcases h.delivered listener hold hattached with ⟨k, hk, hreceived⟩
      refine ⟨k, hk, ?_⟩
      rw [pending, hcurrent] at hreceived
      simp only [List.mem_cons, hid, false_or] at hreceived
      exact hreceived

theorem Sound.advance (h : Sound b) (throws : Bool) : Sound (b.advance throws) := by
  unfold Broadcast.advance
  split
  · rename_i value id rest hcurrent
    exact h.call hcurrent throws
  · rename_i value hcurrent
    refine ⟨h.ids, h.unique, fun _ _ hnone => (nomatch hnone), fun hidle => ⟨rfl, (h.idle hidle).2⟩,
      h.tail, fun listener hmem hattached => ?_, h.since⟩
    rcases h.delivered listener hmem hattached with ⟨k, hk, hreceived⟩
    refine ⟨k, hk, ?_⟩
    rw [← hreceived, pending, pending, hcurrent]
    simp
  · rename_i hcurrent
    split
    · rename_i value rest hqueue
      rcases h.tail with ⟨taken, htaken⟩
      refine ⟨h.ids, h.unique, fun other calls hcalls => ?_, fun hidle => ?_, ?_,
        fun listener hmem hattached => ?_, h.since⟩
      · cases hcalls
        refine ⟨attachedIds_nodup h, fun id hid => ?_⟩
        rcases List.mem_map.mp hid with ⟨listener, hlistener, rfl⟩
        exact h.ids listener (List.mem_of_mem_filter hlistener)
      · rw [(h.idle hidle).2] at hqueue
        cases hqueue
      · refine ⟨taken ++ [value], ?_⟩
        change b.published = taken ++ [value] ++ rest
        rw [htaken, hqueue, List.append_assoc]
        rfl
      · rcases h.delivered listener hmem hattached with ⟨k, hk, hreceived⟩
        refine ⟨k, hk, ?_⟩
        rw [pending, hcurrent, hqueue] at hreceived
        rw [← hreceived, pending]
        have hcalled : listener.id ∈ b.attachedIds :=
          List.mem_map_of_mem (List.mem_filter.mpr ⟨hmem, hattached⟩)
        dsimp only
        rw [if_pos hcalled]
        rfl
    · rename_i hqueue
      refine ⟨h.ids, h.unique, h.calls, fun _ => ⟨hcurrent, hqueue⟩, h.tail, h.delivered, h.since⟩

/-! ## Registrations -/

/-- Every listener was there before, registered as it was. -/
def SameListeners (before after : Broadcast ε τ) : Prop :=
  ∀ listener ∈ after.listeners, ∃ old ∈ before.listeners,
    listener.since = old.since ∧ listener.tag = old.tag

theorem SameListeners.refl (b : Broadcast ε τ) : SameListeners b b :=
  fun listener hmem => ⟨listener, hmem, rfl, rfl⟩

theorem SameListeners.change (id : Nat) {f : Listener ε τ → Listener ε τ} (hkeeps : Keeps f) :
    SameListeners b (b.change id f) := by
  intro listener hmem
  rcases change_mem hmem with ⟨old, hold, ⟨-, rfl⟩ | ⟨-, rfl⟩⟩
  · exact ⟨old, hold, hkeeps.since old, hkeeps.tag old⟩
  · exact ⟨listener, hold, rfl, rfl⟩

theorem SameListeners.advance (throws : Bool) : SameListeners b (b.advance throws) := by
  unfold Broadcast.advance
  split
  · rename_i value id rest _
    exact SameListeners.change id (Keeps.call value throws)
  · exact SameListeners.refl b
  · split <;> exact SameListeners.refl b

@[simp] theorem advance_published (throws : Bool) :
    (b.advance throws).published = b.published := by
  unfold Broadcast.advance
  repeat' split
  all_goals rfl

end Broadcast

end HarnessControl.Library
