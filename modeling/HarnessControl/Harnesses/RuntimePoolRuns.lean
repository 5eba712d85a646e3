import HarnessControl.Harnesses.RuntimePool

/-!
# Runs of the pool of runtimes

Every operation keeps the invariant of the pool.  A second fact about a step says which entries can
still be leased: none after the pool was closed, and never one whose removal has begun.
-/

namespace HarnessControl.Harnesses

open HarnessControl.Library

namespace RuntimePool

variable {capacity : Nat} {pool : RuntimePool}

/-! ## Changes of an entry -/

@[simp] theorem update_entry (id : Nat) (change : RuntimeEntry → RuntimeEntry)
    (pool : RuntimePool) : (pool.update id change).entry id = change (pool.entry id) := by
  unfold update
  exact Function.update_self ..

theorem update_entry_of_ne {id other : Nat} (hne : other ≠ id)
    (change : RuntimeEntry → RuntimeEntry) (pool : RuntimePool) :
    (pool.update id change).entry other = pool.entry other := by
  unfold update
  exact Function.update_of_ne hne ..

theorem update_update (id : Nat) (first second : RuntimeEntry → RuntimeEntry) (pool : RuntimePool) :
    (pool.update id first).update id second = pool.update id fun entry => second (first entry) := by
  unfold update
  simp

theorem update_congr {id : Nat} {first second : RuntimeEntry → RuntimeEntry}
    (heq : first (pool.entry id) = second (pool.entry id)) :
    pool.update id first = pool.update id second := by
  unfold update
  rw [heq]

@[simp] theorem update_self (id : Nat) (pool : RuntimePool) :
    (pool.update id fun entry => entry) = pool := by
  unfold update
  rw [Function.update_eq_self]

theorem remove_eq (caller : RemoveCaller) (id : Nat) (pool : RuntimePool) :
    pool.remove caller id =
      if (pool.entry id).runtime then
        (pool.update id RuntimeEntry.remove).await (.stopping id caller)
      else ((pool.update id RuntimeEntry.remove).delete id).removed caller := by
  unfold remove
  simp only [update_update, update_entry]
  by_cases hruntime : (pool.entry id).runtime = true
  · rw [if_pos hruntime, if_pos hruntime]
    congr 1
    apply update_congr
    unfold RuntimeEntry.remove
    rw [hruntime, Bool.or_true]
  · rw [if_neg hruntime, if_neg hruntime]
    congr 2
    apply update_congr
    unfold RuntimeEntry.remove
    rw [Bool.eq_false_iff.mpr hruntime, Bool.or_false]

theorem step_resume (capacity : Nat) (pool : RuntimePool) (index : Nat) (succeeds : Bool) :
    pool.step capacity (.resume index succeeds) =
      match pool.tasks[index]? with
      | none => pool
      | some task =>
        { pool with tasks := pool.tasks.eraseIdx index }.resume capacity task succeeds :=
  rfl

@[simp] theorem removed_entry (caller : RemoveCaller) (pool : RuntimePool) :
    (pool.removed caller).entry = pool.entry := by
  cases caller <;> rfl

@[simp] theorem removed_closed (caller : RemoveCaller) (pool : RuntimePool) :
    (pool.removed caller).closed = pool.closed := by
  cases caller <;> rfl

@[simp] theorem removed_created (caller : RemoveCaller) (pool : RuntimePool) :
    (pool.removed caller).created = pool.created := by
  cases caller <;> rfl

@[simp] theorem notRemoved_entry (caller : RemoveCaller) (pool : RuntimePool) :
    (pool.notRemoved caller).entry = pool.entry := by
  cases caller <;> rfl

@[simp] theorem notRemoved_closed (caller : RemoveCaller) (pool : RuntimePool) :
    (pool.notRemoved caller).closed = pool.closed := by
  cases caller <;> rfl

@[simp] theorem remove_closed (caller : RemoveCaller) (id : Nat) (pool : RuntimePool) :
    (pool.remove caller id).closed = pool.closed := by
  rw [remove_eq]
  split
  · rfl
  · exact removed_closed caller _

@[simp] theorem remove_created (caller : RemoveCaller) (id : Nat) (pool : RuntimePool) :
    (pool.remove caller id).created = pool.created := by
  rw [remove_eq]
  split
  · rfl
  · exact removed_created caller _

@[simp] theorem remove_entry (caller : RemoveCaller) (id : Nat) (pool : RuntimePool) :
    (pool.remove caller id).entry = (pool.update id RuntimeEntry.remove).entry := by
  rw [remove_eq]
  split
  · rfl
  · exact removed_entry caller _

end RuntimePool

namespace PoolKept

variable {capacity : Nat} {pool : RuntimePool}

theorem initial (capacity : Nat) : PoolKept capacity .initial where
  bounded := Nat.zero_le capacity
  nodup := List.nodup_nil
  known _ h := absurd h List.not_mem_nil
  unborn _ _ := rfl
  stopping _ _ h := absurd h List.not_mem_nil
  each _ := EntryKept.unborn false _

theorem refuse (h : PoolKept capacity pool) (error : PoolError) :
    PoolKept capacity (pool.refuse error) :=
  { h with }

theorem lt_created (h : PoolKept capacity pool) {id : Nat} (hborn : pool.entry id ≠ .unborn) :
    id < pool.created := by
  by_contra hge
  exact hborn (h.unborn id (Nat.le_of_not_lt hge))

theorem update (h : PoolKept capacity pool) {id : Nat} {change : RuntimeEntry → RuntimeEntry}
    (hknown : id < pool.created)
    (hstopped : (pool.entry id).stopped = true → (change (pool.entry id)).stopped = true)
    (hkept : EntryKept pool.closed (id ∈ pool.entries) (change (pool.entry id))) :
    PoolKept capacity (pool.update id change) where
  bounded := h.bounded
  nodup := h.nodup
  known := h.known
  unborn other hother := by
    have hne : other ≠ id := by
      have hle : pool.created ≤ other := hother
      omega
    rw [RuntimePool.update_entry_of_ne hne]
    exact h.unborn other hother
  stopping other caller hin := by
    have hold := h.stopping other caller hin
    by_cases heq : other = id
    · subst heq
      rw [RuntimePool.update_entry]
      exact hstopped hold
    · rw [RuntimePool.update_entry_of_ne heq]
      exact hold
  each other := by
    by_cases heq : other = id
    · subst heq
      rw [RuntimePool.update_entry]
      exact hkept
    · rw [RuntimePool.update_entry_of_ne heq]
      exact h.each other

theorem delete (h : PoolKept capacity pool) {id : Nat}
    (hend : (pool.entry id).runtime = true →
      (pool.entry id).exited = true ∨ (pool.entry id).stopped = true) :
    PoolKept capacity (pool.delete id) where
  bounded := Nat.le_trans List.length_erase_le h.bounded
  nodup := h.nodup.erase id
  known other hin := h.known other (List.mem_of_mem_erase hin)
  unborn := h.unborn
  stopping := h.stopping
  each other := by
    by_cases heq : other = id
    · subst heq
      exact (h.each other).deleted _ hend
    · apply (h.each other).mono fun hclosed => hclosed
      exact fun hin => (List.mem_erase_of_ne heq).mpr hin

theorem await (h : PoolKept capacity pool) {task : PoolTask}
    (hstopped : ∀ id caller, task = .stopping id caller → (pool.entry id).stopped = true) :
    PoolKept capacity (pool.await task) :=
  { h with
    stopping := by
      intro id caller hin
      obtain hold | hnew := List.mem_append.mp hin
      · exact h.stopping id caller hold
      · exact hstopped id caller (List.mem_singleton.mp hnew).symm }

theorem afterRemoval (h : PoolKept capacity pool) (caller : RemoveCaller) :
    PoolKept capacity (pool.removed caller) := by
  cases caller with
  | acquire key => exact h.await nofun
  | abandoned => exact h.refuse _
  | timer => exact h
  | other => exact h

theorem afterFailure (h : PoolKept capacity pool) (caller : RemoveCaller) :
    PoolKept capacity (pool.notRemoved caller) := by
  cases caller with
  | acquire key => exact h.refuse _
  | abandoned => exact h.refuse _
  | timer => exact h.await nofun
  | other => exact h

theorem remove_update (h : PoolKept capacity pool) {id : Nat} (caller : RemoveCaller)
    {change : RuntimeEntry → RuntimeEntry} (hknown : id < pool.created)
    (hstopped : (change (pool.entry id)).stopped = (pool.entry id).stopped)
    (hkept : EntryKept pool.closed (id ∈ pool.entries) (change (pool.entry id)).remove) :
    PoolKept capacity ((pool.update id change).remove caller id) := by
  have hupdated : PoolKept capacity (pool.update id fun entry => (change entry).remove) := by
    apply h.update hknown _ hkept
    intro hwas
    show ((change (pool.entry id)).stopped || _) = true
    rw [hstopped, hwas, Bool.true_or]
  rw [RuntimePool.remove_eq, RuntimePool.update_update, RuntimePool.update_entry]
  by_cases hruntime : (change (pool.entry id)).runtime = true
  · rw [if_pos hruntime]
    apply hupdated.await
    intro other caller' heq
    cases heq
    rw [RuntimePool.update_entry]
    exact hkept.stopped rfl hruntime
  · rw [if_neg hruntime]
    apply afterRemoval
    apply hupdated.delete
    intro hin
    rw [RuntimePool.update_entry] at hin
    exact absurd hin hruntime

theorem remove (h : PoolKept capacity pool) {id : Nat} (caller : RemoveCaller)
    (hknown : id < pool.created)
    (hbegun : (pool.entry id).runtime = true ∧ (pool.entry id).active = 0 ∨ pool.closed = true) :
    PoolKept capacity (pool.remove caller id) := by
  rw [← RuntimePool.update_self id pool]
  exact h.remove_update caller hknown rfl ((h.each id).removed _ hbegun)

theorem idle_known (h : PoolKept capacity pool) {id : Nat}
    (hbusy : (pool.entry id).busy = false) : id < pool.created := by
  apply h.lt_created
  intro hunborn
  rw [hunborn] at hbusy
  cases hbusy

theorem reserve (h : PoolKept capacity pool) (key : String)
    (hroom : pool.entries.length < capacity) : PoolKept capacity (pool.reserve key) where
  bounded := by
    show (pool.entries ++ [pool.created]).length ≤ capacity
    rw [List.length_append]
    exact hroom
  nodup := by
    show (pool.entries ++ [pool.created]).Nodup
    have hnew : pool.created ∉ pool.entries := by
      intro hin
      exact absurd (h.known _ hin) (Nat.lt_irrefl _)
    grind [List.nodup_append, h.nodup]
  known id hin := by
    show id < pool.created + 1
    obtain hold | hnew := List.mem_append.mp hin
    · exact Nat.lt_succ_of_lt (h.known id hold)
    · rw [List.mem_singleton.mp hnew]
      exact Nat.lt_succ_self _
  unborn id hid := by
    have hle : pool.created + 1 ≤ id := hid
    show Function.update pool.entry pool.created _ id = _
    rw [Function.update_of_ne (by omega)]
    exact h.unborn id (by omega)
  stopping id caller hin := by
    have hstopped := h.stopping id caller hin
    have hne : id ≠ pool.created := by
      rintro rfl
      rw [h.unborn _ (Nat.le_refl _)] at hstopped
      cases hstopped
    show (Function.update pool.entry pool.created _ id).stopped = true
    rw [Function.update_of_ne hne]
    exact hstopped
  each id := by
    show EntryKept pool.closed _ (Function.update pool.entry pool.created _ id)
    by_cases heq : id = pool.created
    · rw [heq, Function.update_self]
      exact EntryKept.reserved _ _ key
    · rw [Function.update_of_ne heq]
      exact (h.each id).mono (fun hclosed => hclosed) fun hin => List.mem_append_left _ hin

theorem shut (h : PoolKept capacity pool) : PoolKept capacity { pool with closed := true } :=
  { h with each := fun id => (h.each id).mono (fun _ => rfl) fun hin => hin }

/-! ## Operations -/

theorem acquire (h : PoolKept capacity pool) (key : String) :
    PoolKept capacity (pool.acquire capacity key) := by
  unfold RuntimePool.acquire
  by_cases hclosed : pool.closed = true
  · rw [if_pos hclosed]
    exact h.refuse _
  rw [if_neg hclosed]
  split
  · rename_i id hfound
    -- an idle runtime of the same key
    have hidle := List.find?_some hfound
    rw [Bool.and_eq_true, beq_iff_eq, Bool.not_eq_true'] at hidle
    apply h.update (h.idle_known hidle.2) (fun hstopped => hstopped)
    exact (h.each id).reused hidle.2 hidle.1
  · by_cases hfull : capacity ≤ pool.entries.length
    · rw [if_pos hfull]
      split
      · exact h.refuse _
      · rename_i id hfound
        have hidle := List.find?_some hfound
        rw [Bool.not_eq_true'] at hidle
        obtain ⟨hruntime, -, hactive⟩ := (h.each id).idle hidle
        exact h.remove _ (h.idle_known hidle) (Or.inl ⟨hruntime, hactive⟩)
    · rw [if_neg hfull]
      exact h.reserve key (Nat.lt_of_not_le hfull)

theorem afterEviction (h : PoolKept capacity pool) (key : String) :
    PoolKept capacity (pool.afterEviction capacity key) := by
  unfold RuntimePool.afterEviction
  by_cases hfull : pool.closed = true ∨ capacity ≤ pool.entries.length
  · rw [if_pos hfull]
    exact h.refuse _
  · rw [if_neg hfull]
    exact h.reserve key (by omega)

theorem afterCreation (h : PoolKept capacity pool) (id : Nat) (succeeds : Bool) :
    PoolKept capacity (pool.afterCreation id succeeds) := by
  unfold RuntimePool.afterCreation
  by_cases hcreating : (pool.entry id).creating = true
  · have hknown : id < pool.created := by
      apply h.lt_created
      intro hunborn
      rw [hunborn] at hcreating
      cases hcreating
    rw [hcreating, if_neg (by decide)]
    cases succeeds with
    | false =>
      show PoolKept capacity (((pool.update id _).delete id).refuse _)
      apply refuse
      apply delete
      · exact h.update hknown (fun hstopped => hstopped) (h.each id).notCreated
      · intro hruntime
        rw [RuntimePool.update_entry] at hruntime
        exact absurd (((h.each id).creating hcreating).symm.trans hruntime) (by decide)
    | true =>
      rw [if_neg (by decide)]
      show PoolKept capacity (if pool.closed = true then _ else _)
      by_cases hclosed : pool.closed = true
      · rw [if_pos hclosed]
        exact h.remove_update _ hknown rfl ((h.each id).abandoned hclosed _)
      · rw [if_neg hclosed, RuntimePool.update_update]
        apply h.update hknown (fun hstopped => hstopped)
        exact (h.each id).created hcreating (Bool.eq_false_iff.mpr hclosed) _ rfl
  · rw [Bool.eq_false_iff.mpr hcreating]
    exact h

theorem afterStop (h : PoolKept capacity pool) (id : Nat) (caller : RemoveCaller)
    (hstopped : (pool.entry id).stopped = true) (succeeds : Bool) :
    PoolKept capacity (pool.afterStop id caller succeeds) := by
  unfold RuntimePool.afterStop
  cases succeeds with
  | true => exact (h.delete fun _ => Or.inr hstopped).afterRemoval caller
  | false => exact h.afterFailure caller

theorem release (h : PoolKept capacity pool) (id index : Nat) (healthy : Bool) :
    PoolKept capacity (pool.release id index healthy) := by
  unfold RuntimePool.release
  cases hlease : (pool.entry id).leases[index]? with
  | none => exact h
  | some lease =>
    show PoolKept capacity (if lease.released.isSome = true then pool else _)
    by_cases hreleased : lease.released.isSome = true
    · rw [if_pos hreleased]
      exact h
    · rw [if_neg hreleased]
      have hheld : lease.released = none := by
        rwa [Bool.not_eq_true, Option.isSome_eq_false_iff, Option.isNone_iff_eq_none] at hreleased
      have hknown : id < pool.created := by
        apply h.lt_created
        intro hunborn
        rw [hunborn] at hlease
        cases hlease
      show PoolKept capacity
        (if (!healthy || pool.closed || !pool.entries.contains id) = true then _ else _)
      by_cases hretire : (!healthy || pool.closed || !pool.entries.contains id) = true
      · rw [if_pos hretire]
        exact h.remove_update .other hknown rfl ((h.each id).retired hlease hheld healthy _)
      · rw [if_neg hretire, RuntimePool.update_update]
        simp only [Bool.or_eq_true, Bool.not_eq_true', not_or, Bool.not_eq_false,
          List.contains_iff_mem] at hretire
        obtain ⟨⟨rfl, hopen⟩, hpooled⟩ := hretire
        apply h.update hknown (fun hstopped => hstopped)
        exact (h.each id).returned hlease hheld (Bool.eq_false_iff.mpr hopen) hpooled

theorem close_entries (entries : List Nat) (h : PoolKept capacity pool)
    (hclosed : pool.closed = true) (hknown : ∀ id ∈ entries, id < pool.created) :
    PoolKept capacity (entries.foldl (fun pool id => pool.remove .other id) pool) := by
  induction entries generalizing pool with
  | nil => exact h
  | cons id rest ih =>
    rw [List.foldl_cons]
    apply ih
    · exact h.remove .other (hknown id List.mem_cons_self) (Or.inr hclosed)
    · rw [RuntimePool.remove_closed]
      exact hclosed
    · intro other hother
      rw [RuntimePool.remove_created]
      exact hknown other (List.mem_cons_of_mem id hother)

theorem close (h : PoolKept capacity pool) : PoolKept capacity pool.close := by
  unfold RuntimePool.close
  exact close_entries pool.entries h.shut rfl h.known

theorem timeout (h : PoolKept capacity pool) {id : Nat} (htimer : (pool.entry id).timer = true) :
    PoolKept capacity (pool.remove .timer id) := by
  have hbusy := (h.each id).timer htimer
  obtain ⟨hruntime, -, hactive⟩ := (h.each id).idle hbusy
  exact h.remove .timer (h.idle_known hbusy) (Or.inl ⟨hruntime, hactive⟩)

theorem exitSeen (h : PoolKept capacity pool) {id : Nat} (hexited : (pool.entry id).exited = true) :
    PoolKept capacity
      ((pool.update id fun entry => { entry with timer := false }).delete id) := by
  have hknown : id < pool.created := by
    apply h.lt_created
    intro hunborn
    rw [hunborn] at hexited
    cases hexited
  apply delete
  · exact h.update hknown (fun hstopped => hstopped) (h.each id).disarmed
  · intro _
    rw [RuntimePool.update_entry]
    exact Or.inl hexited

theorem resume (h : PoolKept capacity pool) (task : PoolTask)
    (hstopped : ∀ id caller, task = .stopping id caller → (pool.entry id).stopped = true)
    (succeeds : Bool) : PoolKept capacity (pool.resume capacity task succeeds) := by
  cases task with
  | stopping id caller => exact h.afterStop id caller (hstopped id caller rfl) succeeds
  | evicted key => exact h.afterEviction key
  | failed => exact h.shut

theorem picked (h : PoolKept capacity pool) (index : Nat) :
    PoolKept capacity { pool with tasks := pool.tasks.eraseIdx index } :=
  { h with
    stopping := fun id caller hother => h.stopping id caller (List.mem_of_mem_eraseIdx hother) }

theorem step (pool : RuntimePool) (action : PoolAction) (h : PoolKept capacity pool) :
    PoolKept capacity (pool.step capacity action) := by
  cases action with
  | acquire key => exact h.acquire key
  | created id succeeds => exact h.afterCreation id succeeds
  | resume index succeeds =>
    rw [RuntimePool.step_resume]
    cases htask : pool.tasks[index]? with
    | none => exact h
    | some task =>
      have hin : task ∈ pool.tasks := List.mem_of_getElem? htask
      apply (h.picked index).resume
      rintro id caller rfl
      exact h.stopping id caller hin
  | release id index healthy => exact h.release id index healthy
  | timeout id =>
    show PoolKept capacity (if (pool.entry id).timer = true then _ else _)
    by_cases htimer : (pool.entry id).timer = true
    · rw [if_pos htimer]
      exact h.timeout htimer
    · rw [if_neg htimer]
      exact h
  | exit id =>
    show PoolKept capacity (if id < pool.created then _ else _)
    by_cases hknown : id < pool.created
    · rw [if_pos hknown]
      exact h.update hknown (fun hstopped => hstopped) (h.each id).exited
    · rw [if_neg hknown]
      exact h
  | exitSeen id =>
    show PoolKept capacity
      (if (pool.entry id).exited = true ∧ (pool.entry id).runtime = true then _ else _)
    by_cases hseen : (pool.entry id).exited = true ∧ (pool.entry id).runtime = true
    · rw [if_pos hseen]
      exact h.exitSeen hseen.1
    · rw [if_neg hseen]
      exact h
  | close => exact h.close

theorem run (actions : List PoolAction) :
    PoolKept capacity (run (RuntimePool.step capacity) .initial actions) :=
  (always_of_inv (fun pool action h => h.step pool action) (initial capacity) actions).last

end PoolKept

/-! ## What is not leased again -/

/-- From `pool` on, a closed pool stays closed and leases nothing, and an entry whose removal has
begun is not leased. -/
structure Frozen (pool pool' : RuntimePool) : Prop where
  closed : pool.closed = true → pool'.closed = true
  removing : ∀ id, (pool.entry id).removing = true → (pool'.entry id).removing = true
  leases : ∀ id, pool.closed = true ∨ (pool.entry id).removing = true →
    (pool'.entry id).leases.length = (pool.entry id).leases.length

namespace Frozen

variable {capacity : Nat} {pool pool' pool'' : RuntimePool}

theorem of_entry (hentry : pool'.entry = pool.entry)
    (hclosed : pool.closed = true → pool'.closed = true) : Frozen pool pool' where
  closed := hclosed
  removing id h := by rwa [hentry]
  leases id _ := by rw [hentry]

theorem refl (pool : RuntimePool) : Frozen pool pool := of_entry rfl fun h => h

theorem trans (h : Frozen pool pool') (h' : Frozen pool' pool'') : Frozen pool pool'' where
  closed hclosed := h'.closed (h.closed hclosed)
  removing id hremoving := h'.removing id (h.removing id hremoving)
  leases id hfixed := by
    rw [h'.leases id (hfixed.imp h.closed (h.removing id))]
    exact h.leases id hfixed

theorem update {id : Nat} {change : RuntimeEntry → RuntimeEntry}
    (hremoving : (pool.entry id).removing = true → (change (pool.entry id)).removing = true)
    (hleases : pool.closed = true ∨ (pool.entry id).removing = true →
      (change (pool.entry id)).leases.length = (pool.entry id).leases.length) :
    Frozen pool (pool.update id change) where
  closed h := h
  removing other h := by
    by_cases heq : other = id
    · subst heq
      rw [RuntimePool.update_entry]
      exact hremoving h
    · rwa [RuntimePool.update_entry_of_ne heq]
  leases other h := by
    by_cases heq : other = id
    · subst heq
      rw [RuntimePool.update_entry]
      exact hleases h
    · rw [RuntimePool.update_entry_of_ne heq]

theorem remove (caller : RemoveCaller) (id : Nat) (pool : RuntimePool) :
    Frozen pool (pool.remove caller id) := by
  have hmarked : Frozen pool (pool.update id RuntimeEntry.remove) :=
    update (fun _ => rfl) fun _ => rfl
  apply hmarked.trans
  apply of_entry (RuntimePool.remove_entry caller id pool)
  intro hclosed
  rw [RuntimePool.remove_closed]
  exact hclosed

theorem reserve (h : PoolKept capacity pool) (key : String) : Frozen pool (pool.reserve key) where
  closed hclosed := hclosed
  removing id hremoving := by
    have hne : id ≠ pool.created := by
      rintro rfl
      rw [h.unborn _ (Nat.le_refl _)] at hremoving
      cases hremoving
    show (Function.update pool.entry pool.created _ id).removing = true
    rwa [Function.update_of_ne hne]
  leases id _ := by
    show (Function.update pool.entry pool.created _ id).leases.length = _
    by_cases heq : id = pool.created
    · rw [heq, Function.update_self, h.unborn _ (Nat.le_refl _)]
      rfl
    · rw [Function.update_of_ne heq]

theorem acquire (h : PoolKept capacity pool) (key : String) :
    Frozen pool (pool.acquire capacity key) := by
  unfold RuntimePool.acquire
  by_cases hclosed : pool.closed = true
  · rw [if_pos hclosed]
    exact of_entry rfl fun h => h
  rw [if_neg hclosed]
  split
  · rename_i id hfound
    have hidle := List.find?_some hfound
    rw [Bool.and_eq_true, Bool.not_eq_true'] at hidle
    -- an idle runtime is not being removed
    have hremoving := ((h.each id).idle hidle.2).2.1
    apply update (fun hin => hin)
    intro hfixed
    obtain hin | hin := hfixed
    · exact absurd hin hclosed
    · rw [hremoving] at hin
      cases hin
  · split
    · split
      · exact of_entry rfl fun h => h
      · exact remove _ _ pool
    · exact reserve h key

theorem afterEviction (h : PoolKept capacity pool) (key : String) :
    Frozen pool (pool.afterEviction capacity key) := by
  unfold RuntimePool.afterEviction
  split
  · exact of_entry rfl fun h => h
  · exact reserve h key

theorem afterCreation (h : PoolKept capacity pool) (id : Nat) (succeeds : Bool) :
    Frozen pool (pool.afterCreation id succeeds) := by
  unfold RuntimePool.afterCreation
  by_cases hcreating : (pool.entry id).creating = true
  · rw [hcreating, if_neg (by decide)]
    cases succeeds with
    | false =>
      have hended : Frozen pool (pool.update id fun entry => { entry with creating := false }) :=
        update (fun hin => hin) fun _ => rfl
      exact hended.trans (of_entry rfl fun h => h)
    | true =>
      rw [if_neg (by decide)]
      show Frozen pool (if pool.closed = true then _ else _)
      by_cases hclosed : pool.closed = true
      · rw [if_pos hclosed]
        have hcreated : Frozen pool
            (pool.update id fun entry => { entry with creating := false, runtime := true }) :=
          update (fun hin => hin) fun _ => rfl
        exact hcreated.trans (remove _ _ _)
      · rw [if_neg hclosed, RuntimePool.update_update]
        apply update (fun hin => hin)
        intro hfixed
        -- a removal that began before there was a runtime is one of `close`
        have hnone := (h.each id).creating hcreating
        obtain hin | hin := hfixed
        · exact absurd hin hclosed
        · exact absurd ((h.each id).begun hin (Or.inl hnone)) hclosed
  · rw [Bool.eq_false_iff.mpr hcreating]
    exact refl pool

theorem afterStop (id : Nat) (caller : RemoveCaller) (succeeds : Bool) (pool : RuntimePool) :
    Frozen pool (pool.afterStop id caller succeeds) := by
  unfold RuntimePool.afterStop
  cases succeeds with
  | true =>
    show Frozen pool ((pool.delete id).removed caller)
    have hdeleted : Frozen pool (pool.delete id) := of_entry rfl fun hclosed => hclosed
    apply hdeleted.trans
    apply of_entry (RuntimePool.removed_entry caller (pool.delete id))
    intro hclosed
    rw [RuntimePool.removed_closed]
    exact hclosed
  | false =>
    show Frozen pool (pool.notRemoved caller)
    apply of_entry (RuntimePool.notRemoved_entry caller _)
    intro hclosed
    rw [RuntimePool.notRemoved_closed]
    exact hclosed

theorem release (id index : Nat) (healthy : Bool) (pool : RuntimePool) :
    Frozen pool (pool.release id index healthy) := by
  unfold RuntimePool.release
  cases (pool.entry id).leases[index]? with
  | none => exact refl pool
  | some lease =>
    show Frozen pool (if lease.released.isSome = true then pool else _)
    split
    · exact refl pool
    · have hreleased : Frozen pool (pool.update id fun entry => { entry with
          leases := entry.leases.set index { lease with released := some healthy } }) :=
        update (fun hin => hin) fun _ => List.length_set
      apply hreleased.trans
      show Frozen _ (if _ then _ else _)
      split
      · exact remove _ _ _
      · exact update (fun hin => hin) fun _ => rfl

theorem close (pool : RuntimePool) : Frozen pool pool.close := by
  have hfold : ∀ (entries : List Nat) (pool : RuntimePool),
      Frozen pool (entries.foldl (fun pool id => pool.remove .other id) pool) := by
    intro entries
    induction entries with
    | nil => exact refl
    | cons id rest ih => exact fun pool => (remove .other id pool).trans (ih _)
  have hshut : Frozen pool { pool with closed := true } := of_entry rfl fun _ => rfl
  exact hshut.trans (hfold pool.entries _)

theorem resume (h : PoolKept capacity pool) (task : PoolTask) (succeeds : Bool) :
    Frozen pool (pool.resume capacity task succeeds) := by
  cases task with
  | stopping id caller => exact afterStop id caller succeeds pool
  | evicted key => exact afterEviction h key
  | failed => exact of_entry rfl fun _ => rfl

theorem step (h : PoolKept capacity pool) (action : PoolAction) :
    Frozen pool (pool.step capacity action) := by
  cases action with
  | acquire key => exact acquire h key
  | created id succeeds => exact afterCreation h id succeeds
  | resume index succeeds =>
    rw [RuntimePool.step_resume]
    split
    · exact refl pool
    · have hpicked : Frozen pool { pool with tasks := pool.tasks.eraseIdx index } :=
        of_entry rfl fun h => h
      exact hpicked.trans (resume (h.picked index) _ succeeds)
  | release id index healthy => exact release id index healthy pool
  | timeout id =>
    show Frozen pool (if _ then _ else _)
    split
    · exact remove .timer id pool
    · exact refl pool
  | exit id =>
    show Frozen pool (if _ then _ else _)
    split
    · exact update (fun hin => hin) fun _ => rfl
    · exact refl pool
  | exitSeen id =>
    show Frozen pool (if _ then _ else _)
    split
    · have hdisarmed : Frozen pool
          (pool.update id fun entry => { entry with timer := false }) :=
        update (fun hin => hin) fun _ => rfl
      exact hdisarmed.trans (of_entry rfl fun h => h)
    · exact refl pool
  | close => exact close pool

theorem run (h : PoolKept capacity pool) (actions : List PoolAction) :
    Frozen pool (run (RuntimePool.step capacity) pool actions) := by
  induction actions generalizing pool with
  | nil => exact refl pool
  | cons action rest ih =>
    rw [run_cons]
    exact (step h action).trans (ih (h.step pool action))

end Frozen

theorem closed_of_close {capacity : Nat} {actions : List PoolAction} (hclose : .close ∈ actions) :
    (run (RuntimePool.step capacity) .initial actions).closed = true := by
  obtain ⟨first, rest, rfl⟩ := List.append_of_mem hclose
  rw [run_append, run_cons]
  have hkept : PoolKept capacity (run (RuntimePool.step capacity) .initial first) :=
    PoolKept.run first
  apply (Frozen.run (hkept.step _ .close) rest).closed
  have hfold : ∀ (entries : List Nat) (pool : RuntimePool), pool.closed = true →
      (entries.foldl (fun pool id => pool.remove .other id) pool).closed = true := by
    intro entries
    induction entries with
    | nil => exact fun pool hclosed => hclosed
    | cons id rest ih =>
      intro pool hclosed
      apply ih
      rw [RuntimePool.remove_closed]
      exact hclosed
  exact hfold _ _ rfl

/-- The pool stays within its capacity and leases a runtime to one caller at a time, to none once it
is unhealthy or its removal has begun, and to none after `close`.  No runtime is lost. -/
theorem runtimes_leased_exclusively (capacity : Nat) (actions later : List PoolAction) :
    let pool := run (RuntimePool.step capacity) .initial actions
    let pool' := run (RuntimePool.step capacity) .initial (actions ++ later)
    pool.entries.length ≤ capacity ∧
      (∀ id, (pool.entry id).active ≤ 1 ∧
        ∀ lease ∈ (pool.entry id).leases, lease.key = (pool.entry id).key) ∧
      (∀ id, ((pool.entry id).removing = true ∨
          ∃ lease ∈ (pool.entry id).leases, lease.released = some false) →
        (pool'.entry id).leases.length = (pool.entry id).leases.length) ∧
      (.close ∈ actions →
        ∀ id, (pool'.entry id).leases.length = (pool.entry id).leases.length) ∧
      ∀ id, (pool.entry id).runtime = true →
        (pool.entry id).active ≠ 0 ∨
          (id ∈ pool.entries ∧ (pool.entry id).busy = false) ∨
            (pool.entry id).exited = true ∨ (pool.entry id).stopped = true := by
  intro pool pool'
  have hkept : PoolKept capacity pool := PoolKept.run actions
  have hfrozen : Frozen pool pool' := by
    show Frozen pool (run _ _ (actions ++ later))
    rw [run_append]
    exact Frozen.run hkept later
  refine ⟨hkept.bounded, ?_, ?_, ?_, ?_⟩
  · intro id
    exact ⟨(hkept.each id).exclusive, (hkept.each id).keyed⟩
  · intro id hended
    apply hfrozen.leases id
    right
    obtain hremoving | ⟨lease, hlease, hunhealthy⟩ := hended
    · exact hremoving
    · exact (hkept.each id).unhealthy lease hlease hunhealthy
  · intro hclose id
    exact hfrozen.leases id (Or.inl (closed_of_close hclose))
  · intro id
    exact (hkept.each id).accounted

end HarnessControl.Harnesses
