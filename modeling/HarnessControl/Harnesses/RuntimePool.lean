import Mathlib.Data.List.Basic
import Mathlib.Logic.Function.Basic
import HarnessControl.Library.Transition

/-!
# The pool of provider runtimes

A runtime is leased to one caller at a time.  Its entry reserves a place in the pool before the
process is started, and keeps it until the process has been stopped.
-/

namespace HarnessControl.Harnesses

open HarnessControl.Library

/-! ## Entries -/

/-- What `acquire` returned to a caller. -/
structure RuntimeLease where
  /-- The key that the caller asked for. -/
  key : String
  reused : Bool
  /-- The argument of the first call of `release`. -/
  released : Option Bool

/-- An entry with its runtime, the leases of it and what became of its process. -/
structure RuntimeEntry where
  key : String
  /-- `acquire` awaits `create`. -/
  creating : Bool
  /-- `runtime` is set. -/
  runtime : Bool
  busy : Bool
  /-- The timer is armed. -/
  timer : Bool
  /-- `process.closed` has resolved. -/
  exited : Bool
  /-- `process.stop` was called. -/
  stopped : Bool
  /-- `#remove` was called for the entry. -/
  removing : Bool
  leases : List RuntimeLease

namespace RuntimeEntry

def reserved (key : String) : RuntimeEntry :=
  ⟨key, true, false, true, false, false, false, false, []⟩

/-- No entry yet. -/
def unborn : RuntimeEntry := ⟨"", false, false, true, false, false, false, false, []⟩

/-- The number of leases that are not released. -/
def active (entry : RuntimeEntry) : Nat := entry.leases.countP fun lease => lease.released.isNone

def lease (key : String) (reused : Bool) (entry : RuntimeEntry) : RuntimeEntry :=
  { entry with leases := entry.leases ++ [⟨key, reused, none⟩] }

end RuntimeEntry

/-! ## Errors -/

/-- What `acquire` throws. -/
inductive PoolError where
  | closed
  | allLeased
  | unavailable
  /-- The error of `create`, or of `stop`. -/
  | process
  | closedDuringInitialization

def PoolError.code : PoolError → Option String
  | .closed => some "runtime_pool_closed"
  | .allLeased | .unavailable => some "runtime_capacity"
  | .process | .closedDuringInitialization => none

def PoolError.message : PoolError → Option String
  | .closed => some "Provider runtime owner is closed."
  | .allLeased => some "All Provider runtimes are leased."
  | .unavailable => some "Provider runtime capacity is unavailable."
  | .process => none
  | .closedDuringInitialization => some "Provider runtime owner closed during initialization"

/-! ## The pool -/

/-- What awaits `#remove`. -/
inductive RemoveCaller where
  /-- `acquire`, for the place of an idle runtime. -/
  | acquire (key : String)
  /-- `acquire` that throws afterwards, for the pool was closed. -/
  | abandoned
  | timer
  /-- `release` or `close`. -/
  | other

inductive PoolTask where
  /-- `#remove` awaits `stop`. -/
  | stopping (id : Nat) (caller : RemoveCaller)
  /-- `acquire` goes on after the removal of an idle runtime. -/
  | evicted (key : String)
  /-- The timer goes on after a removal that failed. -/
  | failed

structure RuntimePool where
  closed : Bool
  /-- `#entries` in the order of their insertion. -/
  entries : List Nat
  /-- The entries that were ever in the pool, by their identity. -/
  entry : Nat → RuntimeEntry
  created : Nat
  tasks : List PoolTask
  /-- What calls of `acquire` have thrown. -/
  refused : List PoolError

namespace RuntimePool

def initial : RuntimePool := ⟨false, [], fun _ => .unborn, 0, [], []⟩

def refuse (error : PoolError) (pool : RuntimePool) : RuntimePool :=
  { pool with refused := pool.refused ++ [error] }

def update (id : Nat) (change : RuntimeEntry → RuntimeEntry) (pool : RuntimePool) : RuntimePool :=
  { pool with entry := Function.update pool.entry id (change (pool.entry id)) }

/-- `this.#entries.delete`. -/
def delete (id : Nat) (pool : RuntimePool) : RuntimePool :=
  { pool with entries := pool.entries.erase id }

def await (task : PoolTask) (pool : RuntimePool) : RuntimePool :=
  { pool with tasks := pool.tasks ++ [task] }

def removed (caller : RemoveCaller) (pool : RuntimePool) : RuntimePool :=
  match caller with
  | .acquire key => pool.await (.evicted key)
  | .abandoned => pool.refuse .closedDuringInitialization
  | .timer | .other => pool

def notRemoved (caller : RemoveCaller) (pool : RuntimePool) : RuntimePool :=
  match caller with
  | .acquire _ | .abandoned => pool.refuse .process
  | .timer => pool.await .failed
  | .other => pool

/-- `#remove`, up to its `await` where the entry has a runtime. -/
def remove (caller : RemoveCaller) (id : Nat) (pool : RuntimePool) : RuntimePool :=
  let pool := pool.update id fun entry =>
    { entry with timer := false, busy := true, removing := true }
  if (pool.entry id).runtime then
    (pool.update id fun entry => { entry with stopped := true }).await (.stopping id caller)
  else (pool.delete id).removed caller

/-- A new entry for which `create` is called. -/
def reserve (key : String) (pool : RuntimePool) : RuntimePool :=
  { pool with
    entries := pool.entries ++ [pool.created]
    entry := Function.update pool.entry pool.created (.reserved key)
    created := pool.created + 1 }

def acquire (capacity : Nat) (key : String) (pool : RuntimePool) : RuntimePool :=
  if pool.closed then pool.refuse .closed
  else
    match pool.entries.find? fun id => (pool.entry id).key == key && !(pool.entry id).busy with
    | some id => pool.update id fun entry =>
      { entry.lease key true with busy := true, timer := false }
    | none =>
      if capacity ≤ pool.entries.length then
        match pool.entries.find? fun id => !(pool.entry id).busy with
        | none => pool.refuse .allLeased
        | some idle => pool.remove (.acquire key) idle
      else pool.reserve key

/-- `acquire` after `#remove`. -/
def afterEviction (capacity : Nat) (key : String) (pool : RuntimePool) : RuntimePool :=
  if pool.closed ∨ capacity ≤ pool.entries.length then pool.refuse .unavailable
  else pool.reserve key

/-- `create` has resolved or rejected. -/
def afterCreation (id : Nat) (succeeds : Bool) (pool : RuntimePool) : RuntimePool :=
  if !(pool.entry id).creating then pool
  else if !succeeds then
    ((pool.update id fun entry => { entry with creating := false }).delete id).refuse .process
  else
    let pool := pool.update id fun entry => { entry with creating := false, runtime := true }
    if pool.closed then pool.remove .abandoned id
    else pool.update id fun entry => entry.lease entry.key false

/-- `stop` has resolved or rejected. -/
def afterStop (id : Nat) (caller : RemoveCaller) (succeeds : Bool) (pool : RuntimePool) :
    RuntimePool :=
  if succeeds then (pool.delete id).removed caller else pool.notRemoved caller

def release (id index : Nat) (healthy : Bool) (pool : RuntimePool) : RuntimePool :=
  match (pool.entry id).leases[index]? with
  | none => pool
  | some lease =>
    if lease.released.isSome then pool
    else
      let released := pool.update id fun entry =>
        { entry with leases := entry.leases.set index { lease with released := some healthy } }
      if !healthy || released.closed || !released.entries.contains id then
        released.remove .other id
      else released.update id fun entry => { entry with busy := false, timer := true }

def close (pool : RuntimePool) : RuntimePool :=
  pool.entries.foldl (fun pool id => pool.remove .other id) { pool with closed := true }

end RuntimePool

/-! ## Runs -/

inductive PoolAction where
  | acquire (key : String)
  | created (id : Nat) (succeeds : Bool)
  | resume (index : Nat) (succeeds : Bool)
  | release (id index : Nat) (healthy : Bool)
  | timeout (id : Nat)
  | exit (id : Nat)
  /-- The handler of `process.closed`. -/
  | exitSeen (id : Nat)
  | close

namespace RuntimePool

def resume (capacity : Nat) (task : PoolTask) (succeeds : Bool) (pool : RuntimePool) :
    RuntimePool :=
  match task with
  | .stopping id caller => pool.afterStop id caller succeeds
  | .evicted key => pool.afterEviction capacity key
  | .failed => { pool with closed := true }

def step (capacity : Nat) (pool : RuntimePool) : PoolAction → RuntimePool
  | .acquire key => pool.acquire capacity key
  | .created id succeeds => pool.afterCreation id succeeds
  | .resume index succeeds =>
    match pool.tasks[index]? with
    | none => pool
    | some task => { pool with tasks := pool.tasks.eraseIdx index }.resume capacity task succeeds
  | .release id index healthy => pool.release id index healthy
  | .timeout id => if (pool.entry id).timer then pool.remove .timer id else pool
  | .exit id =>
    if id < pool.created then pool.update id fun entry => { entry with exited := true } else pool
  | .exitSeen id =>
    if (pool.entry id).exited ∧ (pool.entry id).runtime then
      (pool.update id fun entry => { entry with timer := false }).delete id
    else pool
  | .close => pool.close

end RuntimePool

/-! ## The invariant -/

structure EntryKept (closed : Bool) (pooled : Prop) (entry : RuntimeEntry) : Prop where
  idle : entry.busy = false → entry.runtime = true ∧ entry.removing = false ∧ entry.active = 0
  timer : entry.timer = true → entry.busy = false
  creating : entry.creating = true → entry.runtime = false
  exclusive : entry.active ≤ 1
  leased : entry.leases ≠ [] → entry.runtime = true
  stopped : entry.removing = true → entry.runtime = true → entry.stopped = true
  /-- Only `close` removes an entry that is not idle. -/
  begun : entry.removing = true → entry.runtime = false ∨ entry.active ≠ 0 → closed = true
  unhealthy : ∀ lease ∈ entry.leases, lease.released = some false → entry.removing = true
  keyed : ∀ lease ∈ entry.leases, lease.key = entry.key
  accounted : entry.runtime = true →
    entry.active ≠ 0 ∨ (pooled ∧ entry.busy = false) ∨ entry.exited = true ∨ entry.stopped = true

structure PoolKept (capacity : Nat) (pool : RuntimePool) : Prop where
  bounded : pool.entries.length ≤ capacity
  nodup : pool.entries.Nodup
  known : ∀ id ∈ pool.entries, id < pool.created
  unborn : ∀ id, pool.created ≤ id → pool.entry id = .unborn
  stopping : ∀ id caller, .stopping id caller ∈ pool.tasks → (pool.entry id).stopped = true
  each : ∀ id, EntryKept pool.closed (id ∈ pool.entries) (pool.entry id)

namespace EntryKept

variable {closed : Bool} {pooled : Prop} {entry : RuntimeEntry}

theorem unborn (closed : Bool) (pooled : Prop) : EntryKept closed pooled .unborn where
  idle := nofun
  timer := nofun
  creating := nofun
  exclusive := Nat.zero_le 1
  leased h := absurd rfl h
  stopped := nofun
  begun := nofun
  unhealthy _ h := absurd h List.not_mem_nil
  keyed _ h := absurd h List.not_mem_nil
  accounted := nofun

theorem reserved (closed : Bool) (pooled : Prop) (key : String) :
    EntryKept closed pooled (.reserved key) where
  idle := nofun
  timer := nofun
  creating _ := rfl
  exclusive := Nat.zero_le 1
  leased h := absurd rfl h
  stopped := nofun
  begun := nofun
  unhealthy _ h := absurd h List.not_mem_nil
  keyed _ h := absurd h List.not_mem_nil
  accounted := nofun

theorem mono {closed' : Bool} {pooled' : Prop} (h : EntryKept closed pooled entry)
    (hclosed : closed = true → closed' = true) (hpooled : pooled → pooled') :
    EntryKept closed' pooled' entry :=
  { h with
    begun := fun hremoving hin => hclosed (h.begun hremoving hin)
    accounted := fun hruntime => by
      obtain hactive | ⟨hin, hbusy⟩ | hend := h.accounted hruntime
      · exact Or.inl hactive
      · exact Or.inr (Or.inl ⟨hpooled hin, hbusy⟩)
      · exact Or.inr (Or.inr hend) }

theorem deleted (h : EntryKept closed pooled entry) (pooled' : Prop)
    (hend : entry.runtime = true → entry.exited = true ∨ entry.stopped = true) :
    EntryKept closed pooled' entry :=
  { h with accounted := fun hruntime => Or.inr (Or.inr (hend hruntime)) }

end EntryKept

/-- What `#remove` makes of an entry. -/
def RuntimeEntry.remove (entry : RuntimeEntry) : RuntimeEntry :=
  { entry with
    timer := false
    busy := true
    removing := true
    stopped := entry.stopped || entry.runtime }

namespace EntryKept

variable {closed : Bool} {pooled : Prop} {entry : RuntimeEntry}

theorem remove (pooled : Prop) (hcreating : entry.creating = true → entry.runtime = false)
    (hexclusive : entry.active ≤ 1) (hleased : entry.leases ≠ [] → entry.runtime = true)
    (hkeyed : ∀ lease ∈ entry.leases, lease.key = entry.key)
    (hbegun : entry.runtime = true ∧ entry.active = 0 ∨ closed = true) :
    EntryKept closed pooled entry.remove where
  idle := nofun
  timer := nofun
  creating := hcreating
  exclusive := hexclusive
  leased := hleased
  stopped _ hruntime := by
    show (entry.stopped || entry.runtime) = true
    rw [show entry.runtime = true from hruntime, Bool.or_true]
  begun _ hin := by
    obtain ⟨hruntime, hactive⟩ | hclosed := hbegun
    · obtain hnone | hleases := hin
      · exact absurd (hruntime.symm.trans hnone) (by decide)
      · exact absurd hactive hleases
    · exact hclosed
  unhealthy _ _ _ := rfl
  keyed := hkeyed
  accounted hruntime := by
    right; right; right
    show (entry.stopped || entry.runtime) = true
    rw [show entry.runtime = true from hruntime, Bool.or_true]

theorem removed (h : EntryKept closed pooled entry) (pooled' : Prop)
    (hbegun : entry.runtime = true ∧ entry.active = 0 ∨ closed = true) :
    EntryKept closed pooled' entry.remove :=
  remove pooled' h.creating h.exclusive h.leased h.keyed hbegun

theorem active_lease (entry : RuntimeEntry) (key : String) (reused : Bool) :
    (entry.lease key reused).active = entry.active + 1 := by
  unfold RuntimeEntry.active RuntimeEntry.lease
  rw [List.countP_append]
  rfl

theorem reused (h : EntryKept closed pooled entry) (hbusy : entry.busy = false) {key : String}
    (hkey : entry.key = key) :
    EntryKept closed pooled { entry.lease key true with busy := true, timer := false } := by
  obtain ⟨hruntime, hremoving, hactive⟩ := h.idle hbusy
  have hone : (entry.lease key true).active = 1 := by rw [active_lease, hactive]
  exact {
    idle := nofun
    timer := nofun
    creating := h.creating
    exclusive := Nat.le_of_eq hone
    leased := fun _ => hruntime
    stopped := h.stopped
    begun := fun hbegun _ => absurd (hremoving.symm.trans hbegun) (by decide)
    unhealthy := by
      intro lease hlease hunhealthy
      obtain hold | hnew := List.mem_append.mp hlease
      · exact h.unhealthy lease hold hunhealthy
      · rw [List.mem_singleton.mp hnew] at hunhealthy
        cases hunhealthy
    keyed := by
      intro lease hlease
      obtain hold | hnew := List.mem_append.mp hlease
      · exact h.keyed lease hold
      · rw [List.mem_singleton.mp hnew]
        exact hkey.symm
    accounted := fun _ => Or.inl fun hzero => absurd (hone.symm.trans hzero) (by decide) }

theorem no_leases (h : EntryKept closed pooled entry) (hruntime : entry.runtime = false) :
    entry.leases = [] := by
  by_contra hne
  exact absurd ((h.leased hne).symm.trans hruntime) (by decide)

theorem created (h : EntryKept closed pooled entry) (hcreating : entry.creating = true)
    (hclosed : closed = false) (key : String) (hkey : entry.key = key) :
    EntryKept closed pooled
      (RuntimeEntry.lease key false { entry with creating := false, runtime := true }) := by
  have hruntime := h.creating hcreating
  have hleases := h.no_leases hruntime
  have hremoving : entry.removing = false := by
    rw [← Bool.not_eq_true]
    intro hremoving
    rw [h.begun hremoving (Or.inl hruntime)] at hclosed
    cases hclosed
  have hbusy : entry.busy = true := by
    by_contra hbusy
    have hidle := (h.idle (Bool.not_eq_true _ ▸ hbusy)).1
    exact absurd (hidle.symm.trans hruntime) (by decide)
  have hone : (RuntimeEntry.lease key false
      { entry with creating := false, runtime := true }).active = 1 := by
    rw [active_lease]
    show entry.active + 1 = 1
    unfold RuntimeEntry.active
    rw [hleases]
    rfl
  exact {
    idle := fun hidle => absurd (hbusy.symm.trans hidle) (by decide)
    timer := h.timer
    creating := nofun
    exclusive := Nat.le_of_eq hone
    leased := fun _ => rfl
    stopped := fun hbegun => absurd (hremoving.symm.trans hbegun) (by decide)
    begun := fun hbegun => absurd (hremoving.symm.trans hbegun) (by decide)
    unhealthy := by
      intro lease hlease hunhealthy
      change lease ∈ entry.leases ++ [⟨key, false, none⟩] at hlease
      rw [hleases, List.nil_append, List.mem_singleton] at hlease
      rw [hlease] at hunhealthy
      cases hunhealthy
    keyed := by
      intro lease hlease
      change lease ∈ entry.leases ++ [⟨key, false, none⟩] at hlease
      rw [hleases, List.nil_append, List.mem_singleton] at hlease
      rw [hlease]
      exact hkey.symm
    accounted := fun _ => Or.inl (by rw [hone]; decide) }

theorem abandoned (h : EntryKept closed pooled entry) (hclosed : closed = true) (pooled' : Prop) :
    EntryKept closed pooled'
      (RuntimeEntry.remove { entry with creating := false, runtime := true }) :=
  remove pooled' nofun h.exclusive (fun _ => rfl) h.keyed (Or.inr hclosed)

theorem notCreated (h : EntryKept closed pooled entry) :
    EntryKept closed pooled { entry with creating := false } :=
  { h with creating := nofun }

theorem exited (h : EntryKept closed pooled entry) :
    EntryKept closed pooled { entry with exited := true } :=
  { h with accounted := fun _ => Or.inr (Or.inr (Or.inl rfl)) }

theorem disarmed (h : EntryKept closed pooled entry) :
    EntryKept closed pooled { entry with timer := false } :=
  { h with timer := nofun }

/-- The entry after a call of `release`. -/
def releasedEntry (entry : RuntimeEntry) (index : Nat) (lease : RuntimeLease) (healthy : Bool) :
    RuntimeEntry :=
  { entry with leases := entry.leases.set index { lease with released := some healthy } }

theorem released_active (h : EntryKept closed pooled entry) {index : Nat} {lease : RuntimeLease}
    (hlease : entry.leases[index]? = some lease) (hheld : lease.released = none) (healthy : Bool) :
    entry.active = 1 ∧ (releasedEntry entry index lease healthy).active = 0 := by
  obtain ⟨hlt, hget⟩ := List.getElem?_eq_some_iff.mp hlease
  have hmem : lease ∈ entry.leases := List.mem_of_getElem? hlease
  have hpos : 0 < entry.active := List.countP_pos_iff.mpr ⟨lease, hmem, by rw [hheld]; rfl⟩
  have hone : entry.active = 1 := Nat.le_antisymm h.exclusive hpos
  refine ⟨hone, ?_⟩
  unfold RuntimeEntry.active at hone
  show List.countP _ (entry.leases.set index _) = 0
  rw [List.countP_set hlt, hget, hone]
  simp [hheld]

theorem released_mem {index : Nat} {lease other : RuntimeLease} {healthy : Bool}
    (hother : other ∈ (releasedEntry entry index lease healthy).leases) :
    other ∈ entry.leases ∨ other = { lease with released := some healthy } :=
  List.mem_or_eq_of_mem_set hother

theorem returned (h : EntryKept closed pooled entry) {index : Nat} {lease : RuntimeLease}
    (hlease : entry.leases[index]? = some lease) (hheld : lease.released = none)
    (hclosed : closed = false) (hpooled : pooled) :
    EntryKept closed pooled
      { releasedEntry entry index lease true with busy := false, timer := true } := by
  obtain ⟨hone, hactive⟩ := h.released_active hlease hheld true
  have hmem : lease ∈ entry.leases := List.mem_of_getElem? hlease
  have hruntime := h.leased (List.ne_nil_of_mem hmem)
  have hremoving : entry.removing = false := by
    rw [← Bool.not_eq_true]
    intro hremoving
    rw [h.begun hremoving (Or.inr (by rw [hone]; decide))] at hclosed
    cases hclosed
  exact {
    idle := fun _ => ⟨hruntime, hremoving, hactive⟩
    timer := fun _ => rfl
    creating := h.creating
    exclusive := Nat.le_trans (Nat.le_of_eq hactive) (Nat.zero_le 1)
    leased := fun _ => hruntime
    stopped := h.stopped
    begun := fun hbegun => absurd (hremoving.symm.trans hbegun) (by decide)
    unhealthy := by
      intro other hother hunhealthy
      obtain hold | rfl := released_mem hother
      · exact h.unhealthy other hold hunhealthy
      · cases hunhealthy
    keyed := by
      intro other hother
      obtain hold | rfl := released_mem hother
      · exact h.keyed other hold
      · exact h.keyed lease hmem
    accounted := fun _ => Or.inr (Or.inl ⟨hpooled, rfl⟩) }

theorem retired (h : EntryKept closed pooled entry) {index : Nat} {lease : RuntimeLease}
    (hlease : entry.leases[index]? = some lease) (hheld : lease.released = none) (healthy : Bool)
    (pooled' : Prop) :
    EntryKept closed pooled' (releasedEntry entry index lease healthy).remove := by
  obtain ⟨hone, hactive⟩ := h.released_active hlease hheld healthy
  have hmem : lease ∈ entry.leases := List.mem_of_getElem? hlease
  have hruntime := h.leased (List.ne_nil_of_mem hmem)
  apply remove
  · exact h.creating
  · rw [hactive]
    exact Nat.zero_le 1
  · exact fun _ => hruntime
  · intro other hother
    obtain hold | rfl := released_mem hother
    · exact h.keyed other hold
    · exact h.keyed lease hmem
  · exact Or.inl ⟨hruntime, hactive⟩

end EntryKept

end HarnessControl.Harnesses
