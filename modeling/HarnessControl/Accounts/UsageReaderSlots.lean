import HarnessControl.Accounts.UsageReader
import HarnessControl.Library.Transition

/-!
# The slots of the account reader

What a step does to the reads, and what holds of the reads, the slots and the table of reads in every
state.
-/

namespace HarnessControl.Accounts

open HarnessControl.Library

variable {ω : Type}

/-! ## Stages of a read -/

inductive Stage where
  | waiting
  | holding
  | left
  | ended
deriving DecidableEq

def Phase.stage : Phase ω → Stage
  | .waiting => .waiting
  | .woken => .holding
  | .collecting _ => .holding
  | .settled _ => .left
  | .stored _ => .left
  | .finished _ => .ended

namespace Reader

/-- The provider of a read, and how far the read is. -/
def seen (s : Reader ω) (i : Nat) : Option (ProviderInstance × Stage) :=
  s.reads[i]?.map fun read => (read.provider, read.phase.stage)

/-- The reads that are at this stage. -/
def At (s : Reader ω) (stage : Stage) (i : Nat) : Prop := ∃ provider, s.seen i = some (provider, stage)

variable {s : Reader ω}

theorem At.unique {stage other : Stage} {i : Nat} (h : s.At stage i)
    (hother : s.At other i) : stage = other := by
  obtain ⟨provider, hseen⟩ := h
  obtain ⟨_, hagain⟩ := hother
  rw [hseen] at hagain
  cases hagain
  rfl

theorem At.of_read {i : Nat} {read : ProviderRead ω} (h : s.reads[i]? = some read) :
    s.At read.phase.stage i :=
  ⟨read.provider, by unfold seen; rw [h]; rfl⟩

theorem getElem_setPhase (s : Reader ω) (i j : Nat) (phase : Phase ω) :
    (s.setPhase i phase).reads[j]? =
      s.reads[j]?.map fun read => if i = j then { read with phase } else read :=
  List.getElem?_modify _ _ _ _

theorem getElem_setCollector (s : Reader ω) (i j : Nat) (collector : CollectorCall ω) :
    (s.setCollector i collector).reads[j]? =
      s.reads[j]?.map fun read => if i = j then { read with collector } else read :=
  List.getElem?_modify _ _ _ _

theorem seen_setPhase (s : Reader ω) (i j : Nat) (phase : Phase ω) :
    (s.setPhase i phase).seen j =
      if i = j then (s.seen j).map fun view => (view.1, phase.stage) else s.seen j := by
  unfold seen
  rw [getElem_setPhase]
  cases s.reads[j]? with
  | none => split <;> rfl
  | some read =>
    by_cases h : i = j
    · rw [if_pos h, Option.map_some, if_pos h]
      rfl
    · rw [if_neg h, Option.map_some, if_neg h]

theorem seen_setCollector (s : Reader ω) (i j : Nat) (collector : CollectorCall ω) :
    (s.setCollector i collector).seen j = s.seen j := by
  unfold seen
  rw [getElem_setCollector]
  cases s.reads[j]? with
  | none => rfl
  | some read =>
    rw [Option.map_some, Option.map_some, Option.map_some]
    split <;> rfl

/-! ## The invariant -/

/-- The slots, the releases and the table of reads tell of the same reads. -/
structure Sound (s : Reader ω) : Prop where
  slots : s.slots.Sound 4
  waiting : ∀ i, i ∈ s.slots.waiting ↔ s.At .waiting i
  holders : ∀ i, i ∈ s.slots.holders ↔ s.At .holding i
  released : ∀ i, i ∈ s.releases ↔ s.At .left i ∨ s.At .ended i
  once : s.releases.Nodup
  inflight : ∀ i provider stage, s.seen i = some (provider, stage) → stage ≠ .ended →
    s.inflight.get? provider.id = some i

theorem Sound.initial : (initial : Reader ω).Sound where
  slots := .empty 4
  waiting := fun _ => ⟨fun h => absurd h List.not_mem_nil, fun ⟨_, h⟩ => nomatch h⟩
  holders := fun _ => ⟨fun h => absurd h List.not_mem_nil, fun ⟨_, h⟩ => nomatch h⟩
  released := fun _ =>
    ⟨fun h => absurd h List.not_mem_nil, fun h => h.elim (fun ⟨_, h⟩ => nomatch h)
      fun ⟨_, h⟩ => nomatch h⟩
  once := List.nodup_nil
  inflight := fun _ _ _ h => nomatch h

theorem Sound.congr {s t : Reader ω} (h : s.Sound) (hslots : t.slots = s.slots)
    (hreleases : t.releases = s.releases) (hinflight : t.inflight = s.inflight)
    (hseen : ∀ i, t.seen i = s.seen i) : t.Sound := by
  have hat : ∀ stage i, t.At stage i ↔ s.At stage i := by
    intro stage i
    unfold At
    rw [hseen]
  constructor
  · rw [hslots]
    exact h.slots
  · intro i
    rw [hslots, hat]
    exact h.waiting i
  · intro i
    rw [hslots, hat]
    exact h.holders i
  · intro i
    rw [hreleases, hat, hat]
    exact h.released i
  · rw [hreleases]
    exact h.once
  · intro i provider stage
    rw [hseen, hinflight]
    exact h.inflight i provider stage

theorem Sound.setPhase (h : s.Sound) {i : Nat} {phase : Phase ω}
    (hstage : s.At phase.stage i) : (s.setPhase i phase).Sound := by
  apply h.congr (t := s.setPhase i phase) rfl rfl rfl
  intro j
  rw [seen_setPhase]
  split
  · rename_i heq
    subst heq
    obtain ⟨provider, hseen⟩ := hstage
    rw [hseen]
    rfl
  · rfl

theorem Sound.setCollector (h : s.Sound) (i : Nat) (collector : CollectorCall ω) :
    (s.setCollector i collector).Sound :=
  h.congr rfl rfl rfl fun j => seen_setCollector s i j collector

/-! ## Leaving -/

theorem leave_slots (s : Reader ω) (i : Nat) (outcome : Option (Observation ω)) :
    (s.leave i outcome).slots = s.slots.release i := by
  unfold leave release
  dsimp only
  split <;> rfl

theorem leave_releases (s : Reader ω) (i : Nat) (outcome : Option (Observation ω)) :
    (s.leave i outcome).releases = s.releases ++ [i] := by
  unfold leave release
  dsimp only
  split <;> rfl

theorem leave_inflight (s : Reader ω) (i : Nat) (outcome : Option (Observation ω)) :
    (s.leave i outcome).inflight = s.inflight := by
  unfold leave release
  dsimp only
  split <;> rfl

theorem leave_closed (s : Reader ω) (i : Nat) (outcome : Option (Observation ω)) :
    (s.leave i outcome).closed = s.closed := by
  unfold leave release
  dsimp only
  split <;> rfl

theorem getElem_leave (s : Reader ω) (i j : Nat) (outcome : Option (Observation ω)) :
    (s.leave i outcome).reads[j]? =
      s.reads[j]?.map fun read =>
        if s.slots.waiting.head? = some j then { read with phase := .woken }
        else if i = j then { read with phase := .settled outcome }
        else read := by
  unfold leave release
  have hwaiting : (s.setPhase i (.settled outcome)).slots.waiting = s.slots.waiting := rfl
  dsimp only
  rw [hwaiting]
  cases hlist : s.slots.waiting with
  | nil => exact (getElem_setPhase s i j _).trans (by simp)
  | cons next rest =>
    dsimp only
    rw [getElem_setPhase]
    show ((s.setPhase i (.settled outcome)).reads[j]?.map _) = _
    rw [getElem_setPhase, Option.map_map, List.head?_cons]
    congr 1
    funext read
    dsimp only [Function.comp]
    by_cases hnext : next = j
    · rw [if_pos hnext, if_pos (congrArg some hnext)]
      split <;> rfl
    · rw [if_neg hnext, if_neg (fun h => hnext (Option.some.inj h))]

theorem seen_leave (s : Reader ω) (i j : Nat) (outcome : Option (Observation ω)) :
    (s.leave i outcome).seen j =
      (s.seen j).map fun view =>
        if s.slots.waiting.head? = some j then (view.1, .holding)
        else if i = j then (view.1, .left) else view := by
  unfold seen
  rw [getElem_leave, Option.map_map, Option.map_map]
  congr 1
  funext read
  dsimp only [Function.comp]
  split
  · rfl
  · split <;> rfl

theorem Sound.leave (h : s.Sound) {i : Nat} (hi : s.At .holding i)
    (outcome : Option (Observation ω)) : (s.leave i outcome).Sound := by
  have hholder : i ∈ s.slots.holders := (h.holders i).mpr hi
  have hfirst : ∀ {j}, s.slots.waiting.head? = some j → s.At .waiting j := fun hj =>
    (h.waiting _).mp (List.mem_of_mem_head? hj)
  have hnot : s.slots.waiting.head? ≠ some i := by
    intro hhead
    exact absurd (hi.unique (hfirst hhead)) (by decide)
  have hat : ∀ stage j, (s.leave i outcome).At stage j ↔
      if s.slots.waiting.head? = some j then stage = .holding
      else if i = j then stage = .left else s.At stage j := by
    intro stage j
    unfold At
    rw [seen_leave]
    split
    · rename_i hhead
      obtain ⟨provider, hseen⟩ := hfirst hhead
      rw [hseen]
      simp [eq_comm]
    · split
      · rename_i heq
        subst heq
        obtain ⟨provider, hseen⟩ := hi
        rw [hseen]
        simp [eq_comm]
      · rw [Option.map_id']
  constructor
  · rw [leave_slots]
    exact h.slots.release hholder
  · intro j
    rw [leave_slots, h.slots.mem_waiting_release, hat, h.waiting]
    split
    · rename_i hhead
      simp [hhead]
    · rename_i hhead
      split
      · rename_i heq
        subst heq
        constructor
        · rintro ⟨hwaiting, -⟩
          exact absurd (hi.unique hwaiting) (by decide)
        · intro hstage
          cases hstage
      · exact and_iff_left hhead
  · intro j
    rw [leave_slots, h.slots.mem_holders_release, hat, h.holders]
    split
    · rename_i hhead
      simp [hhead]
    · rename_i hhead
      split
      · rename_i heq
        subst heq
        simp [hhead]
      · rename_i hne
        simp [hhead, Ne.symm hne]
  · intro j
    rw [leave_releases, List.mem_append, List.mem_singleton, hat, hat, h.released]
    split
    · rename_i hhead
      have hwaiting := hfirst hhead
      constructor
      · rintro ((hleft | hover) | rfl)
        · exact absurd (hwaiting.unique hleft) (by decide)
        · exact absurd (hwaiting.unique hover) (by decide)
        · exact absurd hhead hnot
      · rintro (hstage | hstage) <;> cases hstage
    · split
      · rename_i heq
        simp [heq]
      · rename_i hne
        simp [Ne.symm hne]
  · rw [leave_releases]
    apply h.once.append (List.nodup_singleton _)
    intro j hj hsame
    rw [List.mem_singleton] at hsame
    subst hsame
    obtain hleft | hover := (h.released j).mp hj
    · exact absurd (hi.unique hleft) (by decide)
    · exact absurd (hi.unique hover) (by decide)
  · intro j provider stage hseen hstage
    rw [leave_inflight]
    rw [seen_leave] at hseen
    obtain ⟨⟨other, before⟩, hbefore, heq⟩ := Option.map_eq_some_iff.mp hseen
    split at heq
    · rename_i hhead
      cases heq
      obtain ⟨_, hwaiting⟩ := hfirst hhead
      rw [hbefore] at hwaiting
      cases hwaiting
      exact h.inflight j _ _ hbefore (by decide)
    · split at heq
      · rename_i hsame
        subst hsame
        cases heq
        obtain ⟨_, hholding⟩ := hi
        rw [hbefore] at hholding
        cases hholding
        exact h.inflight i _ _ hbefore (by decide)
      · cases heq
        exact h.inflight j _ _ hbefore hstage

/-! ## Beginning -/

theorem Sound.enter (h : s.Sound) {i : Nat} (hi : s.At .holding i) :
    (s.enter i).Sound := by
  unfold Reader.enter
  split
  · exact h.leave hi _
  · have hcollecting : (s.setPhase i (.collecting false)).Sound := h.setPhase hi
    exact hcollecting.setCollector i .running

theorem length_ne_of_at {stage : Stage} {i : Nat} (h : s.At stage i) :
    i < s.reads.length := by
  obtain ⟨provider, hseen⟩ := h
  unfold seen at hseen
  obtain ⟨read, hread, -⟩ := Option.map_eq_some_iff.mp hseen
  exact (List.getElem?_eq_some_iff.mp hread).1

def begun (s : Reader ω) (provider : ProviderInstance) : Reader ω :=
  { s with
    reads := s.reads ++
      [{ provider, phase := if 4 ≤ s.slots.active then Phase.waiting else .woken
         collector := .notStarted }]
    slots := s.slots.acquire 4 s.reads.length
    inflight := s.inflight.set provider.id s.reads.length }

theorem collect_eq (s : Reader ω) (provider : ProviderInstance) :
    s.collect provider =
      if 4 ≤ s.slots.active then s.begun provider else (s.begun provider).enter s.reads.length :=
  rfl

theorem seen_begun (s : Reader ω) (provider : ProviderInstance) (j : Nat) :
    (s.begun provider).seen j =
      if j = s.reads.length then
        some (provider, if 4 ≤ s.slots.active then .waiting else .holding)
      else s.seen j := by
  unfold seen begun
  dsimp only
  by_cases h : j = s.reads.length
  · subst h
    rw [if_pos rfl, List.getElem?_concat_length]
    split <;> rfl
  · rw [if_neg h]
    obtain hlt | hge := Nat.lt_or_ge j s.reads.length
    · rw [List.getElem?_append_left hlt]
    · have hout : s.reads.length < j := Nat.lt_of_le_of_ne hge (Ne.symm h)
      rw [List.getElem?_eq_none hge, List.getElem?_eq_none]
      rw [List.length_append, List.length_singleton]
      omega

theorem Sound.begun (h : s.Sound) {provider : ProviderInstance}
    (hfree : s.inflight.get? provider.id = none) : (s.begun provider).Sound := by
  have hnew : ∀ stage, ¬ s.At stage s.reads.length := fun stage hat =>
    absurd (length_ne_of_at hat) (Nat.lt_irrefl _)
  have hat : ∀ stage j, (s.begun provider).At stage j ↔
      if j = s.reads.length then stage = (if 4 ≤ s.slots.active then .waiting else .holding)
      else s.At stage j := by
    intro stage j
    unfold At
    rw [seen_begun]
    split
    · simp [eq_comm]
    · rfl
  constructor
  · exact h.slots.acquire (fun hmem => hnew _ ((h.holders _).mp hmem))
      fun hmem => hnew _ ((h.waiting _).mp hmem)
  · intro j
    rw [show (s.begun provider).slots = s.slots.acquire 4 s.reads.length from rfl,
      Slots.mem_waiting_acquire, hat, h.waiting]
    split
    · rename_i heq
      subst heq
      simp [hnew]
    · rename_i hne
      simp [hne]
  · intro j
    rw [show (s.begun provider).slots = s.slots.acquire 4 s.reads.length from rfl,
      Slots.mem_holders_acquire, hat, h.holders]
    split
    · rename_i heq
      subst heq
      simp only [hnew, and_true, false_or]
      split
      · rename_i hfull
        simp [hfull]
      · rename_i hroom
        simp [hroom]
    · rename_i hne
      simp [hne]
  · intro j
    rw [show (s.begun provider).releases = s.releases from rfl, hat, hat, h.released]
    split
    · rename_i heq
      subst heq
      simp only [hnew, or_self, false_iff, not_or]
      split <;> exact ⟨nofun, nofun⟩
    · rfl
  · exact h.once
  · intro j other stage hseen hstage
    rw [seen_begun] at hseen
    show (s.inflight.set provider.id s.reads.length).get? other.id = some j
    rw [Dict.get?_set]
    split at hseen
    · rename_i heq
      cases hseen
      rw [if_pos rfl, heq]
    · have hold := h.inflight j other stage hseen hstage
      rw [if_neg, hold]
      intro hid
      rw [hid, hfree] at hold
      cases hold

theorem Sound.collect (h : s.Sound) {provider : ProviderInstance}
    (hfree : s.inflight.get? provider.id = none) : (s.collect provider).Sound := by
  have hbegun := h.begun hfree
  rw [collect_eq]
  split
  · exact hbegun
  · rename_i hroom
    apply hbegun.enter
    refine ⟨provider, ?_⟩
    rw [seen_begun, if_pos rfl, if_neg hroom]

/-! ## Steps -/

theorem At.of_phase {i : Nat} {read : ProviderRead ω} {stage : Stage}
    (h : s.reads[i]? = some read) (hstage : read.phase.stage = stage) : s.At stage i :=
  hstage ▸ At.of_read h

theorem Sound.abort (h : s.Sound) (i : Nat) : (s.abort i).Sound := by
  unfold Reader.abort
  split
  · rename_i hread
    exact h.setPhase (At.of_phase hread rfl)
  · exact h

theorem Sound.abortAll (h : s.Sound) (count : Nat) : (abortAll count s).Sound := by
  induction count generalizing s with
  | zero => exact h
  | succ count ih => exact ih (h.abort count)

theorem Sound.settle (h : s.Sound) (i : Nat) : (s.settle i).Sound := by
  unfold Reader.settle
  split
  · rename_i hread
    exact h.leave (At.of_phase hread rfl) _
  · rename_i hread
    exact h.leave (At.of_phase hread rfl) _
  · exact h

theorem Sound.resume (h : s.Sound) (i : Nat) : (s.resume i).Sound := by
  unfold Reader.resume
  split
  · rename_i hread
    exact h.enter (At.of_phase hread rfl)
  · exact h

theorem Sound.endCollector (h : s.Sound) (i : Nat) (result : CollectorResult ω) :
    (s.endCollector i result).Sound := by
  unfold Reader.endCollector
  split
  · exact h.setCollector i _
  · exact h

theorem Sound.store (h : s.Sound) (config : AccountsConfig) (i : Nat) (now : Int) :
    (s.store config i now).Sound := by
  unfold Reader.store
  split
  · rename_i provider observation _ hread
    have hcached :
        { s with cache := s.cache.set provider.id (now + config.cacheMs, observation) }.Sound :=
      h.congr rfl rfl rfl fun _ => rfl
    exact hcached.setPhase (At.of_phase hread rfl)
  · rename_i hread
    exact h.setPhase (At.of_phase hread rfl)
  · exact h

theorem Sound.forget (h : s.Sound) (i : Nat) : (s.forget i).Sound := by
  unfold Reader.forget
  split
  · rename_i provider outcome collector hread
    have hi : s.seen i = some (provider, .left) := by
      unfold seen
      rw [hread]
      rfl
    have hseen : ∀ j, ({ s with inflight := s.inflight.erase provider.id }.setPhase i
        (.finished outcome)).seen j = if i = j then some (provider, .ended) else s.seen j := by
      intro j
      rw [seen_setPhase]
      split
      · rename_i heq
        subst heq
        show (s.seen i).map _ = _
        rw [hi]
        rfl
      · rfl
    have hat : ∀ stage j, ({ s with inflight := s.inflight.erase provider.id }.setPhase i
        (.finished outcome)).At stage j ↔ if i = j then stage = .ended else s.At stage j := by
      intro stage j
      unfold At
      rw [hseen]
      split
      · simp [eq_comm]
      · rfl
    have hself : ∀ stage, s.At stage i ↔ stage = .left := by
      intro stage
      unfold At
      rw [hi]
      simp [eq_comm]
    constructor
    · exact h.slots
    · intro j
      rw [hat]
      split
      · rename_i heq
        subst heq
        exact (h.waiting i).trans ((hself _).trans (by decide))
      · exact h.waiting j
    · intro j
      rw [hat]
      split
      · rename_i heq
        subst heq
        exact (h.holders i).trans ((hself _).trans (by decide))
      · exact h.holders j
    · intro j
      rw [hat, hat]
      split
      · rename_i heq
        subst heq
        refine (h.released i).trans ?_
        rw [hself, hself]
        decide
      · exact h.released j
    · exact h.once
    · intro j other stage hother hstage
      rw [hseen] at hother
      split at hother
      · cases hother
        exact absurd rfl hstage
      · rename_i hne
        have hold := h.inflight j other stage hother hstage
        show (s.inflight.erase provider.id).get? other.id = some j
        rw [Dict.get?_erase_of_ne, hold]
        intro hid
        rw [hid, h.inflight i provider .left hi (by decide)] at hold
        exact hne (Option.some.inj hold)
  · exact h

section Reading

variable {config : AccountsConfig}

theorem Sound.readProvider (h : s.Sound) (provider : ProviderInstance) (now : Int) :
    (s.readProvider config provider now).1.Sound := by
  unfold Reader.readProvider
  split
  · exact h
  · split
    · exact h
    · split
      · exact h
      · split
        · exact h
        · split
          · exact h
          · rename_i hfree
            exact h.collect hfree

theorem Sound.readGroup (h : s.Sound) (now : Int)
    (providers : List ProviderInstance) : (readGroup config now providers s).1.Sound := by
  induction providers generalizing s with
  | nil => exact h
  | cons provider rest ih => exact ih (h.readProvider provider now)

theorem Sound.withCalls (h : s.Sound) (calls : List (ReadCall ω)) :
    { s with calls := calls }.Sound :=
  h.congr rfl rfl rfl fun _ => rfl

theorem Sound.step (h : s.Sound) (action : ReaderAction ω) :
    (readerStep config s action).Sound := by
  cases action with
  | read ids now =>
    show (s.beginRead config ids now).Sound
    unfold beginRead
    split
    · exact h
    · split
      · exact h
      · exact (h.readGroup now _).withCalls _
  | «continue» call now =>
    show (s.continueRead config call now).Sound
    unfold continueRead
    split
    · exact h
    · split
      · exact h
      · split
        · exact h.withCalls _
        · split
          · exact h
          · dsimp only
            split
            · exact h.withCalls _
            · exact (h.readGroup now _).withCalls _
  | resume i => exact h.resume i
  | endCollector i result => exact h.endCollector i result
  | abort i => exact h.abort i
  | settle i => exact h.settle i
  | store i now => exact h.store config i now
  | forget i => exact h.forget i
  | close =>
    have hclosed : { s with closed := true }.Sound := h.congr rfl rfl rfl fun _ => rfl
    exact hclosed.abortAll _

end Reading

end Reader

end HarnessControl.Accounts
