import HarnessControl.Accounts.UsageReaderSlots

/-!
# Runs of the account reader

What one step does to each read, and from it what holds in every run: one read of a provider at a
time, slots that are handed over, and no collector that is started after the reader is closed.  The
calls of collectors are bounded where no read is settled before its collector has ended.
-/

namespace HarnessControl.Accounts

open HarnessControl.Library

variable {ω : Type}

namespace Reader

/-! ## What a step does to a read -/

/-- A read goes on by one step, of a reader that is closed or not; `settles` says that the step is
the one that settles it. -/
inductive Moves (closed : Bool) (settles : Prop) : ProviderRead ω → ProviderRead ω → Prop where
  | same (read) : Moves closed settles read read
  | wake (read) : read.phase = .waiting → Moves closed settles read { read with phase := .woken }
  | start (read) : closed = false → read.phase = .woken →
    Moves closed settles read { read with phase := .collecting false, collector := .running }
  | turnAway (read outcome) : closed = true → read.phase = .woken →
    Moves closed settles read { read with phase := .settled outcome }
  | abort (read aborted) : read.phase = .collecting aborted →
    Moves closed settles read { read with phase := .collecting true }
  | settle (read aborted outcome) : settles → read.phase = .collecting aborted →
    Moves closed settles read { read with phase := .settled outcome }
  | store (read outcome) : read.phase = .settled outcome →
    Moves closed settles read { read with phase := .stored outcome }
  | forget (read outcome) : read.phase = .stored outcome →
    Moves closed settles read { read with phase := .finished outcome }
  | ended (read result) : read.collector = .running →
    Moves closed settles read { read with collector := .ended result }

def Begun (closed : Bool) (read : ProviderRead ω) : Prop :=
  (read.phase = .waiting ∧ read.collector = .notStarted) ∨
    (closed = false ∧ read.phase = .collecting false ∧ read.collector = .running)

def Releases (s t : Reader ω) : Prop :=
  ∃ i, t.releases = s.releases ++ [i] ∧ Slots.HandedOver s.slots t.slots

structure Effect (action : ReaderAction ω) (s t : Reader ω) : Prop where
  reads : ∀ i after, t.reads[i]? = some after →
    (∃ before, s.reads[i]? = some before ∧ Moves s.closed (action = .settle i) before after) ∨
      Begun s.closed after
  closed : s.closed = true → t.closed = true
  releases : t.releases = s.releases ∨ Releases s t

variable {action : ReaderAction ω} {s t : Reader ω}

theorem Effect.of_reads (h : ∀ i after, t.reads[i]? = some after →
      ∃ before, s.reads[i]? = some before ∧ Moves s.closed (action = .settle i) before after)
    (hclosed : s.closed = true → t.closed = true) (hreleases : t.releases = s.releases) :
    Effect action s t :=
  ⟨fun i after hafter => Or.inl (h i after hafter), hclosed, Or.inl hreleases⟩

theorem Effect.refl (action : ReaderAction ω) (s : Reader ω) : Effect action s s :=
  .of_reads (fun _ after hafter => ⟨after, hafter, .same after⟩) id rfl

variable {s : Reader ω}

theorem moves_setPhase {settles : Nat → Prop} {i : Nat} {phase : Phase ω}
    (h : ∀ read, s.reads[i]? = some read →
      Moves s.closed (settles i) read { read with phase }) (j : Nat) (after : ProviderRead ω)
    (hafter : (s.setPhase i phase).reads[j]? = some after) :
    ∃ before, s.reads[j]? = some before ∧ Moves s.closed (settles j) before after := by
  rw [getElem_setPhase] at hafter
  obtain ⟨before, hbefore, rfl⟩ := Option.map_eq_some_iff.mp hafter
  refine ⟨before, hbefore, ?_⟩
  split
  · rename_i heq
    subst heq
    exact h before hbefore
  · exact .same before

theorem effect_abort (action : ReaderAction ω) (s : Reader ω) (i : Nat) :
    Effect action s (s.abort i) := by
  unfold Reader.abort
  split
  · rename_i hread
    refine Effect.of_reads ?_ id rfl
    apply moves_setPhase
    intro read hother
    rw [hread] at hother
    cases hother
    exact .abort _ _ rfl
  · exact .refl action s

theorem effect_store (config : AccountsConfig) (s : Reader ω) (i : Nat) (now : Int) :
    Effect (.store i now) s (s.store config i now) := by
  unfold Reader.store
  split
  · rename_i provider observation collector hread
    refine Effect.of_reads ?_ id rfl
    apply moves_setPhase
      (s := { s with cache := s.cache.set provider.id (now + config.cacheMs, observation) })
    intro read hother
    have hsame : s.reads[i]? = some read := hother
    rw [hread] at hsame
    cases hsame
    exact .store _ _ rfl
  · rename_i hread
    refine Effect.of_reads ?_ id rfl
    apply moves_setPhase
    intro read hother
    rw [hread] at hother
    cases hother
    exact .store _ _ rfl
  · exact .refl _ s

theorem effect_forget (s : Reader ω) (i : Nat) : Effect (.forget i) s (s.forget i) := by
  unfold Reader.forget
  split
  · rename_i provider outcome collector hread
    refine Effect.of_reads ?_ id rfl
    apply moves_setPhase (s := { s with inflight := s.inflight.erase provider.id })
    intro read hother
    have hsame : s.reads[i]? = some read := hother
    rw [hread] at hsame
    cases hsame
    exact .forget _ _ rfl
  · exact .refl _ s

theorem effect_endCollector (s : Reader ω) (i : Nat) (result : CollectorResult ω) :
    Effect (.endCollector i result) s (s.endCollector i result) := by
  unfold Reader.endCollector
  split
  · rename_i provider phase hread
    refine Effect.of_reads ?_ id rfl
    intro j after hafter
    rw [getElem_setCollector] at hafter
    obtain ⟨before, hbefore, rfl⟩ := Option.map_eq_some_iff.mp hafter
    refine ⟨before, hbefore, ?_⟩
    split
    · rename_i heq
      subst heq
      rw [hread] at hbefore
      cases hbefore
      exact .ended _ _ rfl
    · exact .same before
  · exact .refl _ s

theorem effect_leave (h : s.Sound) {i : Nat}
    (hi : s.At .holding i) (outcome : Option (Observation ω))
    (hmoves : ∀ read, s.reads[i]? = some read →
      Moves s.closed (action = .settle i) read { read with phase := .settled outcome }) :
    Effect action s (s.leave i outcome) := by
  constructor
  · intro j after hafter
    rw [getElem_leave] at hafter
    obtain ⟨before, hbefore, rfl⟩ := Option.map_eq_some_iff.mp hafter
    refine Or.inl ⟨before, hbefore, ?_⟩
    split
    · rename_i hhead
      obtain ⟨provider, hseen⟩ := (h.waiting j).mp (List.mem_of_mem_head? hhead)
      apply Moves.wake
      unfold seen at hseen
      rw [hbefore, Option.map_some] at hseen
      obtain ⟨-, hstage⟩ := Prod.mk.inj (Option.some.inj hseen)
      cases hphase : before.phase with
      | waiting => rfl
      | woken => rw [hphase] at hstage; cases hstage
      | collecting aborted => rw [hphase] at hstage; cases hstage
      | settled outcome => rw [hphase] at hstage; cases hstage
      | stored outcome => rw [hphase] at hstage; cases hstage
      | finished outcome => rw [hphase] at hstage; cases hstage
    · split
      · rename_i heq
        subst heq
        exact hmoves before hbefore
      · exact .same before
  · intro hclosed
    rwa [leave_closed]
  · refine Or.inr ⟨i, leave_releases s i outcome, ?_⟩
    rw [leave_slots]
    exact h.slots.handedOver ((h.holders i).mpr hi)

theorem effect_settle (h : s.Sound) (i : Nat) :
    Effect (.settle i) s (s.settle i) := by
  unfold Reader.settle
  split
  · rename_i hread
    apply effect_leave h (At.of_phase hread rfl)
    intro read hother
    rw [hread] at hother
    cases hother
    exact .settle _ _ _ rfl rfl
  · rename_i hread
    apply effect_leave h (At.of_phase hread rfl)
    intro read hother
    rw [hread] at hother
    cases hother
    exact .settle _ _ _ rfl rfl
  · exact .refl _ s

theorem effect_resume (h : s.Sound) (i : Nat) :
    Effect (.resume i) s (s.resume i) := by
  unfold Reader.resume
  split
  · rename_i provider collector hread
    unfold Reader.enter
    split
    · rename_i hclosed
      apply effect_leave h (At.of_phase hread rfl)
      intro read hother
      rw [hread] at hother
      cases hother
      exact .turnAway _ _ hclosed rfl
    · rename_i hopen
      refine Effect.of_reads ?_ id rfl
      intro j after hafter
      rw [getElem_setCollector, getElem_setPhase, Option.map_map] at hafter
      obtain ⟨before, hbefore, rfl⟩ := Option.map_eq_some_iff.mp hafter
      refine ⟨before, hbefore, ?_⟩
      dsimp only [Function.comp]
      by_cases heq : i = j
      · subst heq
        rw [hread] at hbefore
        cases hbefore
        rw [if_pos rfl, if_pos rfl]
        exact .start _ (Bool.not_eq_true _ ▸ hopen) rfl
      · rw [if_neg heq, if_neg heq]
        exact .same before
  · exact .refl _ s

theorem getElem_abortAll (count : Nat) (s : Reader ω) (j : Nat) (after : ProviderRead ω)
    (hafter : (abortAll count s).reads[j]? = some after) :
    ∃ before, s.reads[j]? = some before ∧
      (after = before ∨ ∃ aborted, before.phase = .collecting aborted ∧
        after = { before with phase := .collecting true }) := by
  induction count generalizing s with
  | zero => exact ⟨after, hafter, Or.inl rfl⟩
  | succ count ih =>
    obtain ⟨middle, hmiddle, hmove⟩ := ih (s.abort count) hafter
    unfold Reader.abort at hmiddle
    split at hmiddle
    · rename_i hread
      rw [getElem_setPhase] at hmiddle
      obtain ⟨before, hbefore, rfl⟩ := Option.map_eq_some_iff.mp hmiddle
      refine ⟨before, hbefore, ?_⟩
      split at hmove
      · rename_i heq
        subst heq
        rw [hread] at hbefore
        cases hbefore
        right
        obtain rfl | ⟨aborted, -, rfl⟩ := hmove
        · exact ⟨_, rfl, rfl⟩
        · exact ⟨_, rfl, rfl⟩
      · exact hmove
    · exact ⟨middle, hmiddle, hmove⟩

theorem abortAll_closed (count : Nat) (s : Reader ω) : (abortAll count s).closed = s.closed := by
  induction count generalizing s with
  | zero => rfl
  | succ count ih =>
    rw [abortAll, ih]
    unfold Reader.abort
    split <;> rfl

theorem abortAll_releases (count : Nat) (s : Reader ω) :
    (abortAll count s).releases = s.releases := by
  induction count generalizing s with
  | zero => rfl
  | succ count ih =>
    rw [abortAll, ih]
    unfold Reader.abort
    split <;> rfl

theorem effect_close (s : Reader ω) : Effect .close s s.close := by
  apply Effect.of_reads
  · intro j after hafter
    obtain ⟨before, hbefore, rfl | ⟨aborted, hphase, rfl⟩⟩ :=
      getElem_abortAll _ { s with closed := true } j after hafter
    · exact ⟨after, hbefore, .same after⟩
    · exact ⟨before, hbefore, .abort before aborted hphase⟩
  · exact fun _ => abortAll_closed _ _
  · exact abortAll_releases _ _

/-! ## What asking a group does -/

/-- The reads that were there stay as they are. -/
structure Grows (s t : Reader ω) : Prop where
  reads : ∀ (i : Nat) (after : ProviderRead ω), t.reads[i]? = some after → s.reads[i]? = some after ∨ Begun s.closed after
  closed : t.closed = s.closed
  releases : t.releases = s.releases

theorem grows_collect (hopen : s.closed = false) (provider : ProviderInstance) :
    Grows s (s.collect provider) := by
  have hbegun : ∀ i after, (s.begun provider).reads[i]? = some after →
      s.reads[i]? = some after ∨ i = s.reads.length ∧ after.collector = .notStarted ∧
        after.phase = if 4 ≤ s.slots.active then Phase.waiting else .woken := by
    intro i after hafter
    obtain hlt | hge := Nat.lt_or_ge i s.reads.length
    · left
      rwa [show (s.begun provider).reads = s.reads ++ [_] from rfl,
        List.getElem?_append_left hlt] at hafter
    · right
      rw [show (s.begun provider).reads = s.reads ++ [_] from rfl,
        List.getElem?_append_right hge] at hafter
      obtain ⟨hindex, hafter⟩ := List.getElem?_eq_some_iff.mp hafter
      rw [List.length_singleton] at hindex
      rw [List.getElem_singleton] at hafter
      subst hafter
      exact ⟨by omega, rfl, rfl⟩
  rw [collect_eq]
  split
  · rename_i hfull
    refine ⟨?_, rfl, rfl⟩
    intro i after hafter
    obtain hold | ⟨-, hcollector, hphase⟩ := hbegun i after hafter
    · exact Or.inl hold
    · rw [if_pos hfull] at hphase
      exact Or.inr (Or.inl ⟨hphase, hcollector⟩)
  · rename_i hroom
    unfold enter
    have hstill : ¬(s.begun provider).closed = true := by
      show ¬s.closed = true
      rw [hopen]
      exact Bool.false_ne_true
    rw [if_neg hstill]
    refine ⟨?_, rfl, rfl⟩
    intro i after hafter
    rw [getElem_setCollector, getElem_setPhase, Option.map_map] at hafter
    obtain ⟨before, hbefore, rfl⟩ := Option.map_eq_some_iff.mp hafter
    dsimp only [Function.comp]
    by_cases heq : s.reads.length = i
    · rw [if_pos heq, if_pos heq]
      exact Or.inr (Or.inr ⟨hopen, rfl, rfl⟩)
    · rw [if_neg heq, if_neg heq]
      obtain hold | ⟨hindex, -⟩ := hbegun i before hbefore
      · exact Or.inl hold
      · exact absurd hindex.symm heq

theorem Grows.refl (s : Reader ω) : Grows s s := ⟨fun _ _ h => Or.inl h, rfl, rfl⟩

theorem Grows.trans {s t u : Reader ω} (h : Grows s t) (hnext : Grows t u) : Grows s u := by
  refine ⟨?_, hnext.closed.trans h.closed, hnext.releases.trans h.releases⟩
  intro i after hafter
  obtain hmiddle | hbegun := hnext.reads i after hafter
  · exact h.reads i after hmiddle
  · rw [h.closed] at hbegun
    exact Or.inr hbegun

theorem grows_readProvider (config : AccountsConfig) (s : Reader ω) (provider : ProviderInstance)
    (now : Int) : Grows s (s.readProvider config provider now).1 := by
  unfold Reader.readProvider
  split
  · exact .refl s
  · rename_i hopen
    split
    · exact .refl s
    · split
      · exact .refl s
      · split
        · exact .refl s
        · split
          · exact .refl s
          · exact grows_collect (Bool.not_eq_true _ ▸ hopen) provider

theorem grows_readGroup (config : AccountsConfig) (now : Int) (providers : List ProviderInstance)
    (s : Reader ω) : Grows s (readGroup config now providers s).1 := by
  induction providers generalizing s with
  | nil => exact .refl s
  | cons provider rest ih => exact (grows_readProvider config s provider now).trans (ih _)

theorem Grows.effect (h : Grows s t) (action : ReaderAction ω)
    (calls : List (ReadCall ω)) : Effect action s { t with calls := calls } := by
  constructor
  · intro i after hafter
    obtain hold | hbegun := h.reads i after hafter
    · exact Or.inl ⟨after, hold, .same after⟩
    · exact Or.inr hbegun
  · intro hclosed
    exact h.closed.trans hclosed
  · exact Or.inl h.releases

theorem effect_step (config : AccountsConfig) {s : Reader ω} (h : s.Sound)
    (action : ReaderAction ω) : Effect action s (readerStep config s action) := by
  cases action with
  | read ids now =>
    show Effect _ s (s.beginRead config ids now)
    unfold beginRead
    split
    · exact .refl _ s
    · split
      · exact .refl _ s
      · exact (grows_readGroup config now _ s).effect _ _
  | «continue» call now =>
    show Effect _ s (s.continueRead config call now)
    unfold continueRead
    split
    · exact .refl _ s
    · split
      · exact .refl _ s
      · split
        · exact (Grows.refl s).effect _ _
        · split
          · exact .refl _ s
          · dsimp only
            split
            · exact (Grows.refl s).effect _ _
            · exact (grows_readGroup config now _ s).effect _ _
  | resume i => exact effect_resume h i
  | endCollector i result => exact effect_endCollector s i result
  | abort i => exact effect_abort _ s i
  | settle i => exact effect_settle h i
  | store i now => exact effect_store config s i now
  | forget i => exact effect_forget s i
  | close => exact effect_close s

/-! ## What holds in every run -/

/-- No collector is called before its read has a slot. -/
def Fresh (s : Reader ω) : Prop :=
  ∀ (i : Nat) read, s.reads[i]? = some read → read.phase = .waiting ∨ read.phase = .woken →
    read.collector = .notStarted

theorem Fresh.step (h : s.Fresh)
    (heffect : Effect action s t) : t.Fresh := by
  intro i after hafter hphase
  obtain ⟨before, hbefore, hmoves⟩ | hbegun := heffect.reads i after hafter
  · have hfresh := h i before hbefore
    cases hmoves with
    | same => exact hfresh hphase
    | wake hwaiting => exact hfresh (Or.inl hwaiting)
    | start => obtain h | h := hphase <;> cases h
    | turnAway => obtain h | h := hphase <;> cases h
    | abort => obtain h | h := hphase <;> cases h
    | settle => obtain h | h := hphase <;> cases h
    | store => obtain h | h := hphase <;> cases h
    | forget => obtain h | h := hphase <;> cases h
    | ended result hrunning =>
      rw [hfresh hphase] at hrunning
      cases hrunning
  · obtain ⟨-, hcollector⟩ | ⟨-, hcollecting, -⟩ := hbegun
    · exact hcollector
    · rw [hcollecting] at hphase
      obtain h | h := hphase <;> cases h

/-- What of a reader says that no two reads of a provider are unfinished, that all slots are held by
reads that are not settled while one waits, and that each read that settled released its slot once. -/
structure Orderly (s : Reader ω) : Prop where
  single : ∀ (i j : Nat) read other, s.reads[i]? = some read → s.reads[j]? = some other →
    read.phase.stage ≠ .ended → other.phase.stage ≠ .ended → read.provider.id = other.provider.id →
    i = j
  held : ∀ i, s.At .waiting i → s.slots.active = 4 ∧ s.slots.holders.length = 4 ∧
    s.slots.holders.Nodup ∧ ∀ j ∈ s.slots.holders, s.At .holding j
  once : s.releases.Nodup ∧ ∀ i, i ∈ s.releases ↔ s.At .left i ∨ s.At .ended i

theorem seen_of_read {i : Nat} {read : ProviderRead ω}
    (h : s.reads[i]? = some read) : s.seen i = some (read.provider, read.phase.stage) := by
  unfold seen
  rw [h]
  rfl

theorem Sound.orderly (h : s.Sound) : s.Orderly := by
  constructor
  · intro i j read other hread hother hunfinished hanother hid
    have hfirst := h.inflight i _ _ (seen_of_read hread) hunfinished
    rw [hid, h.inflight j _ _ (seen_of_read hother) hanother] at hfirst
    exact (Option.some.inj hfirst).symm
  · intro i hwaiting
    have hfull := h.slots.full (List.ne_nil_of_mem ((h.waiting i).mpr hwaiting))
    exact ⟨hfull, h.slots.active ▸ hfull, h.slots.holders, fun j hj => (h.holders j).mp hj⟩
  · exact ⟨h.once, h.released⟩

/-- After the reader is closed it stays so, and no collector is started. -/
def StartsNone (s t : Reader ω) : Prop :=
  s.closed = true → t.closed = true ∧
    ∀ (i : Nat) after, t.reads[i]? = some after → after.collector ≠ .notStarted →
      ∃ before, s.reads[i]? = some before ∧ before.collector ≠ .notStarted

theorem Effect.startsNone (h : Effect action s t) :
    StartsNone s t := by
  intro hclosed
  refine ⟨h.closed hclosed, ?_⟩
  intro i after hafter hstarted
  obtain ⟨before, hbefore, hmoves⟩ | hbegun := h.reads i after hafter
  · refine ⟨before, hbefore, ?_⟩
    cases hmoves with
    | start hopen => rw [hclosed] at hopen; cases hopen
    | ended result hrunning =>
      rw [hrunning]
      nofun
    | same => exact hstarted
    | wake => exact hstarted
    | turnAway => exact hstarted
    | abort => exact hstarted
    | settle => exact hstarted
    | store => exact hstarted
    | forget => exact hstarted
  · obtain ⟨-, hcollector⟩ | ⟨hopen, -⟩ := hbegun
    · exact absurd hcollector hstarted
    · rw [hclosed] at hopen
      cases hopen

/-! ## Where collectors end in time -/

def isRunning (read : ProviderRead ω) : Bool :=
  match read.collector with
  | .running => true
  | _ => false

/-- The calls of collectors that were started and have not ended. -/
def runningCalls (s : Reader ω) : List Nat :=
  (List.range s.reads.length).filter fun i => s.reads[i]?.any isRunning

/-- A read that is settled has a collector that has ended. -/
def Reacts (s : Reader ω) (action : ReaderAction ω) : Prop :=
  ∀ (i : Nat) read, action = .settle i → s.reads[i]? = some read → isRunning read = false

/-- A collector that runs is that of a read with a slot. -/
def Tidy (s : Reader ω) : Prop :=
  ∀ (i : Nat) read, s.reads[i]? = some read → isRunning read = true → read.phase.stage = .holding

theorem Tidy.step (h : s.Tidy) (hfresh : s.Fresh)
    (hreacts : Reacts s action) (heffect : Effect action s t) : t.Tidy := by
  intro i after hafter hrunning
  obtain ⟨before, hbefore, hmoves⟩ | hbegun := heffect.reads i after hafter
  · have htidy := h i before hbefore
    cases hmoves with
    | same => exact htidy hrunning
    | wake => rfl
    | start => rfl
    | turnAway outcome hclosed hwoken =>
      have hstill : isRunning before = true := hrunning
      unfold isRunning at hstill
      rw [hfresh i before hbefore (Or.inr hwoken)] at hstill
      cases hstill
    | abort => rfl
    | settle aborted outcome hsettles =>
      have hended : isRunning before = false := hreacts i before hsettles hbefore
      have hstill : isRunning before = true := hrunning
      rw [hended] at hstill
      cases hstill
    | store outcome hphase =>
      have hstage := htidy hrunning
      rw [hphase] at hstage
      cases hstage
    | forget outcome hphase =>
      have hstage := htidy hrunning
      rw [hphase] at hstage
      cases hstage
    | ended => cases hrunning
  · obtain ⟨-, hcollector⟩ | ⟨-, hcollecting, -⟩ := hbegun
    · unfold isRunning at hrunning
      rw [hcollector] at hrunning
      cases hrunning
    · rw [hcollecting]
      rfl

theorem runningCalls_le (h : s.Sound) (htidy : s.Tidy) :
    s.runningCalls.length ≤ 4 := by
  have hsub : s.runningCalls ⊆ s.slots.holders := by
    intro i hi
    obtain ⟨-, hrunning⟩ := List.mem_filter.mp hi
    rw [Option.any_eq_true] at hrunning
    obtain ⟨read, hread, hrunning⟩ := hrunning
    exact (h.holders i).mpr (At.of_phase hread (htidy i read hread hrunning))
  have hnodup : s.runningCalls.Nodup := List.nodup_range.filter _
  have hlength := List.Nodup.length_le_of_subset hnodup hsub
  have hactive := h.slots.active
  have hbound := h.slots.bound
  omega

/-! ## Runs -/

def HandsOver (s t : Reader ω) : Prop := t.releases = s.releases ∨ Releases s t

theorem kept_always (config : AccountsConfig) (actions : List (ReaderAction ω)) :
    Always (readerStep config) (fun s => s.Sound ∧ s.Fresh) initial actions := by
  apply always_of_inv
  · rintro s action ⟨hsound, hfresh⟩
    exact ⟨hsound.step action, hfresh.step (effect_step config hsound action)⟩
  · exact ⟨.initial, fun i read h => nomatch h⟩

end Reader

open Reader

/-- In every run one read of a provider is unfinished at a time, no read waits while a slot is free,
each slot is released once and handed over, and no collector is started after the reader is closed.
Where no read is settled while its collector runs, no more than four collectors run. -/
theorem account_reads_bounded (config : AccountsConfig) (actions : List (ReaderAction ω)) :
    Always (readerStep config) Orderly initial actions ∧
      Meets (readerStep config) (fun s action => HandsOver s (readerStep config s action) ∧
        StartsNone s (readerStep config s action)) initial actions ∧
      (Meets (readerStep config) Reacts initial actions →
        Always (readerStep config) (fun s => s.runningCalls.length ≤ 4) initial actions) := by
  have hkept := kept_always config actions
  refine ⟨hkept.mono fun s h => h.1.orderly, ?_, ?_⟩
  · have hall : Meets (readerStep config) (fun _ _ => True) initial actions :=
      Meets.of_forall (fun _ _ => trivial) initial
    apply Meets.of_always _ hkept hall
    rintro s action ⟨hsound, -⟩ -
    have heffect := effect_step config hsound action
    exact ⟨heffect.releases, heffect.startsNone⟩
  · intro hreacts
    have htidy : Always (readerStep config) (fun s => (s.Sound ∧ s.Fresh) ∧ s.Tidy) initial
        actions := by
      apply always_of_meets _ _ hreacts
      · rintro s action ⟨⟨hsound, hfresh⟩, htidy⟩ hreacts
        have heffect := effect_step config hsound action
        exact ⟨⟨hsound.step action, hfresh.step heffect⟩, htidy.step hfresh hreacts heffect⟩
      · exact ⟨⟨.initial, fun i read h => nomatch h⟩, fun i read h => nomatch h⟩
    exact htidy.mono fun s h => runningCalls_le h.1.1 h.2

/-! ## Collectors that do not react -/

def fiveProviders : AccountsConfig where
  provider_instances := ["a", "b", "c", "d", "e"].map fun id =>
    { id, driver_kind := "codex", enabled := true, account_usage := true }
  collectors := ["codex"]
  cacheMs := 30000

/-- The four collectors of the first group run on after their time, and the fifth is started. -/
def abandonedCollectors : List (ReaderAction Unit) :=
  .read none 0 :: [0, 1, 2, 3].flatMap (fun i => [.abort i, .settle i, .store i 15000, .forget i]) ++
    [.continue 0 15000]

theorem five_collectors_run :
    (run (readerStep fiveProviders) initial abandonedCollectors).runningCalls = [0, 1, 2, 3, 4] := by
  decide

def abortedCollectors : List (ReaderAction Unit) :=
  .read none 0 :: [0, 1, 2, 3].flatMap (fun i =>
    [.abort i, .endCollector i .error, .settle i, .store i 15000, .forget i]) ++ [.continue 0 15000]

instance (s : Reader ω) : (action : ReaderAction ω) → Decidable (Reacts s action)
  | .settle i => decidable_of_iff (s.reads[i]?.any isRunning = false) <| by
    rw [Option.any_eq_false]
    constructor
    · rintro h j read haction hread
      cases haction
      exact h read hread
    · exact fun h read hread => h i read rfl hread
  | .read _ _ | .continue _ _ | .resume _ | .endCollector _ _ | .abort _ | .store _ _ | .forget _
  | .close => isTrue fun _ _ haction => by cases haction

theorem account_reads_bounded_aborted :
    Always (readerStep fiveProviders) (fun s => s.runningCalls.length ≤ 4) initial
      abortedCollectors :=
  (account_reads_bounded fiveProviders abortedCollectors).2.2 (by decide)

end HarnessControl.Accounts
