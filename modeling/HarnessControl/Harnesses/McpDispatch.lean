import Mathlib.Data.List.Pairwise
import Mathlib.Logic.Function.Basic
import HarnessControl.Library.Transition

/-!
# The dispatch queue of a session

Whole MCP operations are run one after the other by a chain of promises.  A caller whose signal is
aborted leaves at once; its place in the chain stays, so that the chain and not what the callers see
keeps the operations apart.
-/

namespace HarnessControl.Harnesses

open HarnessControl.Library

variable {σ τ ε : Type*}

/-! ## The queue -/

inductive DispatchPhase where
  /-- The tail that it was chained to has not settled. -/
  | queued
  /-- `beforeDispatch` is being evaluated. -/
  | checking
  /-- The promise of the operation has not settled. -/
  | running
  /-- `execution` has settled; the `finally` of the tail runs some microtasks later. -/
  | settled
  /-- The tail has settled as well. -/
  | left
deriving DecidableEq

/-- A call of `dispatch` that was chained to the tail. -/
structure DispatchCall (σ τ ε : Type*) where
  signal : σ
  phase : DispatchPhase
  /-- What won the race of `execution` and `cancelled`. -/
  answer : Option (Except ε τ)

/-- The listener of a call rejects `cancelled`; only the first answer counts. -/
def DispatchCall.cancel [DecidableEq σ] (signal : σ) (reason : ε) (call : DispatchCall σ τ ε) :
    DispatchCall σ τ ε :=
  if call.signal = signal then { call with answer := call.answer.or (some (.error reason)) }
  else call

inductive DispatchRefusal (ε : Type*) where
  | aborted (reason : ε)
  /-- `mcp_dispatch_limit`: The session MCP dispatch queue is full. -/
  | limit

inductive DispatchEvent where
  /-- `beforeDispatch` returned, or threw. -/
  | checked (index : Nat) (passed : Bool)
  | started (index : Nat)

structure HarnessMcpDispatchQueue (σ τ ε : Type*) where
  pending : Nat
  /-- The chain, in the order of the calls. -/
  calls : List (DispatchCall σ τ ε)
  /-- The reasons of the signals that are aborted. -/
  aborted : σ → Option ε
  refused : List (DispatchRefusal ε)
  log : List DispatchEvent

/-- What the callers, the operations and the event loop do.  While `beforeDispatch` or the first
part of an operation runs, it may itself dispatch and abort. -/
inductive DispatchAction (σ τ ε : Type*) where
  | dispatch (signal : σ)
  | abort (signal : σ) (reason : ε)
  /-- The microtask after the tail before. -/
  | turn (index : Nat)
  /-- `beforeDispatch` returns, or throws. -/
  | check (index : Nat) (failure : Option ε)
  | settle (index : Nat) (result : Except ε τ)
  /-- The `finally` of the tail. -/
  | leave (index : Nat)

namespace HarnessMcpDispatchQueue

def empty : HarnessMcpDispatchQueue σ τ ε := ⟨0, [], fun _ => none, [], []⟩

/-- The tail that the call is chained to has settled. -/
def reached (q : HarnessMcpDispatchQueue σ τ ε) : Nat → Bool
  | 0 => true
  | index + 1 => q.calls[index]?.any fun call => call.phase = .left

/-- Where `execution` settles, it answers the callers that have not left. -/
def move (q : HarnessMcpDispatchQueue σ τ ε) (index : Nat) (call : DispatchCall σ τ ε)
    (phase : DispatchPhase) (result : Option (Except ε τ)) : HarnessMcpDispatchQueue σ τ ε :=
  { q with
    calls := q.calls.set index
      { call with phase := phase, answer := call.answer.or result } }

/-- Does nothing unless the call is in the phase. -/
def whenIn (q : HarnessMcpDispatchQueue σ τ ε) (index : Nat) (phase : DispatchPhase)
    (body : DispatchCall σ τ ε → HarnessMcpDispatchQueue σ τ ε) :
    HarnessMcpDispatchQueue σ τ ε :=
  match q.calls[index]? with
  | some call => if call.phase = phase then body call else q
  | none => q

def dispatch (q : HarnessMcpDispatchQueue σ τ ε) (signal : σ) : HarnessMcpDispatchQueue σ τ ε :=
  match q.aborted signal with
  | some reason => { q with refused := q.refused ++ [.aborted reason] }
  | none =>
    if 256 ≤ q.pending then { q with refused := q.refused ++ [.limit] }
    else { q with pending := q.pending + 1, calls := q.calls ++ [⟨signal, .queued, none⟩] }

variable [DecidableEq σ]

def abort (q : HarnessMcpDispatchQueue σ τ ε) (signal : σ) (reason : ε) :
    HarnessMcpDispatchQueue σ τ ε :=
  match q.aborted signal with
  | some _ => q
  | none =>
    { q with
      aborted := Function.update q.aborted signal (some reason)
      calls := q.calls.map (DispatchCall.cancel signal reason) }

def step (q : HarnessMcpDispatchQueue σ τ ε) :
    DispatchAction σ τ ε → HarnessMcpDispatchQueue σ τ ε
  | .dispatch signal => q.dispatch signal
  | .abort signal reason => q.abort signal reason
  | .turn index =>
    if q.reached index then
      q.whenIn index .queued fun call =>
        match q.aborted call.signal with
        | some reason => q.move index call .settled (some (.error reason))
        | none => q.move index call .checking none
    else q
  | .check index failure =>
    q.whenIn index .checking fun call =>
      match failure with
      | some error =>
        { q.move index call .settled (some (.error error)) with
          log := q.log ++ [.checked index false] }
      | none =>
        { q.move index call .running none with
          log := q.log ++ [.checked index true, .started index] }
  | .settle index result =>
    q.whenIn index .running fun call => q.move index call .settled (some result)
  | .leave index =>
    q.whenIn index .settled fun call =>
      { q.move index call .left none with pending := q.pending - 1 }

end HarnessMcpDispatchQueue

/-! ## The log -/

def DispatchEvent.start? : DispatchEvent → Option Nat
  | .checked _ _ => none
  | .started index => some index

/-- What the log says of the calls of which `beforeDispatch` has been evaluated. -/
structure DispatchLogged (evaluated : Nat → Prop) (log : List DispatchEvent) : Prop where
  evaluated : ∀ index passed, .checked index passed ∈ log → evaluated index
  /-- Right before an operation is started, `beforeDispatch` returned for it. -/
  guarded : ∀ place index, log[place]? = some (.started index) →
    ∃ before, place = before + 1 ∧ log[before]? = some (.checked index true)
  fenced : ∀ index, .checked index false ∈ log → .started index ∉ log
  ordered : (log.filterMap DispatchEvent.start?).Pairwise (· < ·)

namespace DispatchLogged

variable {evaluated later : Nat → Prop} {log : List DispatchEvent} {index : Nat}

theorem empty : DispatchLogged evaluated [] where
  evaluated _ _ h := absurd h List.not_mem_nil
  guarded _ _ h := nomatch h
  fenced _ h := absurd h List.not_mem_nil
  ordered := List.Pairwise.nil

theorem mono (h : DispatchLogged evaluated log) (hlater : ∀ index, evaluated index → later index) :
    DispatchLogged later log :=
  { h with evaluated := fun index passed hin => hlater index (h.evaluated index passed hin) }

theorem of_started (h : DispatchLogged evaluated log) (hin : .started index ∈ log) :
    evaluated index := by
  obtain ⟨place, hplace⟩ := List.mem_iff_getElem?.mp hin
  obtain ⟨before, -, hbefore⟩ := h.guarded place index hplace
  exact h.evaluated index true (List.mem_of_getElem? hbefore)

theorem guarded_append (h : DispatchLogged evaluated log) {more : List DispatchEvent}
    (hmore : ∀ place index, more[place]? = some (.started index) →
      ∃ before, place = before + 1 ∧ more[before]? = some (.checked index true))
    (place index : Nat) (hplace : (log ++ more)[place]? = some (.started index)) :
    ∃ before, place = before + 1 ∧ (log ++ more)[before]? = some (.checked index true) := by
  by_cases hlt : place < log.length
  · rw [List.getElem?_append_left hlt] at hplace
    obtain ⟨before, rfl, hbefore⟩ := h.guarded place index hplace
    exact ⟨before, rfl, by rwa [List.getElem?_append_left (by omega)]⟩
  · rw [List.getElem?_append_right (by omega)] at hplace
    obtain ⟨before, hat, hbefore⟩ := hmore _ index hplace
    refine ⟨log.length + before, by omega, ?_⟩
    rwa [List.getElem?_append_right (by omega), Nat.add_sub_cancel_left]

theorem fail (h : DispatchLogged evaluated log) (hnew : ¬evaluated index)
    (hlater : ∀ other, evaluated other → later other) (hindex : later index) :
    DispatchLogged later (log ++ [.checked index false]) where
  evaluated other passed hin := by
    obtain hold | hlast := List.mem_append.mp hin
    · exact hlater other (h.evaluated other passed hold)
    · cases List.mem_singleton.mp hlast
      exact hindex
  guarded := h.guarded_append fun place other hplace => by
    cases place with
    | zero => cases hplace
    | succ place => cases hplace
  fenced other hin hstarted := by
    obtain hstarted | hlast := List.mem_append.mp hstarted
    · obtain hold | hfailed := List.mem_append.mp hin
      · exact h.fenced other hold hstarted
      · cases List.mem_singleton.mp hfailed
        exact hnew (h.of_started hstarted)
    · cases List.mem_singleton.mp hlast
  ordered := by
    rw [List.filterMap_append]
    exact (List.append_nil _).symm ▸ h.ordered

theorem start (h : DispatchLogged evaluated log)
    (hbefore : ∀ other, evaluated other → other < index)
    (hlater : ∀ other, evaluated other → later other) (hindex : later index) :
    DispatchLogged later (log ++ [.checked index true, .started index]) where
  evaluated other passed hin := by
    obtain hold | hlast := List.mem_append.mp hin
    · exact hlater other (h.evaluated other passed hold)
    · simp at hlast
      rw [hlast.1]
      exact hindex
  guarded := h.guarded_append fun place other hplace => by
    match place with
    | 0 => cases hplace
    | 1 =>
      cases hplace
      exact ⟨0, rfl, rfl⟩
    | place + 2 => cases hplace
  fenced other hin hstarted := by
    have hfailed : .checked other false ∈ log := by simpa using hin
    obtain hold | hnew := List.mem_append.mp hstarted
    · exact h.fenced other hfailed hold
    · have hother : other = index := by simpa using hnew
      exact absurd (hbefore other (h.evaluated other false hfailed)) (by omega)
  ordered := by
    rw [List.filterMap_append, List.pairwise_append]
    refine ⟨h.ordered, List.pairwise_singleton _ _, ?_⟩
    intro other hother last hlast
    obtain ⟨event, hevent, hstart⟩ := List.mem_filterMap.mp hother
    have heq : index = last := by simpa [DispatchEvent.start?] using hlast
    cases event with
    | checked => cases hstart
    | started started =>
      cases hstart
      rw [← heq]
      exact hbefore other (h.of_started hevent)

end DispatchLogged

/-! ## The chain -/

namespace HarnessMcpDispatchQueue

/-- A call that had its turn has all calls before it behind it. -/
def Chained (calls : List (DispatchCall σ τ ε)) : Prop :=
  ∀ (first second : Nat) (call later : DispatchCall σ τ ε), first < second →
    calls[first]? = some call → calls[second]? = some later → later.phase ≠ .queued →
    call.phase = .left

/-- The call holds the slot: it had its turn and has not left. -/
def Holds (q : HarnessMcpDispatchQueue σ τ ε) (index : Nat) : Prop :=
  ∃ call, q.calls[index]? = some call ∧ call.phase ≠ .queued ∧ call.phase ≠ .left

/-- `beforeDispatch` has been evaluated for the call, or will never be. -/
def Evaluated (q : HarnessMcpDispatchQueue σ τ ε) (index : Nat) : Prop :=
  ∃ call, q.calls[index]? = some call ∧ call.phase ≠ .queued ∧ call.phase ≠ .checking

structure Sound (q : HarnessMcpDispatchQueue σ τ ε) : Prop where
  chained : Chained q.calls
  pending : q.pending = q.calls.countP fun call => call.phase ≠ .left
  released : ∀ call ∈ q.calls, (q.aborted call.signal).isSome → call.answer.isSome
  logged : DispatchLogged q.Evaluated q.log

variable {q : HarnessMcpDispatchQueue σ τ ε}

theorem Sound.empty : (empty : HarnessMcpDispatchQueue σ τ ε).Sound where
  chained _ _ _ _ _ h := nomatch (show (none : Option (DispatchCall σ τ ε)) = some _ from h)
  pending := rfl
  released _ h := absurd h List.not_mem_nil
  logged := .empty

theorem Chained.set {calls : List (DispatchCall σ τ ε)} (h : Chained calls) {index : Nat}
    {call moved : DispatchCall σ τ ε} (hcall : calls[index]? = some call)
    (hhere : call.phase ≠ .left)
    (hturn : call.phase = .queued → ∀ place other, place < index → calls[place]? = some other →
      other.phase = .left) : Chained (calls.set index moved) := by
  intro first second other later hlt hfirst hsecond hlater
  rw [List.getElem?_set] at hfirst hsecond
  by_cases hsame : index = first
  · subst hsame
    rw [if_neg (by omega)] at hsecond
    exact absurd (h index second call later hlt hcall hsecond hlater) hhere
  · rw [if_neg hsame] at hfirst
    by_cases hmoved : index = second
    · subst hmoved
      by_cases hqueued : call.phase = .queued
      · exact hturn hqueued first other hlt hfirst
      · exact h first index other call hlt hfirst hcall hqueued
    · rw [if_neg hmoved] at hsecond
      exact h first second other later hlt hfirst hsecond hlater

theorem Sound.before (h : q.Sound) {index : Nat} (hreached : q.reached index = true) {place : Nat}
    {other : DispatchCall σ τ ε} (hlt : place < index) (hother : q.calls[place]? = some other) :
    other.phase = .left := by
  cases index with
  | zero => exact absurd hlt (Nat.not_lt_zero place)
  | succ last =>
    obtain ⟨call, hcall, hleft⟩ := (Option.any_eq_true _ _).mp hreached
    rw [decide_eq_true_iff] at hleft
    by_cases heq : place = last
    · rw [heq, hcall] at hother
      cases hother
      exact hleft
    · exact h.chained place last other call (by omega) hother hcall (by rw [hleft]; exact nofun)

variable {call : DispatchCall σ τ ε} {phase : DispatchPhase}

theorem Evaluated.move {index other : Nat}
    {result : Option (Except ε τ)} (h : q.Evaluated other) (hcall : q.calls[index]? = some call)
    (hon : call.phase ≠ .queued → call.phase ≠ .checking → phase ≠ .queued ∧ phase ≠ .checking) :
    (q.move index call phase result).Evaluated other := by
  obtain ⟨found, hfound, hqueued, hchecking⟩ := h
  unfold Evaluated HarnessMcpDispatchQueue.move
  dsimp only
  rw [List.getElem?_set]
  by_cases hsame : index = other
  · subst hsame
    cases hcall.symm.trans hfound
    rw [if_pos rfl, if_pos (List.getElem?_eq_some_iff.mp hcall).1]
    exact ⟨_, rfl, hon hqueued hchecking⟩
  · rw [if_neg hsame]
    exact ⟨found, hfound, hqueued, hchecking⟩

variable {index : Nat}

theorem evaluated_move {result : Option (Except ε τ)} (hcall : q.calls[index]? = some call)
    (hqueued : phase ≠ .queued) (hchecking : phase ≠ .checking) :
    (q.move index call phase result).Evaluated index := by
  unfold Evaluated HarnessMcpDispatchQueue.move
  dsimp only
  rw [List.getElem?_set_self (List.getElem?_eq_some_iff.mp hcall).1]
  exact ⟨_, rfl, hqueued, hchecking⟩

theorem Sound.move (h : q.Sound) {index : Nat} {call : DispatchCall σ τ ε}
    (hcall : q.calls[index]? = some call) (hhere : call.phase ≠ .left)
    (hturn : call.phase = .queued → q.reached index = true) {phase : DispatchPhase}
    {result : Option (Except ε τ)} {pending : Nat}
    (hpending : pending + (if phase = .left then 1 else 0) = q.pending)
    {log : List DispatchEvent}
    (hlog : DispatchLogged (q.move index call phase result).Evaluated log) :
    Sound { q.move index call phase result with pending := pending, log := log } where
  chained := h.chained.set hcall hhere fun hqueued _ _ hlt hother =>
    h.before (hturn hqueued) hlt hother
  pending := by
    obtain ⟨hlt, hget⟩ := List.getElem?_eq_some_iff.mp hcall
    have hcounted : 0 < q.calls.countP fun call => call.phase ≠ .left :=
      List.countP_pos_iff.mpr ⟨call, List.mem_of_getElem? hcall, decide_eq_true hhere⟩
    have hset := List.countP_set (p := fun call : DispatchCall σ τ ε => call.phase ≠ .left)
      (a := { call with phase := phase, answer := call.answer.or result }) hlt
    rw [hget, if_pos (decide_eq_true hhere), ← h.pending] at hset
    show pending = List.countP _ (q.calls.set index _)
    rw [hset]
    rw [← h.pending] at hcounted
    by_cases hleft : phase = .left
    · rw [if_pos hleft] at hpending
      simp [hleft]
      omega
    · rw [if_neg hleft] at hpending
      simp [hleft]
      omega
  released other hother haborted := by
    obtain hold | hmoved := List.mem_or_eq_of_mem_set hother
    · exact h.released other hold haborted
    · rw [hmoved] at haborted ⊢
      have hanswer := h.released call (List.mem_of_getElem? hcall) haborted
      exact Option.isSome_or.trans (by rw [hanswer, Bool.true_or])
  logged := hlog

theorem Sound.evaluated_lt (h : q.Sound) {index : Nat} {call : DispatchCall σ τ ε}
    (hcall : q.calls[index]? = some call) (hphase : call.phase = .checking) {other : Nat}
    (hother : q.Evaluated other) : other < index := by
  obtain ⟨found, hfound, hqueued, hchecking⟩ := hother
  by_contra hge
  obtain heq | hgt := Nat.eq_or_lt_of_le (Nat.le_of_not_lt hge)
  · subst heq
    cases hcall.symm.trans hfound
    exact hchecking hphase
  · have hleft := h.chained index other call found hgt hcall hfound hqueued
    rw [hphase] at hleft
    cases hleft

theorem whenIn_cases {P : HarnessMcpDispatchQueue σ τ ε → Prop} {body : DispatchCall σ τ ε → HarnessMcpDispatchQueue σ τ ε}
    (hsame : P q)
    (hbody : ∀ call, q.calls[index]? = some call → call.phase = phase → P (body call)) :
    P (q.whenIn index phase body) := by
  unfold whenIn
  split
  · rename_i call hcall
    split
    · rename_i hphase
      exact hbody call hcall hphase
    · exact hsame
  · exact hsame

theorem Sound.dispatch (h : q.Sound) (signal : σ) : (q.dispatch signal).Sound := by
  unfold HarnessMcpDispatchQueue.dispatch
  split
  · exact ⟨h.chained, h.pending, h.released, h.logged⟩
  · rename_i hlive
    split
    · exact ⟨h.chained, h.pending, h.released, h.logged⟩
    · refine ⟨?_, ?_, ?_, h.logged.mono ?_⟩
      · intro first second call later hlt hfirst hsecond hlater
        by_cases hold : second < q.calls.length
        · rw [List.getElem?_append_left (by omega)] at hfirst
          rw [List.getElem?_append_left hold] at hsecond
          exact h.chained first second call later hlt hfirst hsecond hlater
        · rw [List.getElem?_append_right (by omega)] at hsecond
          rw [List.mem_singleton.mp (List.mem_of_getElem? hsecond)] at hlater
          exact absurd rfl hlater
      · show q.pending + 1 = _
        rw [List.countP_append, ← h.pending]
        rfl
      · intro call hcall haborted
        obtain hold | hnew := List.mem_append.mp hcall
        · exact h.released call hold haborted
        · rw [List.mem_singleton.mp hnew] at haborted
          simp [hlive] at haborted
      · intro index hevaluated
        obtain ⟨call, hcall, hphase⟩ := hevaluated
        have hlt := (List.getElem?_eq_some_iff.mp hcall).1
        exact ⟨call, (List.getElem?_append_left hlt).trans hcall, hphase⟩

variable [DecidableEq σ]

@[simp] theorem cancel_signal (signal : σ) (reason : ε) (call : DispatchCall σ τ ε) :
    (call.cancel signal reason).signal = call.signal := by
  unfold DispatchCall.cancel
  split
  · rfl
  · rfl

@[simp] theorem cancel_phase (signal : σ) (reason : ε) (call : DispatchCall σ τ ε) :
    (call.cancel signal reason).phase = call.phase := by
  unfold DispatchCall.cancel
  split
  · rfl
  · rfl

theorem Sound.abort_calls (h : q.Sound) {signal : σ} (reason : ε) {index : Nat}
    {call : DispatchCall σ τ ε} (hcall : q.calls[index]? = some call)
    (hsignal : call.signal = signal) :
    (q.abort signal reason).calls[index]? =
      some { call with answer := call.answer.or (some (.error reason)) } := by
  unfold HarnessMcpDispatchQueue.abort
  split
  · rename_i earlier haborted
    have hanswer := h.released call (List.mem_of_getElem? hcall) (by rw [hsignal, haborted]; rfl)
    obtain ⟨answer, heq⟩ := Option.isSome_iff_exists.mp hanswer
    rw [hcall, heq, Option.some_or, ← heq]
  · dsimp only
    rw [List.getElem?_map, hcall, Option.map_some]
    unfold DispatchCall.cancel
    rw [if_pos hsignal]

theorem Sound.abort (h : q.Sound) (signal : σ) (reason : ε) : (q.abort signal reason).Sound := by
  unfold HarnessMcpDispatchQueue.abort
  split
  · exact h
  · rename_i hlive
    refine ⟨?_, ?_, ?_, h.logged.mono ?_⟩
    · intro first second call later hlt hfirst hsecond hlater
      rw [List.getElem?_map] at hfirst hsecond
      obtain ⟨old, hold, rfl⟩ := Option.map_eq_some_iff.mp hfirst
      obtain ⟨next, hnext, rfl⟩ := Option.map_eq_some_iff.mp hsecond
      rw [cancel_phase] at hlater ⊢
      exact h.chained first second old next hlt hold hnext hlater
    · show q.pending = _
      rw [h.pending, List.countP_map]
      congr 1
      funext call
      exact congrArg (fun phase => decide (phase ≠ DispatchPhase.left)) (cancel_phase ..).symm
    · intro call hcall haborted
      obtain ⟨old, hold, rfl⟩ := List.mem_map.mp hcall
      rw [cancel_signal] at haborted
      unfold DispatchCall.cancel
      split
      · rw [Option.isSome_or, Option.isSome_some, Bool.or_true]
      · rename_i hother
        dsimp only at haborted
        rw [Function.update_of_ne hother] at haborted
        exact h.released old hold haborted
    · rintro index ⟨call, hcall, hphase⟩
      refine ⟨call.cancel signal reason, ?_, by rwa [cancel_phase]⟩
      show (q.calls.map _)[index]? = _
      rw [List.getElem?_map, hcall]
      rfl

/-! ## Steps -/

theorem Sound.step (h : q.Sound) (action : DispatchAction σ τ ε) : (q.step action).Sound := by
  cases action with
  | dispatch signal => exact h.dispatch signal
  | abort signal reason => exact h.abort signal reason
  | turn index =>
    unfold HarnessMcpDispatchQueue.step
    dsimp only
    split
    · rename_i hreached
      refine whenIn_cases h fun call hcall hphase => ?_
      have hmoves : ∀ phase result, phase ≠ DispatchPhase.left →
          (q.move index call phase result).Sound := by
        intro phase result hphase'
        refine h.move hcall (by rw [hphase]; exact nofun) (fun _ => hreached)
          (by rw [if_neg hphase']; rfl) (h.logged.mono fun other hother => ?_)
        exact hother.move hcall fun hqueued => absurd hphase hqueued
      split
      · exact hmoves .settled _ nofun
      · exact hmoves .checking _ nofun
    · exact h
  | check index failure =>
    refine whenIn_cases h fun call hcall hphase => ?_
    have hhere : call.phase ≠ .left := by
      rw [hphase]
      exact nofun
    have hturn : call.phase = .queued → q.reached index = true := by
      rw [hphase]
      exact nofun
    have hbefore : ∀ other, q.Evaluated other → other < index :=
      fun other hother => h.evaluated_lt hcall hphase hother
    have hlater : ∀ {phase : DispatchPhase} {result}, ∀ other, q.Evaluated other →
        (q.move index call phase result).Evaluated other :=
      fun other hother => hother.move hcall fun _ hchecking => absurd hphase hchecking
    cases failure with
    | some error =>
      exact h.move hcall hhere hturn rfl (h.logged.fail
        (fun hother => Nat.lt_irrefl index (hbefore index hother)) hlater
        (evaluated_move hcall nofun nofun))
    | none =>
      exact h.move hcall hhere hturn rfl
        (h.logged.start hbefore hlater (evaluated_move hcall nofun nofun))
  | settle index result =>
    refine whenIn_cases h fun call hcall hphase => ?_
    refine h.move hcall (by rw [hphase]; exact nofun) (fun hqueued => ?_) rfl
      (h.logged.mono fun other hother => hother.move hcall fun _ _ => ⟨nofun, nofun⟩)
    rw [hphase] at hqueued
    cases hqueued
  | leave index =>
    refine whenIn_cases h fun call hcall hphase => ?_
    have hhere : call.phase ≠ .left := by
      rw [hphase]
      exact nofun
    have hcounted : 0 < q.pending := by
      rw [h.pending]
      exact List.countP_pos_iff.mpr ⟨call, List.mem_of_getElem? hcall, decide_eq_true hhere⟩
    refine h.move hcall hhere (fun hqueued => ?_) (by rw [if_pos rfl]; omega)
      (h.logged.mono fun other hother => hother.move hcall fun _ _ => ⟨nofun, nofun⟩)
    rw [hphase] at hqueued
    cases hqueued

/-! ## Calls that are never started -/

/-- A call whose signal was aborted before its turn. -/
structure Barred (q : HarnessMcpDispatchQueue σ τ ε) (index : Nat) : Prop where
  unstarted : .started index ∉ q.log
  aborted : ∃ call, q.calls[index]? = some call ∧ (q.aborted call.signal).isSome ∧
    call.phase ≠ .checking ∧ call.phase ≠ .running

theorem Barred.step (h : q.Barred index) (action : DispatchAction σ τ ε) :
    (q.step action).Barred index := by
  obtain ⟨hlog, call, hcall, haborted, hchecking, hrunning⟩ := h
  have hmoves : ∀ {place : Nat} {moved : DispatchCall σ τ ε} {phase result},
      q.calls[place]? = some moved → (place = index → phase ≠ .checking ∧ phase ≠ .running) →
      ∃ after, (q.move place moved phase result).calls[index]? = some after ∧
        (q.aborted after.signal).isSome ∧ after.phase ≠ .checking ∧ after.phase ≠ .running := by
    intro place moved phase result hmoved hphase
    unfold HarnessMcpDispatchQueue.move
    dsimp only
    rw [List.getElem?_set]
    by_cases hsame : place = index
    · subst hsame
      cases hcall.symm.trans hmoved
      rw [if_pos rfl, if_pos (List.getElem?_eq_some_iff.mp hcall).1]
      exact ⟨_, rfl, haborted, hphase rfl⟩
    · rw [if_neg hsame]
      exact ⟨call, hcall, haborted, hchecking, hrunning⟩
  have hstay : q.Barred index := ⟨hlog, call, hcall, haborted, hchecking, hrunning⟩
  cases action with
  | dispatch signal =>
    show (q.dispatch signal).Barred index
    unfold HarnessMcpDispatchQueue.dispatch
    split
    · exact ⟨hlog, call, hcall, haborted, hchecking, hrunning⟩
    · split
      · exact ⟨hlog, call, hcall, haborted, hchecking, hrunning⟩
      · have hlt := (List.getElem?_eq_some_iff.mp hcall).1
        exact ⟨hlog, call, (List.getElem?_append_left hlt).trans hcall, haborted, hchecking,
          hrunning⟩
  | abort signal reason =>
    show (q.abort signal reason).Barred index
    unfold HarnessMcpDispatchQueue.abort
    split
    · exact hstay
    · refine ⟨hlog, call.cancel signal reason, ?_, ?_, ?_⟩
      · show (q.calls.map _)[index]? = _
        rw [List.getElem?_map, hcall]
        rfl
      · rw [cancel_signal]
        dsimp only
        by_cases hsignal : call.signal = signal
        · rw [hsignal, Function.update_self]
          rfl
        · rwa [Function.update_of_ne hsignal]
      · rw [cancel_phase]
        exact ⟨hchecking, hrunning⟩
  | turn place =>
    unfold HarnessMcpDispatchQueue.step
    dsimp only
    split
    · refine whenIn_cases (P := (Barred · index)) hstay fun moved hmoved hphase => ?_
      split
      · exact ⟨hlog, hmoves hmoved fun _ => ⟨nofun, nofun⟩⟩
      · rename_i hlive
        refine ⟨hlog, hmoves hmoved fun hsame => ?_⟩
        subst hsame
        cases hcall.symm.trans hmoved
        rw [hlive] at haborted
        cases haborted
    · exact hstay
  | check place failure =>
    refine whenIn_cases (P := (Barred · index)) hstay fun moved hmoved hphase => ?_
    have hother : place ≠ index := by
      rintro rfl
      cases hcall.symm.trans hmoved
      exact hchecking hphase
    cases failure with
    | some error =>
      refine ⟨fun hin => ?_, hmoves hmoved fun hsame => absurd hsame hother⟩
      simp [hlog] at hin
    | none =>
      refine ⟨fun hin => ?_, hmoves hmoved fun hsame => absurd hsame hother⟩
      simp [hlog] at hin
      exact hother hin.symm
  | settle place result =>
    exact whenIn_cases (P := (Barred · index)) hstay fun moved hmoved _ =>
      ⟨hlog, hmoves hmoved fun _ => ⟨nofun, nofun⟩⟩
  | leave place =>
    exact whenIn_cases (P := (Barred · index)) hstay fun moved hmoved _ =>
      ⟨hlog, hmoves hmoved fun _ => ⟨nofun, nofun⟩⟩

/-! ## Runs -/

/-- What holds in every state of the queue. -/
structure Serial (q : HarnessMcpDispatchQueue σ τ ε) : Prop where
  /-- One call at a time is between its turn and its leave. -/
  exclusive : ∀ first second, q.Holds first → q.Holds second → first = second
  /-- Operations are started in the order of the calls. -/
  ordered : (q.log.filterMap DispatchEvent.start?).Pairwise (· < ·)
  guarded : ∀ place index, q.log[place]? = some (.started index) →
    ∃ before, place = before + 1 ∧ q.log[before]? = some (.checked index true)
  fenced : ∀ index, .checked index false ∈ q.log → .started index ∉ q.log
  barred : ∀ index call, q.calls[index]? = some call → call.phase = .queued →
    (q.aborted call.signal).isSome →
      ∀ later : List (DispatchAction σ τ ε), .started index ∉ (run step q later).log
  /-- At an abort a caller without an answer is given one, whatever the call is doing and goes on
  doing. -/
  released : ∀ signal reason (index : Nat) (call : DispatchCall σ τ ε),
    q.calls[index]? = some call → call.signal = signal →
    (q.step (.abort signal reason)).calls[index]? =
      some { call with answer := call.answer.or (some (.error reason)) }
  /-- The count goes down when a call leaves. -/
  counted : q.pending = q.calls.countP fun call => call.phase ≠ .left

theorem Sound.serial (h : q.Sound) : q.Serial where
  exclusive first second hfirst hsecond := by
    obtain ⟨call, hcall, hturn, hhere⟩ := hfirst
    obtain ⟨other, hother, hturn', hhere'⟩ := hsecond
    obtain hlt | heq | hgt := Nat.lt_trichotomy first second
    · exact absurd (h.chained first second call other hlt hcall hother hturn') hhere
    · exact heq
    · exact absurd (h.chained second first other call hgt hother hcall hturn) hhere'
  ordered := h.logged.ordered
  guarded := h.logged.guarded
  fenced := h.logged.fenced
  barred index call hcall hphase haborted later := by
    have hbarred : q.Barred index := by
      refine ⟨fun hin => ?_, call, hcall, haborted, by rw [hphase]; exact nofun,
        by rw [hphase]; exact nofun⟩
      obtain ⟨found, hfound, hqueued, -⟩ := h.logged.of_started hin
      cases hcall.symm.trans hfound
      exact hqueued hphase
    have hruns := always_of_inv (fun q action (hbarred : Barred q index) => hbarred.step action)
      hbarred later
    exact hruns.last.unstarted
  released signal reason index call hcall hsignal := h.abort_calls reason hcall hsignal
  counted := h.pending

/-- Whatever callers, operations and signals do. -/
theorem dispatches_serial (actions : List (DispatchAction σ τ ε)) :
    Always step Serial (empty : HarnessMcpDispatchQueue σ τ ε) actions := by
  have hsound : Always step Sound (empty : HarnessMcpDispatchQueue σ τ ε) actions :=
    always_of_inv (fun _ action h => h.step action) Sound.empty actions
  exact hsound.mono fun _ h => h.serial

/-- The calls that wait for their turn, and the one that is checked or runs. -/
def unfinished (q : HarnessMcpDispatchQueue σ τ ε) : Nat :=
  q.calls.countP fun call => call.phase ≠ .settled ∧ call.phase ≠ .left

/-- Until the `finally` of the tail has run, an operation that has finished is counted. -/
theorem finished_call_counted :
    (run step (empty : HarnessMcpDispatchQueue Nat Unit Unit)
        [.dispatch 0, .turn 0, .check 0 none, .settle 0 (.ok ())]).pending ≠
      (run step (empty : HarnessMcpDispatchQueue Nat Unit Unit)
        [.dispatch 0, .turn 0, .check 0 none, .settle 0 (.ok ())]).unfinished := by
  decide

/-! ## No schedule wedges the queue -/

/-- How far a call has come. -/
def rank : DispatchPhase → Nat
  | .queued => 0
  | .checking => 1
  | .running => 2
  | .settled => 3
  | .left => 4

omit [DecidableEq σ] in
theorem whenIn_moves {body : DispatchCall σ τ ε → HarnessMcpDispatchQueue σ τ ε}
    (hcall : q.calls[index]? = some call) (hrank : rank phase ≤ rank call.phase)
    (hbody : ∃ next, (body call).calls = q.calls.set index next ∧ rank phase < rank next.phase) :
    ∃ next, (q.whenIn index phase body).calls = q.calls.set index next ∧
      rank phase < rank next.phase := by
  unfold whenIn
  rw [hcall]
  dsimp only
  split
  · exact hbody
  · rename_i hother
    obtain ⟨hlt, rfl⟩ := List.getElem?_eq_some_iff.mp hcall
    refine ⟨q.calls[index], (List.set_getElem_self hlt).symm, Nat.lt_of_le_of_ne hrank ?_⟩
    intro hsame
    apply hother
    generalize q.calls[index].phase = other at hsame
    cases other <;> cases phase <;> first | rfl | cases hsame

/-- What takes a call through the phases that are left to it. -/
def passing (result : Except ε τ) (index : Nat) : List (DispatchAction σ τ ε) :=
  [.turn index, .check index none, .settle index result, .leave index]

theorem turn_moves (hcall : q.calls[index]? = some call)
    (hreached : q.reached index = true) :
    ∃ next, (q.step (.turn index)).calls = q.calls.set index next ∧ 0 < rank next.phase := by
  dsimp only [step]
  rw [if_pos hreached]
  apply whenIn_moves hcall (Nat.zero_le _)
  cases q.aborted call.signal <;> exact ⟨_, rfl, Nat.succ_pos _⟩

theorem passing_left (result : Except ε τ) {index : Nat} {call : DispatchCall σ τ ε}
    (hcall : q.calls[index]? = some call) (hreached : q.reached index = true) :
    ∃ last, (run step q (passing result index)).calls = q.calls.set index last ∧
      last.phase = .left := by
  have hlt : index < q.calls.length := (List.getElem?_eq_some_iff.mp hcall).1
  have hat {calls : List (DispatchCall σ τ ε)} {next} (h : calls = q.calls.set index next) :
      calls[index]? = some next := by
    rw [h, List.getElem?_set_self hlt]
  obtain ⟨turned, hturned, hrank⟩ := turn_moves hcall hreached
  obtain ⟨checked, hchecked, hrank⟩ : ∃ next, (step _ (.check index none)).calls =
      List.set _ index next ∧ 1 < rank next.phase :=
    whenIn_moves (hat hturned) hrank ⟨_, rfl, Nat.lt_succ_self 1⟩
  rw [hturned, List.set_set] at hchecked
  obtain ⟨ended, hended, hrank⟩ : ∃ next, (step _ (.settle index result)).calls =
      List.set _ index next ∧ 2 < rank next.phase :=
    whenIn_moves (hat hchecked) hrank ⟨_, rfl, Nat.lt_succ_self 2⟩
  rw [hchecked, List.set_set] at hended
  obtain ⟨last, hlast, hrank⟩ : ∃ next, (step _ (.leave index)).calls =
      List.set _ index next ∧ 3 < rank next.phase :=
    whenIn_moves (hat hended) hrank ⟨_, rfl, Nat.lt_succ_self 3⟩
  rw [hended, List.set_set] at hlast
  refine ⟨last, hlast, ?_⟩
  cases hphase : last.phase with
  | left => rfl
  | _ =>
    rw [hphase] at hrank
    exact absurd hrank (by decide)

/-- Every call has its turn, then its check passes, and its operation ends. -/
def drain (result : Except ε τ) (count : Nat) : List (DispatchAction σ τ ε) :=
  (List.range count).flatMap (passing result)

theorem drain_left (result : Except ε τ) {count : Nat} (hcount : count ≤ q.calls.length) :
    (run step q (drain result count)).calls.length = q.calls.length ∧
      ∀ index call, index < count →
        (run step q (drain result count)).calls[index]? = some call → call.phase = .left := by
  induction count with
  | zero => exact ⟨rfl, fun _ _ h => absurd h (Nat.not_lt_zero _)⟩
  | succ count ih =>
    obtain ⟨hlength, hleft⟩ := ih (by omega)
    have hlt : count < (run step q (drain result count)).calls.length := by omega
    have hdrain : run step q (drain result (count + 1)) =
        run step (run step q (drain result count)) (passing result count) := by
      unfold drain
      rw [List.range_succ, List.flatMap_append, run_append]
      rfl
    have hreached : (run step q (drain result count)).reached count = true := by
      cases count with
      | zero => rfl
      | succ before =>
        have hbefore := List.getElem?_eq_getElem (Nat.lt_of_succ_lt hlt)
        change Option.any _ _ = true
        rw [hbefore, Option.any_some, decide_eq_true_iff]
        exact hleft before _ (Nat.lt_succ_self before) hbefore
    obtain ⟨last, hlast, hphase⟩ := passing_left result (List.getElem?_eq_getElem hlt) hreached
    rw [hdrain, hlast, List.length_set]
    refine ⟨hlength, fun index call hindex hcall => ?_⟩
    rw [List.getElem?_set] at hcall
    split at hcall
    · obtain rfl := Option.some.inj hcall
      exact hphase
    · exact hleft index call (by omega) hcall

/-- From every state that is reached the queue can be emptied, and every call leaves. -/
theorem queue_drains (actions : List (DispatchAction σ τ ε)) (result : Except ε τ) :
    let q := run step (empty : HarnessMcpDispatchQueue σ τ ε) actions
    let drained := run step q (drain result q.calls.length)
    drained.calls.length = q.calls.length ∧ (∀ call ∈ drained.calls, call.phase = .left) ∧
      drained.pending = 0 := by
  intro q drained
  obtain ⟨hlength, hleft⟩ := drain_left result (Nat.le_refl q.calls.length)
  have hall : ∀ call ∈ drained.calls, call.phase = .left := by
    intro call hin
    obtain ⟨index, hindex, rfl⟩ := List.mem_iff_getElem.mp hin
    exact hleft index _ (hlength ▸ hindex) (List.getElem?_eq_getElem hindex)
  have hsound : drained.Sound := by
    have halways := always_of_inv (fun _ action h => h.step action) Sound.empty
      (actions ++ drain result q.calls.length)
    rw [show drained = _ from (run_append step _ actions _).symm]
    exact halways.last
  refine ⟨hlength, hall, ?_⟩
  rw [hsound.pending, List.countP_eq_zero]
  intro call hin
  rw [hall call hin]
  decide

end HarnessMcpDispatchQueue

end HarnessControl.Harnesses
