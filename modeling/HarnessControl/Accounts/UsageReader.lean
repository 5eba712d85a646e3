import HarnessControl.Library.Dict
import HarnessControl.Library.Slots

/-!
# Reading the usage of accounts

A read asks the collectors of its providers, four providers at a time.  Four slots bound the native
processes of all reads; a collector that is too slow is abandoned, and its slot goes to the next.
-/

namespace HarnessControl.Accounts

open HarnessControl.Library

variable {ω : Type}

/-! ## Configuration and observations -/

structure ProviderInstance where
  id : String
  driver_kind : String
  enabled : Bool
  account_usage : Bool

structure AccountsConfig where
  provider_instances : List ProviderInstance
  /-- The kinds of drivers that a collector is there for. -/
  collectors : List String
  cacheMs : Int

inductive Observation (ω : Type) where
  | collected (value : ω)
  | unavailable (code message : String)

def closedObservation : Observation ω := .unavailable "timeout" "Account reader was closed."

def disabledObservation : Observation ω :=
  .unavailable "disabled" "Account usage sharing is disabled in local runner configuration."

def unsupportedObservation : Observation ω :=
  .unavailable "unsupported" "This provider has no account usage collector."

def timedOut : Observation ω :=
  .unavailable "timeout" "Account collection timed out or was cancelled."

def invalidResponse : Observation ω :=
  .unavailable "invalid_response" "Provider returned invalid account usage data."

def providerError : Observation ω :=
  .unavailable "provider_error"
    "Account collection failed. Check the local provider login and supported version."

inductive CollectorResult (ω : Type) where
  /-- `none` where the schema refuses what it returned. -/
  | returned (value : Option ω)
  /-- A `ZodError`, a `RangeError` or a `SyntaxError`. -/
  | invalid
  | error
  /-- What is thrown is no error. -/
  | thrown

/-- `none` where the read of the provider is rejected. -/
def observed : CollectorResult ω → Option (Observation ω)
  | .returned (some value) => some (.collected value)
  | .returned none => some invalidResponse
  | .invalid => some invalidResponse
  | .error => some providerError
  | .thrown => none

/-! ## The reader -/

inductive Phase (ω : Type) where
  | waiting
  /-- It was given a slot and goes on. -/
  | woken
  /-- Its controller is among the controllers. -/
  | collecting (aborted : Bool)
  /-- It released its slot; neither the cache nor the table of reads knows it yet. -/
  | settled (outcome : Option (Observation ω))
  | stored (outcome : Option (Observation ω))
  | finished (outcome : Option (Observation ω))

inductive CollectorCall (ω : Type) where
  | notStarted
  | running
  | ended (result : CollectorResult ω)

/-- A call of `#collect`, and the call of the collector that it makes. -/
structure ProviderRead (ω : Type) where
  provider : ProviderInstance
  phase : Phase ω
  collector : CollectorCall ω

/-- What `#readProvider` returns: a promise that is kept at once, or the one of a read. -/
inductive Answer (ω : Type) where
  | immediate (observation : Observation ω)
  | pending (read : Nat)

inductive CallStatus where
  | running
  | done
  | failed
deriving DecidableEq

/-- A call of `read`. -/
structure ReadCall (ω : Type) where
  group : List (String × Answer ω)
  remaining : List ProviderInstance
  providers : List (String × Observation ω)
  status : CallStatus

structure Reader (ω : Type) where
  reads : List (ProviderRead ω)
  slots : Slots Nat
  inflight : Dict String Nat
  cache : Dict String (Int × Observation ω)
  calls : List (ReadCall ω)
  closed : Bool
  /-- The reads that released a slot, in that order. -/
  releases : List Nat

namespace Reader

def initial : Reader ω where
  reads := []
  slots := .empty
  inflight := .empty
  cache := .empty
  calls := []
  closed := false
  releases := []

def setPhase (s : Reader ω) (i : Nat) (phase : Phase ω) : Reader ω :=
  { s with reads := s.reads.modify i fun read => { read with phase } }

def setCollector (s : Reader ω) (i : Nat) (collector : CollectorCall ω) : Reader ω :=
  { s with reads := s.reads.modify i fun read => { read with collector } }

/-- `#release`: the promise of the first that waits is resolved. -/
def release (s : Reader ω) (i : Nat) : Reader ω :=
  let released := { s with slots := s.slots.release i, releases := s.releases ++ [i] }
  match s.slots.waiting with
  | next :: _ => released.setPhase next .woken
  | [] => released

def leave (s : Reader ω) (i : Nat) (outcome : Option (Observation ω)) : Reader ω :=
  (s.setPhase i (.settled outcome)).release i

/-- What `#collect` does when it has a slot. -/
def enter (s : Reader ω) (i : Nat) : Reader ω :=
  if s.closed then s.leave i (some closedObservation)
  else (s.setPhase i (.collecting false)).setCollector i .running

def collect (s : Reader ω) (provider : ProviderInstance) : Reader ω :=
  let i := s.reads.length
  let phase := if 4 ≤ s.slots.active then Phase.waiting else .woken
  let begun :=
    { s with
      reads := s.reads ++ [{ provider, phase, collector := .notStarted }]
      slots := s.slots.acquire 4 i
      inflight := s.inflight.set provider.id i }
  if 4 ≤ s.slots.active then begun else begun.enter i

section Reading

variable (config : AccountsConfig)

/-- `#readProvider` -/
def readProvider (s : Reader ω) (provider : ProviderInstance) (now : Int) :
    Reader ω × Answer ω :=
  if s.closed then (s, .immediate closedObservation)
  else if !provider.enabled || !provider.account_usage then (s, .immediate disabledObservation)
  else if !config.collectors.contains provider.driver_kind then
    (s, .immediate unsupportedObservation)
  else
    match (s.cache.get? provider.id).filter fun cached => decide (now < cached.1) with
    | some (_, observation) => (s, .immediate observation)
    | none =>
      match s.inflight.get? provider.id with
      | some i => (s, .pending i)
      | none => (s.collect provider, .pending s.reads.length)

/-- The providers of a group are asked one after the other. -/
def readGroup (now : Int) :
    List ProviderInstance → Reader ω → Reader ω × List (String × Answer ω)
  | [], s => (s, [])
  | provider :: rest, s =>
    let first := s.readProvider config provider now
    let others := readGroup now rest first.1
    (others.1, (provider.id, first.2) :: others.2)

def requested (ids : Option (List String)) : Option (List ProviderInstance) :=
  (ids.getD (config.provider_instances.map ProviderInstance.id)).mapM fun id =>
    config.provider_instances.find? fun provider => provider.id == id

/-- A call of `read`, up to where it waits for its first group.  It throws where the reader is closed
or a provider is not known. -/
def beginRead (s : Reader ω) (ids : Option (List String)) (now : Int) : Reader ω :=
  if s.closed then s
  else
    match requested config ids with
    | none => s
    | some providers =>
      let group := readGroup config now (providers.take 4) s
      { group.1 with
        calls := group.1.calls ++
          [{ group := group.2, remaining := providers.drop 4, providers := []
             status := if providers = [] then .done else .running }] }

/-- What is known of an answer: nothing yet, that it is rejected, or the observation. -/
def answered (s : Reader ω) : Answer ω → Option (Option (Observation ω))
  | .immediate observation => some (some observation)
  | .pending i =>
    match s.reads[i]? with
    | some { phase := .finished outcome, .. } => some outcome
    | _ => none

/-- A call goes on when its group is complete, and fails as soon as one of the group does. -/
def continueRead (s : Reader ω) (index : Nat) (now : Int) : Reader ω :=
  match s.calls[index]? with
  | none => s
  | some call =>
    if call.status ≠ .running then s
    else if call.group.any fun entry => (s.answered entry.2).any Option.isNone then
      { s with calls := s.calls.set index { call with status := .failed } }
    else
      match call.group.mapM fun entry =>
          (s.answered entry.2).join.map fun observation => (entry.1, observation) with
      | none => s
      | some observations =>
        let providers := call.providers ++ observations
        if call.remaining = [] then
          { s with calls := s.calls.set index { call with group := [], providers, status := .done } }
        else
          let group := readGroup config now (call.remaining.take 4) s
          { group.1 with
            calls := group.1.calls.set index
              { group := group.2, remaining := call.remaining.drop 4, providers
                status := .running } }

/-- The race of the collector and its signal is over. -/
def settle (s : Reader ω) (i : Nat) : Reader ω :=
  match s.reads[i]? with
  | some { phase := .collecting true, .. } => s.leave i (some timedOut)
  | some { phase := .collecting false, collector := .ended result, .. } =>
    s.leave i (observed result)
  | _ => s

def store (s : Reader ω) (i : Nat) (now : Int) : Reader ω :=
  match s.reads[i]? with
  | some { provider, phase := .settled (some observation), .. } =>
    { s with cache := s.cache.set provider.id (now + config.cacheMs, observation) }.setPhase i
      (.stored (some observation))
  | some { phase := .settled none, .. } => s.setPhase i (.stored none)
  | _ => s

def forget (s : Reader ω) (i : Nat) : Reader ω :=
  match s.reads[i]? with
  | some { provider, phase := .stored outcome, .. } =>
    { s with inflight := s.inflight.erase provider.id }.setPhase i (.finished outcome)
  | _ => s

def abort (s : Reader ω) (i : Nat) : Reader ω :=
  match s.reads[i]? with
  | some { phase := .collecting _, .. } => s.setPhase i (.collecting true)
  | _ => s

def resume (s : Reader ω) (i : Nat) : Reader ω :=
  match s.reads[i]? with
  | some { phase := .woken, .. } => s.enter i
  | _ => s

def endCollector (s : Reader ω) (i : Nat) (result : CollectorResult ω) : Reader ω :=
  match s.reads[i]? with
  | some { collector := .running, .. } => s.setCollector i (.ended result)
  | _ => s

def abortAll : Nat → Reader ω → Reader ω
  | 0, s => s
  | i + 1, s => abortAll i (s.abort i)

def close (s : Reader ω) : Reader ω := abortAll s.reads.length { s with closed := true }

end Reading

end Reader

inductive ReaderAction (ω : Type) where
  | read (ids : Option (List String)) (now : Int)
  | continue (call : Nat) (now : Int)
  | resume (read : Nat)
  | endCollector (read : Nat) (result : CollectorResult ω)
  /-- The timer of a collection. -/
  | abort (read : Nat)
  | settle (read : Nat)
  | store (read : Nat) (now : Int)
  | forget (read : Nat)
  | close

def readerStep (config : AccountsConfig) (s : Reader ω) : ReaderAction ω → Reader ω
  | .read ids now => s.beginRead config ids now
  | .continue call now => s.continueRead config call now
  | .resume read => s.resume read
  | .endCollector read result => s.endCollector read result
  | .abort read => s.abort read
  | .settle read => s.settle read
  | .store read now => s.store config read now
  | .forget read => s.forget read
  | .close => s.close

end HarnessControl.Accounts
