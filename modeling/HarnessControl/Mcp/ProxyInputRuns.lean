import HarnessControl.Mcp.ProxyInputs

/-!
# Runs of the proxy's continuations

Every call is kept with the state before and after it.  A reply tells of the call that made its
continuation: the same caller and the same tool call, not too long ago, and not closed since.
-/

namespace HarnessControl.Mcp

open HarnessControl.Library HarnessControl.Library.JsonText ProxyInputs

variable {ν : Type}

inductive ProxyCall (numerals : Numerals ν) where
  | retain (scope name : Text) (args : McpToolArguments numerals) (input : McpPendingInput ν)
  | consume (scope name : Text) (args : McpToolArguments numerals) (state : StateArgument)
    (responses : ResponsesArgument ν)
  | closeScope (scope : Text)
  | close

inductive ProxyOutcome (ν : Type) where
  | key (key : Text)
  | reply (reply : Option (McpInputReply ν))
  | done
  | thrown (failure : InputError)

section Runs

variable (env : ProxyEnvironment ν)

def outcomeOf {α : Type} (f : α → ProxyOutcome ν) : Except InputError α → ProxyOutcome ν
  | .ok value => f value
  | .error failure => .thrown failure

def proxyCall (s : ProxyInputs ν) :
    ProxyCall env.schemas.numerals → ProxyInputs ν × ProxyOutcome ν
  | .retain scope name args input =>
    ((s.retain env scope name args input).1,
      outcomeOf .key (s.retain env scope name args input).2)
  | .consume scope name args state responses =>
    ((s.consume env scope name args state responses).1,
      outcomeOf .reply (s.consume env scope name args state responses).2)
  | .closeScope scope => (s.closeScope scope, .done)
  | .close => (s.close, .done)

/-- A call that was made. -/
structure ProxyTransition (numerals : Numerals ν) where
  call : ProxyCall numerals
  outcome : ProxyOutcome ν
  before : ProxyInputs ν
  after : ProxyInputs ν

structure ProxyRun (numerals : Numerals ν) where
  state : ProxyInputs ν
  log : List (ProxyTransition numerals)

def ProxyRun.initial (numerals : Numerals ν) : ProxyRun numerals :=
  { state := ProxyInputs.initial, log := [] }

def transition (s : ProxyInputs ν) (call : ProxyCall env.schemas.numerals) :
    ProxyTransition env.schemas.numerals :=
  { call, outcome := (proxyCall env s call).2, before := s, after := (proxyCall env s call).1 }

def proxyStep (r : ProxyRun env.schemas.numerals) (call : ProxyCall env.schemas.numerals) :
    ProxyRun env.schemas.numerals :=
  { state := (proxyCall env r.state call).1, log := r.log ++ [transition env r.state call] }

end Runs

/-! ## What is said of a run -/

section Statements

variable {numerals : Numerals ν}

def ProxyTransition.Yields (t : ProxyTransition numerals) (key : Text) : Prop :=
  ∃ scope name args responses reply,
    t.call = .consume scope name args (.text key) responses ∧ t.outcome = .reply (some reply)

/-- The call takes the continuations of a caller away. -/
def ProxyTransition.Closes (t : ProxyTransition numerals) (scope : Text) : Prop :=
  t.call = .closeScope scope ∨ t.call = .close

/-- A continuation was made for this caller and action under the key and for its time, and its caller
was not closed since. -/
def Granted (env : ProxyEnvironment ν) (log : List (ProxyTransition env.schemas.numerals))
    (key : Text) (value : Continuation ν) : Prop :=
  ∃ earlier made later name args input, log = earlier ++ made :: later ∧
    made.call = .retain value.scope name args input ∧ made.outcome = .key key ∧
    Expires env made.before.ticks made.after.ticks input value.expires ∧
    value.action = actionHash env name args ∧ (∀ t ∈ later, ¬ t.Closes value.scope) ∧ ∀ t ∈ log, ¬ t.Yields key

/-- The reply to a key is the first, comes before the time that the continuation expires at and after
no closing of its caller, and is for the caller, the tool and the text of the arguments that the
continuation was made for. -/
def Rightful (env : ProxyEnvironment ν) (past : List (ProxyTransition env.schemas.numerals))
    (key scope name : Text) (args : McpToolArguments env.schemas.numerals) (started : Nat) : Prop :=
  ∃ earlier made later given input expires, past = earlier ++ made :: later ∧
    made.call = .retain scope name given input ∧ made.outcome = .key key ∧
    Expires env made.before.ticks made.after.ticks input expires ∧ env.now started < expires ∧
    stringify env.schemas.numerals given.value = stringify env.schemas.numerals args.value ∧
    (∀ t ∈ later, ¬ t.Closes scope) ∧ ∀ t ∈ past, ¬ t.Yields key

/-- All that is pending is as it was, but for what was expired. -/
def KeepsPending (env : ProxyEnvironment ν) (t : ProxyTransition env.schemas.numerals) : Prop :=
  ∀ key, t.after.pending.get? key = t.before.pending.get? key ∨
    t.after.pending.get? key = none ∧
      ∃ value, t.before.pending.get? key = some value ∧ value.expires ≤ env.now t.after.ticks

end Statements

/-! ## The invariant -/

section Invariant

variable {env : ProxyEnvironment ν}

def ProxyTransition.ConsumeThrows {numerals : Numerals ν} (t : ProxyTransition numerals) : Prop :=
  (∃ scope name args state responses, t.call = .consume scope name args state responses) ∧
    ∃ failure, t.outcome = .thrown failure

structure Kept (r : ProxyRun env.schemas.numerals) : Prop where
  balanced : r.state.Balanced
  granted : ∀ key value, r.state.pending.get? key = some value → Granted env r.log key value
  drawn : ∀ key value, r.state.pending.get? key = some value →
    ∃ n < r.state.drawn, key = env.randomUUID n
  yielded : ∀ t ∈ r.log, ∀ key, t.Yields key → ∃ n < r.state.drawn, key = env.randomUUID n
  rightful : ∀ past t future key scope name args responses reply, r.log = past ++ t :: future →
    t.call = .consume scope name args (.text key) responses → t.outcome = .reply (some reply) →
    Rightful env past key scope name args t.before.ticks
  thrown : ∀ t ∈ r.log, t.ConsumeThrows → KeepsPending env t

theorem Kept.initial : @Kept ν env (ProxyRun.initial env.schemas.numerals) where
  balanced := ⟨rfl, by show (0 : Int) ≤ 8 * 1024 * 1024; decide, Nat.zero_le _⟩
  granted := nofun
  drawn := nofun
  yielded := fun _ hmem => absurd hmem List.not_mem_nil
  rightful := by
    intro past t future key scope name args responses reply hlog
    exact absurd hlog.symm (List.append_ne_nil_of_right_ne_nil _ (List.cons_ne_nil _ _))
  thrown := fun _ hmem => absurd hmem List.not_mem_nil

theorem Kept.fresh (henv : env.Lawful) {r : ProxyRun env.schemas.numerals} (h : Kept r) :
    r.state.pending.get? (env.randomUUID r.state.drawn) = none := by
  cases hget : r.state.pending.get? (env.randomUUID r.state.drawn) with
  | none => rfl
  | some value =>
    obtain ⟨n, hn, hkey⟩ := h.drawn _ value hget
    exact absurd (henv.keys hkey) (Nat.ne_of_gt hn)

theorem Granted.append {log : List (ProxyTransition env.schemas.numerals)} {key : Text}
    {value : Continuation ν} (h : Granted env log key value)
    {t : ProxyTransition env.schemas.numerals} (hcloses : ¬ t.Closes value.scope)
    (hyields : ¬ t.Yields key) : Granted env (log ++ [t]) key value := by
  obtain ⟨earlier, made, later, name, args, input, hlog, hcall, houtcome, hexpires, haction, hopen,
    hunused⟩ := h
  refine ⟨earlier, made, later ++ [t], name, args, input, ?_, hcall, houtcome, hexpires, haction, ?_,
    ?_⟩
  · rw [hlog, List.append_assoc]
    rfl
  · exact List.forall_mem_append.mpr ⟨hopen, List.forall_mem_singleton.mpr hcloses⟩
  · exact List.forall_mem_append.mpr ⟨hunused, List.forall_mem_singleton.mpr hyields⟩

/-! ## What a call does -/

/-- The key and the value were made by this call. -/
def ProxyTransition.Makes (t : ProxyTransition env.schemas.numerals) (key : Text)
    (value : Continuation ν) : Prop :=
  key = env.randomUUID t.before.drawn ∧ t.before.drawn < t.after.drawn ∧
    ∃ name args input, t.call = .retain value.scope name args input ∧ t.outcome = .key key ∧
      Expires env t.before.ticks t.after.ticks input value.expires ∧
      value.action = actionHash env name args

structure Stepped (t : ProxyTransition env.schemas.numerals) : Prop where
  pending : ∀ key value, t.after.pending.get? key = some value →
    (t.before.pending.get? key = some value ∧ ¬ t.Closes value.scope ∧ ¬ t.Yields key) ∨
      t.Makes key value
  drawn : t.before.drawn ≤ t.after.drawn
  yields : ∀ key scope name args responses reply,
    t.call = .consume scope name args (.text key) responses → t.outcome = .reply (some reply) →
    ∃ value, t.before.pending.get? key = some value ∧ env.now t.before.ticks < value.expires ∧
      value.scope = scope ∧ value.action = actionHash env name args
  throws : t.ConsumeThrows → KeepsPending env t

theorem not_yields_of_call {t : ProxyTransition env.schemas.numerals}
    (h : ∀ scope name args state responses, t.call ≠ .consume scope name args state responses)
    (key : Text) : ¬ t.Yields key := by
  rintro ⟨scope, name, args, responses, reply, hcall, -⟩
  exact h _ _ _ _ _ hcall

theorem stepped_retain (hclock : Monotone env.now) (s : ProxyInputs ν) (scope name : Text)
    (args : McpToolArguments env.schemas.numerals) (input : McpPendingInput ν) :
    Stepped (transition env s (.retain scope name args input)) := by
  have hnever : ∀ key, ¬ (transition env s (.retain scope name args input)).Yields key :=
    not_yields_of_call fun _ _ _ _ _ => nofun
  have hopen : ∀ other, ¬ (transition env s (.retain scope name args input)).Closes other := by
    rintro other (hclose | hclose) <;> cases hclose
  have hafter : (transition env s (.retain scope name args input)).after =
      (s.retain env scope name args input).1 := rfl
  constructor
  · intro key value hget
    obtain ⟨failure, t, hretain, hpending, -⟩ |
      ⟨made, t, hretain, rfl, haction, hpending, -, hdrawn, -, -, -, hexpires⟩ :=
      retain_cases s scope name args input
    · rw [hafter, hretain] at hget
      dsimp only at hget
      rw [hpending] at hget
      exact Or.inl ⟨(expire_get hclock hget).1, hopen _, hnever key⟩
    · rw [hafter, hretain] at hget
      dsimp only at hget
      rw [hpending, Dict.get?_set] at hget
      split at hget
      · rename_i hkey
        cases hget
        subst hkey
        refine Or.inr ⟨rfl, ?_, name, args, input, rfl, ?_, ?_, haction⟩
        · rw [hafter, hretain]
          show s.drawn < t.drawn
          omega
        · show outcomeOf .key (s.retain env _ name args input).2 = _
          rw [hretain]
          rfl
        · rw [hafter, hretain]
          exact hexpires
      · exact Or.inl ⟨(expire_get hclock hget).1, hopen _, hnever key⟩
  · rw [hafter]
    show s.drawn ≤ _
    obtain ⟨failure, t, hretain, -, -, hdrawn, -⟩ | ⟨made, t, hretain, -, -, -, -, hdrawn, -⟩ :=
      retain_cases s scope name args input
    · rw [hretain]
      exact Nat.le_of_eq hdrawn.symm
    · rw [hretain]
      show s.drawn ≤ t.drawn
      omega
  · intro key other name' args' responses reply hcall
    cases hcall
  · rintro ⟨⟨_, _, _, _, _, hcall⟩, -⟩
    cases hcall

theorem stepped_consume (hclock : Monotone env.now) (s : ProxyInputs ν) (scope name : Text)
    (args : McpToolArguments env.schemas.numerals) (state : StateArgument)
    (responses : ResponsesArgument ν) :
    Stepped (transition env s (.consume scope name args state responses)) := by
  have hafter : (transition env s (.consume scope name args state responses)).after =
      (s.consume env scope name args state responses).1 := rfl
  have houtcome : (transition env s (.consume scope name args state responses)).outcome =
      outcomeOf .reply (s.consume env scope name args state responses).2 := rfl
  have hopen : ∀ other,
      ¬ (transition env s (.consume scope name args state responses)).Closes other := by
    rintro other (hclose | hclose) <;> cases hclose
  have hdrawn : (s.expire env).drawn = s.drawn := sweep_drawn s _
  obtain ⟨outcome, hconsume, hnone⟩ | ⟨key, value, reply, hstate, hget, hscope, haction, hconsume⟩ :=
    consume_cases s scope name args state responses
  · have hsilent : ∀ reply, (transition env s (.consume scope name args state responses)).outcome ≠
        .reply (some reply) := by
      intro reply h
      rw [houtcome, hconsume] at h
      cases outcome with
      | error failure => cases h
      | ok value =>
        cases h
        exact hnone reply rfl
    constructor
    · intro key value hget
      rw [hafter, hconsume] at hget
      refine Or.inl ⟨(expire_get hclock hget).1, hopen _, ?_⟩
      rintro ⟨_, _, _, _, reply, -, hreply⟩
      exact hsilent reply hreply
    · rw [hafter, hconsume]
      exact Nat.le_of_eq hdrawn.symm
    · intro key _ _ _ _ reply _ hreply
      exact absurd hreply (hsilent reply)
    · rintro -
      intro key
      rw [hafter, hconsume]
      exact expire_kept hclock s key
  · subst hstate
    have hleft : ((s.expire env).remove key).pending = (s.expire env).pending.erase key :=
      remove_pending _ key
    constructor
    · intro other kept hkept
      rw [hafter, hconsume] at hkept
      dsimp only at hkept
      rw [hleft] at hkept
      have hne : other ≠ key := by
        rintro rfl
        rw [Dict.get?_erase_self] at hkept
        cases hkept
      refine Or.inl ⟨(expire_get hclock (Dict.get?_of_erase hkept)).1, hopen _, ?_⟩
      rintro ⟨_, _, _, _, _, hcall, -⟩
      cases hcall
      exact hne rfl
    · rw [hafter, hconsume]
      show s.drawn ≤ ((s.expire env).remove key).drawn
      rw [remove_drawn, hdrawn]
    · intro other scope' name' args' responses' reply' hcall _
      cases hcall
      obtain ⟨hbefore, hexpires⟩ := expire_get hclock hget
      exact ⟨value, hbefore, hexpires, hscope, haction⟩
    · rintro ⟨-, failure, hfailure⟩
      rw [houtcome, hconsume] at hfailure
      cases hfailure

theorem stepped_closeScope (s : ProxyInputs ν) (scope : Text) :
    Stepped (transition env s (.closeScope scope)) := by
  constructor
  · intro key value hget
    obtain ⟨hbefore, tick, -, hscope⟩ := sweep_get hget
    have hnever := not_yields_of_call (t := transition env s (.closeScope scope))
      (fun _ _ _ _ _ => nofun) key
    refine Or.inl ⟨hbefore, ?_, hnever⟩
    rintro (hclose | hclose)
    · cases hclose
      rw [beq_self_eq_true] at hscope
      cases hscope
    · cases hclose
  · exact Nat.le_of_eq (sweep_drawn s _).symm
  · intro key _ _ _ _ _ hcall
    cases hcall
  · rintro ⟨⟨_, _, _, _, _, hcall⟩, -⟩
    cases hcall

theorem stepped_close (s : ProxyInputs ν) : Stepped (transition env s .close) := by
  constructor
  · intro key value hget
    cases hget
  · exact le_rfl
  · intro key _ _ _ _ _ hcall
    cases hcall
  · rintro ⟨⟨_, _, _, _, _, hcall⟩, -⟩
    cases hcall

theorem stepped (hclock : Monotone env.now) (s : ProxyInputs ν)
    (call : ProxyCall env.schemas.numerals) : Stepped (transition env s call) := by
  cases call with
  | retain scope name args input => exact stepped_retain hclock s scope name args input
  | consume scope name args state responses =>
    exact stepped_consume hclock s scope name args state responses
  | closeScope scope => exact stepped_closeScope s scope
  | close => exact stepped_close s

theorem proxyCall_balanced {s : ProxyInputs ν} (h : s.Balanced)
    (hfresh : s.pending.get? (env.randomUUID s.drawn) = none)
    (call : ProxyCall env.schemas.numerals) : (proxyCall env s call).1.Balanced := by
  cases call with
  | retain scope name args input => exact retain_balanced h scope name args input hfresh
  | consume scope name args state responses =>
    exact consume_balanced h scope name args state responses
  | closeScope scope => exact sweep_balanced h _
  | close => exact close_balanced s

/-! ## Runs -/

theorem Kept.step (henv : env.Lawful) {r : ProxyRun env.schemas.numerals} (h : Kept r)
    (call : ProxyCall env.schemas.numerals) : Kept (proxyStep env r call) := by
  have hstep := stepped henv.clock r.state call
  have hdrawn : r.state.drawn ≤ (proxyCall env r.state call).1.drawn := hstep.drawn
  constructor
  · exact proxyCall_balanced h.balanced (h.fresh henv) call
  · intro key value hget
    obtain ⟨hbefore, hcloses, hyields⟩ |
      ⟨hkey, hmade, name, args, input, hcall, houtcome, hexpires, haction⟩ :=
      hstep.pending key value hget
    · exact (h.granted key value hbefore).append hcloses hyields
    · refine ⟨r.log, transition env r.state call, [], name, args, input, rfl, hcall, houtcome,
        hexpires, haction, List.forall_mem_nil _, ?_⟩
      show ∀ t ∈ r.log ++ [transition env r.state call], ¬ t.Yields key
      rw [List.forall_mem_append, List.forall_mem_singleton]
      constructor
      · intro t ht hyields
        obtain ⟨n, hn, hother⟩ := h.yielded t ht key hyields
        rw [hkey] at hother
        exact absurd (henv.keys hother) (Nat.ne_of_gt hn)
      · rintro ⟨_, _, _, _, _, hconsume, -⟩
        rw [hcall] at hconsume
        cases hconsume
  · intro key value hget
    obtain ⟨hbefore, -⟩ | ⟨hkey, hmade, -⟩ := hstep.pending key value hget
    · obtain ⟨n, hn, hkey⟩ := h.drawn key value hbefore
      exact ⟨n, lt_of_lt_of_le hn hdrawn, hkey⟩
    · exact ⟨r.state.drawn, hmade, hkey⟩
  · intro t ht key hyields
    obtain hold | hnew := List.mem_append.mp ht
    · obtain ⟨n, hn, hkey⟩ := h.yielded t hold key hyields
      exact ⟨n, lt_of_lt_of_le hn hdrawn, hkey⟩
    · rw [List.mem_singleton.mp hnew] at hyields
      obtain ⟨scope, name, args, responses, reply, hcall, houtcome⟩ := hyields
      obtain ⟨value, hget, -⟩ := hstep.yields key scope name args responses reply hcall houtcome
      obtain ⟨n, hn, hkey⟩ := h.drawn key value hget
      exact ⟨n, lt_of_lt_of_le hn hdrawn, hkey⟩
  · intro past t future key scope name args responses reply hlog hcall houtcome
    obtain rfl | ⟨future, last, rfl⟩ := List.eq_nil_or_concat future
    · -- the call that was made last
      obtain ⟨rfl, hlast⟩ := List.append_inj' hlog rfl
      obtain rfl := List.singleton_inj.mp hlast
      obtain ⟨value, hget, hexpires, rfl, haction⟩ :=
        hstep.yields key scope name args responses reply hcall houtcome
      obtain ⟨earlier, made, later, other, given, input, hpast, hmade, hkey, htime, hother, hopen,
        hunused⟩ := h.granted key value hget
      obtain ⟨rfl, hargs⟩ := actionHash_inj henv.digest (hother.symm.trans haction)
      exact ⟨earlier, made, later, given, input, value.expires, hpast, hmade, hkey, htime, hexpires,
        hargs, hopen, hunused⟩
    · rw [List.concat_eq_append] at hlog
      have hfront : r.log = past ++ t :: future :=
        (List.append_inj' (hlog.trans (List.append_assoc past (t :: future) [last]).symm) rfl).1
      exact h.rightful past t future key scope name args responses reply hfront hcall houtcome
  · intro t ht hthrows
    obtain hold | hnew := List.mem_append.mp ht
    · exact h.thrown t hold hthrows
    · rw [List.mem_singleton.mp hnew] at hthrows ⊢
      exact hstep.throws hthrows

theorem kept_run (henv : env.Lawful) (calls : List (ProxyCall env.schemas.numerals)) :
    Always (proxyStep env) Kept (ProxyRun.initial env.schemas.numerals) calls :=
  always_of_inv (fun _ call h => h.step henv call) Kept.initial calls

end Invariant

/-- Over any calls the counter is the sum of the sizes within its bounds, every reply is rightful, and
a consumption that throws leaves all that was not expired. -/
theorem proxy_inputs_kept {env : ProxyEnvironment ν} (henv : env.Lawful)
    (calls : List (ProxyCall env.schemas.numerals)) :
    Always (proxyStep env) (fun r => r.state.Balanced) (ProxyRun.initial env.schemas.numerals)
        calls ∧
      (∀ past t future key scope name args responses reply,
        (run (proxyStep env) (ProxyRun.initial env.schemas.numerals) calls).log =
          past ++ t :: future →
        t.call = .consume scope name args (.text key) responses → t.outcome = .reply (some reply) →
        Rightful env past key scope name args t.before.ticks) ∧
      ∀ t ∈ (run (proxyStep env) (ProxyRun.initial env.schemas.numerals) calls).log,
        t.ConsumeThrows → KeepsPending env t := by
  have hkept := kept_run henv calls
  exact ⟨hkept.mono fun _ h => h.balanced, hkept.last.rightful, hkept.last.thrown⟩

/-! ## A continuation that is replied to twice -/

/-- The numbers are 0 and -0, which is `true`; the text of both is `0`. -/
def plainEnvironment : ProxyEnvironment Bool where
  schemas :=
    { numerals := { text := fun _ => ['0'], value := fun _ => false }
      inputRequest := .ok
      inputResponse := fun _ _ => .ok ()
      datetime := fun _ => none }
  now n := n
  randomUUID n := List.replicate n 0x61
  sha256 bytes := bytes.map fun byte => UInt16.ofNat byte.toNat

theorem plainEnvironment_lawful : plainEnvironment.Lawful where
  clock := fun _ _ h => Int.ofNat_le.mpr h
  keys := fun n m h => by
    have hlength := congrArg List.length h
    rwa [show plainEnvironment.randomUUID n = List.replicate n 0x61 from rfl,
      show plainEnvironment.randomUUID m = List.replicate m 0x61 from rfl, List.length_replicate,
      List.length_replicate] at hlength
  digest := by
    apply List.map_injective_iff.mpr
    intro byte other h
    have hvalue := congrArg UInt16.toNat h
    have hsmall : ∀ byte : UInt8, (UInt16.ofNat byte.toNat).toNat = byte.toNat := fun byte =>
      Utf16.toNat_ofNat (lt_trans byte.toNat_lt (by decide))
    dsimp only at hvalue
    rw [hsmall, hsmall] at hvalue
    exact UInt8.toNat_inj.mp hvalue

def emptyArguments : McpToolArguments plainEnvironment.schemas.numerals where
  value := .object []
  printable := ⟨List.nodup_nil, trivial⟩

def repliedTwice : List (ProxyCall plainEnvironment.schemas.numerals) :=
  [.retain (Utf16.text "caller") (Utf16.text "tool") emptyArguments
      { inputRequests := [], requestState := some (Utf16.text "state"), _meta := none },
    .consume (Utf16.text "caller") (Utf16.text "tool") emptyArguments (.text []) .undefined,
    .consume (Utf16.text "caller") (Utf16.text "tool") emptyArguments (.text []) .undefined]

def ProxyOutcome.replies : ProxyOutcome ν → Bool
  | .reply (some _) => true
  | _ => false

theorem replied_twice_kept :
    (run (proxyStep plainEnvironment) (ProxyRun.initial _) repliedTwice).log.map
        (fun t => t.outcome.replies) = [false, true, false] ∧
      Always (proxyStep plainEnvironment) (fun r => r.state.Balanced) (ProxyRun.initial _)
        repliedTwice := by
  have hkept := proxy_inputs_kept plainEnvironment_lawful repliedTwice
  exact ⟨by decide +kernel, hkept.1⟩

def zeroArguments (negative : Bool) : McpToolArguments plainEnvironment.schemas.numerals where
  value := .object [(Utf16.text "x", .number negative)]
  printable := ⟨List.nodup_singleton _, rfl, trivial⟩

/-- Arguments with 0 are replied to with -0. -/
theorem negated_zero_replied :
    plainEnvironment.Lawful ∧ (zeroArguments false).value ≠ (zeroArguments true).value ∧
      (run (proxyStep plainEnvironment) (ProxyRun.initial _)
        [.retain (Utf16.text "caller") (Utf16.text "tool") (zeroArguments false)
          { inputRequests := [], requestState := some (Utf16.text "state"), _meta := none },
        .consume (Utf16.text "caller") (Utf16.text "tool") (zeroArguments true) (.text [])
          .undefined]).log.map (fun t => t.outcome.replies) = [false, true] := by
  refine ⟨plainEnvironment_lawful, ?_, by decide +kernel⟩
  intro h
  cases h

end HarnessControl.Mcp
