import Mathlib
import HarnessControl.Library.Transition
import HarnessControl.Mcp.PendingInputs

/-!
# Continuations of the proxy

A continuation belongs to the caller and the tool call that it was made for.  It is kept for a while
under a key that is handed out, and the first reply to it takes it away.
-/

namespace HarnessControl.Mcp

open HarnessControl.Library HarnessControl.Library.JsonText

variable {ν : Type}

/-! ## The store -/

/-- The clock by its readings, the keys that are drawn, and the hexadecimal SHA-256. -/
structure ProxyEnvironment (ν : Type) where
  schemas : InputSchemas ν
  now : Nat → Int
  randomUUID : Nat → Text
  sha256 : List UInt8 → Text

/-- The clock does not go back, no key is drawn twice, and texts of one digest are the same. -/
structure ProxyEnvironment.Lawful (env : ProxyEnvironment ν) : Prop where
  clock : Monotone env.now
  keys : Function.Injective env.randomUUID
  digest : Function.Injective env.sha256

structure McpToolArguments (numerals : Numerals ν) where
  value : JsonValue ν
  printable : value.Printable numerals

structure Continuation (ν : Type) where
  scope : Text
  action : Text
  pending : McpPendingInput ν
  expires : Int
  bytes : Nat

structure ProxyInputs (ν : Type) where
  pending : Dict Text (Continuation ν)
  bytes : Int
  /-- The readings of the clock so far. -/
  ticks : Nat
  /-- The keys that were drawn. -/
  drawn : Nat

def ProxyInputs.initial : ProxyInputs ν := { pending := .empty, bytes := 0, ticks := 0, drawn := 0 }

namespace ProxyInputs

def tick (s : ProxyInputs ν) : ProxyInputs ν := { s with ticks := s.ticks + 1 }

def remove (s : ProxyInputs ν) (key : Text) : ProxyInputs ν :=
  match s.pending.get? key with
  | some value => { s with bytes := s.bytes - value.bytes, pending := s.pending.erase key }
  | none => s

/-- A loop over the entries that were there when it began, each looked at in a moment of its own. -/
def sweep (dead : Nat → Continuation ν → Bool) :
    List (Text × Continuation ν) → ProxyInputs ν → ProxyInputs ν
  | [], s => s
  | (key, value) :: rest, s =>
    sweep dead rest (if dead s.ticks value then s.tick.remove key else s.tick)

section Operations

variable (env : ProxyEnvironment ν)

def expire (s : ProxyInputs ν) : ProxyInputs ν :=
  sweep (fun tick value => decide (value.expires ≤ env.now tick)) s.pending.entries s

def actionHash (name : Text) (args : McpToolArguments env.schemas.numerals) : Text :=
  env.sha256 (Utf8.encode
    (stringify env.schemas.numerals (.array [.string name, args.value])))

def retain (s : ProxyInputs ν) (scope name : Text) (args : McpToolArguments env.schemas.numerals)
    (input : McpPendingInput ν) : ProxyInputs ν × Except InputError Text :=
  let s := s.expire env
  match parseMcpPendingInput env.schemas input with
  | .error failure => (s, .error failure)
  | .ok pending =>
    let bytes := byteLength env.schemas pending.json
    if 128 ≤ s.pending.size ∨ 8 * 1024 * 1024 < s.bytes + bytes then
      (s, .error (.thrown "MCP proxy input ownership reached its bounded capacity."))
    else
      match mcpInputExpiresAt env.schemas pending (env.now s.ticks + 5 * 60000) with
      | none => (s.tick, .error .schema)
      | some expires =>
        if expires ≤ env.now s.tick.ticks then
          (s.tick.tick, .error (.thrown "The upstream MCP input deadline expired."))
        else
          let key := env.randomUUID s.drawn
          ({ pending := s.pending.set key
              { scope, action := actionHash env name args, pending, expires, bytes }
             bytes := s.bytes + bytes
             ticks := s.ticks + 2
             drawn := s.drawn + 1 }, .ok key)

inductive StateArgument where
  | undefined
  | text (value : Text)
  | other

/-- `null` is read as the empty record. -/
inductive ResponsesArgument (ν : Type) where
  | undefined
  | record (entries : List (Text × JsonValue ν))
  | malformed

def ResponsesArgument.entries : ResponsesArgument ν → Option (List (Text × JsonValue ν))
  | .undefined => some []
  | .record entries => some entries
  | .malformed => none

/-- The reply to a continuation that was found. -/
def accept (value : Continuation ν) (responses : ResponsesArgument ν) :
    Except InputError (McpInputReply ν) :=
  match responses.entries with
  | none => .error .schema
  | some entries => mcpInputReplySchema env.schemas value.pending entries

def foreign : InputError :=
  .thrown "MCP proxy continuation is expired, consumed or belongs to another caller/action."

def consume (s : ProxyInputs ν) (scope name : Text) (args : McpToolArguments env.schemas.numerals)
    (state : StateArgument) (responses : ResponsesArgument ν) :
    ProxyInputs ν × Except InputError (Option (McpInputReply ν)) :=
  let s := s.expire env
  match state, responses with
  | .undefined, .undefined => (s, .ok none)
  | .text key, responses =>
    match s.pending.get? key with
    | none => (s, .error foreign)
    | some value =>
      if value.scope ≠ scope ∨ value.action ≠ actionHash env name args then
        (s, .error foreign)
      else
        match accept env value responses with
        | .error failure => (s, .error failure)
        -- a retry is fenced before the dispatch
        | .ok reply => (s.remove key, .ok (some reply))
  | _, _ => (s, .error (.thrown "MCP input responses have no verified proxy continuation."))

def closeScope (s : ProxyInputs ν) (scope : Text) : ProxyInputs ν :=
  sweep (fun _ value => value.scope == scope) s.pending.entries s

def close (s : ProxyInputs ν) : ProxyInputs ν := { s with pending := .empty, bytes := 0 }

end Operations

/-! ## What a loop removes -/

@[simp] theorem tick_pending (s : ProxyInputs ν) : s.tick.pending = s.pending := rfl

@[simp] theorem tick_bytes (s : ProxyInputs ν) : s.tick.bytes = s.bytes := rfl

@[simp] theorem tick_ticks (s : ProxyInputs ν) : s.tick.ticks = s.ticks + 1 := rfl

@[simp] theorem tick_drawn (s : ProxyInputs ν) : s.tick.drawn = s.drawn := rfl

@[simp] theorem remove_ticks (s : ProxyInputs ν) (key : Text) : (s.remove key).ticks = s.ticks := by
  unfold remove
  split <;> rfl

@[simp] theorem remove_drawn (s : ProxyInputs ν) (key : Text) : (s.remove key).drawn = s.drawn := by
  unfold remove
  split <;> rfl

theorem remove_pending (s : ProxyInputs ν) (key : Text) :
    (s.remove key).pending = s.pending.erase key := by
  unfold remove
  split
  · rfl
  · rename_i hnone
    exact (Dict.erase_of_none hnone).symm

/-- The counter is the sum of the sizes, and neither it nor the number of entries passes its bound. -/
structure Balanced (s : ProxyInputs ν) : Prop where
  sum : s.bytes = s.pending.total Continuation.bytes
  bytes : s.bytes ≤ 8 * 1024 * 1024
  size : s.pending.size ≤ 128

variable {s : ProxyInputs ν}

theorem Balanced.tick (h : s.Balanced) : s.tick.Balanced := ⟨h.1, h.2, h.3⟩

theorem Balanced.remove (h : s.Balanced) (key : Text) :
    (s.remove key).Balanced := by
  have htotal := s.pending.total_erase key Continuation.bytes
  have hsize := s.pending.size_erase_le key
  have hsum := h.sum
  have hbytes := h.bytes
  have hcount := h.size
  cases hget : s.pending.get? key with
  | none =>
    unfold ProxyInputs.remove
    rw [hget]
    exact h
  | some value =>
    rw [hget, Option.elim_some] at htotal
    unfold ProxyInputs.remove
    rw [hget]
    constructor
    · show s.bytes - value.bytes = _
      dsimp only
      omega
    · dsimp only
      omega
    · exact Nat.le_trans hsize hcount

/-- What a loop leaves of an entry that it comes to: the entry, or nothing where the loop finds it
dead.  The rest is as it was. -/
theorem sweep_spec (dead : Nat → Continuation ν → Bool) {entries : List (Text × Continuation ν)}
    {s : ProxyInputs ν} (hnodup : (entries.map Prod.fst).Nodup)
    (hentries : ∀ entry ∈ entries, s.pending.get? entry.1 = some entry.2) :
    (s.Balanced → (sweep dead entries s).Balanced) ∧
      (sweep dead entries s).drawn = s.drawn ∧ s.ticks ≤ (sweep dead entries s).ticks ∧
      (∀ key ∉ entries.map Prod.fst,
        (sweep dead entries s).pending.get? key = s.pending.get? key) ∧
      ∀ entry ∈ entries, ∃ tick, s.ticks ≤ tick ∧ tick ≤ (sweep dead entries s).ticks ∧
        (sweep dead entries s).pending.get? entry.1 =
          if dead tick entry.2 then none else some entry.2 := by
  induction entries generalizing s with
  | nil => exact ⟨id, rfl, le_rfl, fun _ _ => rfl, List.forall_mem_nil _⟩
  | cons entry rest ih =>
    obtain ⟨key, value⟩ := entry
    obtain ⟨hfirst, hrest⟩ := List.forall_mem_cons.mp hentries
    obtain ⟨hkey, hnodup⟩ := List.nodup_cons.mp hnodup
    have hne : ∀ other ∈ rest.map Prod.fst, other ≠ key := by
      rintro other hother rfl
      exact hkey hother
    rw [sweep]
    generalize hnext : (if dead s.ticks value then s.tick.remove key else s.tick) = t
    have hticks : t.ticks = s.ticks + 1 := by
      rw [← hnext]
      split <;> simp
    have hdrawn : t.drawn = s.drawn := by
      rw [← hnext]
      split <;> simp
    have hself : t.pending.get? key = if dead s.ticks value then none else some value := by
      rw [← hnext]
      split
      · rw [remove_pending, Dict.get?_erase_self]
      · exact hfirst
    have hother : ∀ other ≠ key, t.pending.get? other = s.pending.get? other := by
      intro other hother
      rw [← hnext]
      split
      · rw [remove_pending, Dict.get?_erase_of_ne _ hother, tick_pending]
      · rfl
    have hbalanced : s.Balanced → t.Balanced := by
      intro h
      rw [← hnext]
      split
      · exact h.tick.remove key
      · exact h.tick
    obtain ⟨ihBalanced, ihDrawn, ihTicks, ihOther, ihEntries⟩ := @ih t hnodup fun entry hentry => by
      rw [hother _ (hne _ (List.mem_map_of_mem hentry))]
      exact hrest entry hentry
    refine ⟨fun h => ihBalanced (hbalanced h), ihDrawn.trans hdrawn, by omega, ?_, ?_⟩
    · intro other hnot
      rw [List.map_cons, List.mem_cons, not_or] at hnot
      rw [ihOther other hnot.2, hother other hnot.1]
    · intro entry hentry
      obtain rfl | hentry := List.mem_cons.mp hentry
      · exact ⟨s.ticks, le_rfl, by omega, (ihOther key hkey).trans hself⟩
      · obtain ⟨tick, hlow, hhigh, hget⟩ := ihEntries entry hentry
        exact ⟨tick, by omega, hhigh, hget⟩

theorem sweep_all (dead : Nat → Continuation ν → Bool) (s : ProxyInputs ν) (key : Text) :
    ((sweep dead s.pending.entries s).pending.get? key = none ∧ s.pending.get? key = none) ∨
      ∃ value tick, s.pending.get? key = some value ∧ s.ticks ≤ tick ∧
        tick ≤ (sweep dead s.pending.entries s).ticks ∧
        (sweep dead s.pending.entries s).pending.get? key =
          if dead tick value then none else some value := by
  obtain ⟨-, -, -, hother, hentries⟩ := sweep_spec dead s.pending.nodup fun entry hentry =>
    Dict.get?_eq_some_iff.mpr hentry
  cases hget : s.pending.get? key with
  | none =>
    left
    exact ⟨(hother key (Dict.get?_eq_none_iff.mp hget)).trans hget, rfl⟩
  | some value =>
    right
    obtain ⟨tick, hlow, hhigh, hleft⟩ := hentries (key, value) (Dict.get?_eq_some_iff.mp hget)
    exact ⟨value, tick, rfl, hlow, hhigh, hleft⟩

theorem sweep_balanced (h : s.Balanced)
    (dead : Nat → Continuation ν → Bool) : (sweep dead s.pending.entries s).Balanced :=
  (sweep_spec dead s.pending.nodup fun _ hentry => Dict.get?_eq_some_iff.mpr hentry).1 h

theorem sweep_drawn (s : ProxyInputs ν) (dead : Nat → Continuation ν → Bool) :
    (sweep dead s.pending.entries s).drawn = s.drawn :=
  (sweep_spec dead s.pending.nodup fun _ hentry => Dict.get?_eq_some_iff.mpr hentry).2.1

theorem sweep_ticks (s : ProxyInputs ν) (dead : Nat → Continuation ν → Bool) :
    s.ticks ≤ (sweep dead s.pending.entries s).ticks :=
  (sweep_spec dead s.pending.nodup fun _ hentry => Dict.get?_eq_some_iff.mpr hentry).2.2.1

theorem sweep_get {dead : Nat → Continuation ν → Bool} {key : Text}
    {value : Continuation ν}
    (h : (sweep dead s.pending.entries s).pending.get? key = some value) :
    s.pending.get? key = some value ∧ ∃ tick, s.ticks ≤ tick ∧ dead tick value = false := by
  obtain ⟨hnone, -⟩ | ⟨other, tick, hget, hlow, -, hleft⟩ := sweep_all dead s key
  · rw [hnone] at h
    cases h
  · rw [hleft] at h
    split at h
    · cases h
    · rename_i hdead
      cases h
      exact ⟨hget, tick, hlow, Bool.not_eq_true _ ▸ hdead⟩

section Operations

variable {env : ProxyEnvironment ν}

theorem expire_get (hclock : Monotone env.now) {s : ProxyInputs ν} {key : Text}
    {value : Continuation ν} (h : (s.expire env).pending.get? key = some value) :
    s.pending.get? key = some value ∧ env.now s.ticks < value.expires := by
  obtain ⟨hget, tick, htick, hdead⟩ := sweep_get h
  rw [decide_eq_false_iff_not, Int.not_le] at hdead
  exact ⟨hget, lt_of_le_of_lt (hclock htick) hdead⟩

theorem expire_kept (hclock : Monotone env.now) (s : ProxyInputs ν) (key : Text) :
    (s.expire env).pending.get? key = s.pending.get? key ∨
      (s.expire env).pending.get? key = none ∧
        ∃ value, s.pending.get? key = some value ∧
          value.expires ≤ env.now (s.expire env).ticks := by
  obtain ⟨hnone, hget⟩ | ⟨value, tick, hget, -, hhigh, hleft⟩ :=
    sweep_all (fun tick value => decide (value.expires ≤ env.now tick)) s key
  · exact Or.inl (hnone.trans hget.symm)
  · split at hleft
    · rename_i hdead
      exact Or.inr ⟨hleft, value, hget, le_trans (decide_eq_true_iff.mp hdead) (hclock hhigh)⟩
    · exact Or.inl (hleft.trans hget.symm)

theorem actionHash_inj (hdigest : Function.Injective env.sha256) {name other : Text}
    {args given : McpToolArguments env.schemas.numerals}
    (h : actionHash env name args = actionHash env other given) :
    name = other ∧ stringify env.schemas.numerals args.value =
      stringify env.schemas.numerals given.value := by
  have hprintable : ∀ (name : Text) (args : McpToolArguments env.schemas.numerals),
      Value.Printable env.schemas.numerals (.array [.string name, args.value]) :=
    fun name args => ⟨trivial, args.printable, trivial⟩
  have htext := congrArg Utf8.decode (hdigest h)
  rw [Utf8.decode_encode, Utf8.decode_encode] at htext
  have hparse := parse_stringify env.schemas.numerals (hprintable name args)
  rw [htext, parse_stringify env.schemas.numerals (hprintable other given)] at hparse
  simp only [Value.reread, rereadItems, Option.some.injEq, JsonText.Value.array.injEq,
    List.cons.injEq, JsonText.Value.string.injEq, and_true] at hparse
  obtain ⟨rfl, -⟩ := hparse
  simpa [stringify, stringifyItems, stringifyMoreItems] using htext

/-- The time until which `retain` keeps an input, by a reading of the clock in between. -/
def Expires (env : ProxyEnvironment ν) (first last : Nat) (input : McpPendingInput ν)
    (expires : Int) : Prop :=
  ∃ pending tick, parseMcpPendingInput env.schemas input = .ok pending ∧ first ≤ tick ∧
    tick ≤ last ∧
    mcpInputExpiresAt env.schemas pending (env.now tick + 5 * 60000) = some expires

/-! ## Operations -/

theorem retain_cases (s : ProxyInputs ν) (scope name : Text)
    (args : McpToolArguments env.schemas.numerals) (input : McpPendingInput ν) :
    (∃ failure t, s.retain env scope name args input = (t, .error failure) ∧
      t.pending = (s.expire env).pending ∧ t.bytes = (s.expire env).bytes ∧ t.drawn = s.drawn ∧
      (s.expire env).ticks ≤ t.ticks) ∨
    ∃ value t, s.retain env scope name args input = (t, .ok (env.randomUUID s.drawn)) ∧
      value.scope = scope ∧ value.action = actionHash env name args ∧
      t.pending = (s.expire env).pending.set (env.randomUUID s.drawn) value ∧
      t.bytes = (s.expire env).bytes + value.bytes ∧ t.drawn = s.drawn + 1 ∧
      (s.expire env).ticks ≤ t.ticks ∧ (s.expire env).pending.size < 128 ∧
      t.bytes ≤ 8 * 1024 * 1024 ∧ Expires env s.ticks t.ticks input value.expires := by
  have hdrawn : (s.expire env).drawn = s.drawn := sweep_drawn s _
  have hticks : s.ticks ≤ (s.expire env).ticks := sweep_ticks s _
  unfold retain
  dsimp only
  generalize s.expire env = s' at hdrawn hticks ⊢
  cases hparse : parseMcpPendingInput env.schemas input with
  | error failure => exact Or.inl ⟨failure, s', rfl, rfl, rfl, hdrawn, le_rfl⟩
  | ok pending =>
    dsimp only
    split
    · exact Or.inl ⟨_, s', rfl, rfl, rfl, hdrawn, le_rfl⟩
    · rename_i hroom
      rw [not_or, Nat.not_le, Int.not_lt] at hroom
      cases hexpires : mcpInputExpiresAt env.schemas pending (env.now s'.ticks + 5 * 60000) with
      | none => exact Or.inl ⟨_, s'.tick, rfl, rfl, rfl, hdrawn, Nat.le_succ _⟩
      | some expires =>
        dsimp only
        split
        · exact Or.inl ⟨_, s'.tick.tick, rfl, rfl, rfl, hdrawn, Nat.le_add_right _ 2⟩
        · rw [hdrawn]
          exact Or.inr ⟨_, _, rfl, rfl, rfl, rfl, rfl, rfl, Nat.le_add_right _ 2, hroom.1,
            hroom.2, pending, s'.ticks, hparse, hticks, Nat.le_add_right _ 2, hexpires⟩

theorem consume_cases (s : ProxyInputs ν) (scope name : Text)
    (args : McpToolArguments env.schemas.numerals) (state : StateArgument)
    (responses : ResponsesArgument ν) :
    (∃ outcome, s.consume env scope name args state responses = (s.expire env, outcome) ∧
      ∀ reply, outcome ≠ .ok (some reply)) ∨
    ∃ key value reply, state = .text key ∧ (s.expire env).pending.get? key = some value ∧
      value.scope = scope ∧ value.action = actionHash env name args ∧
      s.consume env scope name args state responses =
        ((s.expire env).remove key, .ok (some reply)) := by
  unfold consume
  dsimp only
  generalize s.expire env = s'
  cases state with
  | undefined => cases responses <;> exact Or.inl ⟨_, rfl, fun _ h => by cases h⟩
  | other => cases responses <;> exact Or.inl ⟨_, rfl, fun _ h => by cases h⟩
  | text key =>
    dsimp only
    cases hget : s'.pending.get? key with
    | none => exact Or.inl ⟨_, rfl, fun _ h => by cases h⟩
    | some value =>
      dsimp only
      split
      · exact Or.inl ⟨_, rfl, fun _ h => by cases h⟩
      · rename_i howned
        rw [not_or, not_not, not_not] at howned
        cases accept env value responses with
        | error failure => exact Or.inl ⟨_, rfl, fun _ h => by cases h⟩
        | ok reply => exact Or.inr ⟨key, value, reply, rfl, hget, howned.1, howned.2, rfl⟩

theorem retain_balanced (h : s.Balanced) (scope name : Text)
    (args : McpToolArguments env.schemas.numerals) (input : McpPendingInput ν)
    (hfresh : s.pending.get? (env.randomUUID s.drawn) = none) :
    (s.retain env scope name args input).1.Balanced := by
  have hexpired : (s.expire env).Balanced := sweep_balanced h _
  obtain ⟨failure, t, hretain, hpending, hbytes, -⟩ |
    ⟨value, t, hretain, -, -, hpending, hbytes, -, -, hsize, hlimit, -⟩ :=
    retain_cases s scope name args input
  · rw [hretain]
    exact ⟨by rw [hbytes, hpending]; exact hexpired.sum, by rw [hbytes]; exact hexpired.bytes,
      by rw [hpending]; exact hexpired.size⟩
  · have hnone : (s.expire env).pending.get? (env.randomUUID s.drawn) = none := by
      cases hget : (s.expire env).pending.get? (env.randomUUID s.drawn) with
      | none => rfl
      | some other =>
        rw [(sweep_get hget).1] at hfresh
        cases hfresh
    have htotal := (s.expire env).pending.total_set (env.randomUUID s.drawn) value
      Continuation.bytes
    have hcount := (s.expire env).pending.size_set (env.randomUUID s.drawn) value
    have hsum := hexpired.sum
    rw [hnone] at htotal hcount
    rw [Option.elim_none, Nat.add_zero] at htotal
    rw [hretain]
    refine ⟨?_, hlimit, ?_⟩
    · show t.bytes = _
      rw [hpending, htotal, hbytes, hsum]
      exact (Int.natCast_add _ _).symm
    · show t.pending.size ≤ 128
      rw [hpending, hcount, Option.isSome_none, if_neg Bool.false_ne_true]
      omega

theorem consume_balanced (h : s.Balanced) (scope name : Text)
    (args : McpToolArguments env.schemas.numerals) (state : StateArgument)
    (responses : ResponsesArgument ν) :
    (s.consume env scope name args state responses).1.Balanced := by
  have hexpired : (s.expire env).Balanced := sweep_balanced h _
  obtain ⟨outcome, hconsume, -⟩ | ⟨key, value, reply, -, -, -, -, hconsume⟩ :=
    consume_cases s scope name args state responses
  · rw [hconsume]
    exact hexpired
  · rw [hconsume]
    exact hexpired.remove key

theorem close_balanced (s : ProxyInputs ν) : s.close.Balanced := by
  have hbytes : (0 : Int) ≤ 8 * 1024 * 1024 := by decide
  exact ⟨rfl, hbytes, Nat.zero_le _⟩

end Operations

end ProxyInputs

end HarnessControl.Mcp
