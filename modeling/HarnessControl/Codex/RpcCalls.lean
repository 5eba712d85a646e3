import HarnessControl.Codex.RpcTransport

/-!
# Calls and their responses

A call is pending until its promise is settled, and it is settled once: by the first response with its
id that comes after it was made, by its signal or by the failure of the transport.
-/

namespace HarnessControl.Codex

open HarnessControl.Library HarnessControl.Protocol

variable {failure : Option RpcFailure} {handled : List RpcMessage}

/-! ## One call -/

def RpcCall.firstResponse (handled : List RpcMessage) (call : RpcCall) : Option RpcMessage :=
  call.id.bind fun id => (handled.drop call.madeAt).find? (RpcMessage.responds id)

/-- What a response settles its call with: the result or, where it has an error, the rejection with
the message and the code of it, if it is an error of that form. -/
inductive RpcMessage.Settles (message : RpcMessage) : Settlement → Prop where
  | resolved : message.error = none → Settles message (.resolved message.result)
  | rejected {fields : JsonFields} {text : String} {code : Option Int} :
    message.error = some (.obj fields) → fields.get? "message" = some (.str text) →
    fields.get? "code" = code.map .num → Settles message (.rejected (some text) code)
  | unread {error : Json} : message.error = some error →
    (∀ fields text code, error = .obj fields → fields.get? "message" = some (.str text) →
      fields.get? "code" ≠ Option.map .num code) → Settles message (.rejected none none)

theorem readOptional_integer {fields : JsonFields} {key : String} {code : Option Int} :
    readOptional readInteger fields key = some code ↔ fields.get? key = code.map .num := by
  unfold readOptional
  cases fields.get? key with
  | none => cases code <;> simp
  | some value => cases value <;> cases code <;> simp [readInteger]

theorem nativeError_iff {fields : JsonFields} {text : String} {code : Option Int} :
    nativeError (.obj fields) = some (text, code) ↔
      fields.get? "message" = some (.str text) ∧ fields.get? "code" = code.map .num := by
  rw [← readOptional_integer]
  simp only [nativeError, Option.bind_eq_bind, Option.bind_eq_some_iff, Option.some.injEq,
    Prod.mk.injEq]
  constructor
  · rintro ⟨_, ⟨value, hvalue, htext⟩, _, hcode, rfl, rfl⟩
    cases value <;> cases htext
    exact ⟨hvalue, hcode⟩
  · rintro ⟨htext, hcode⟩
    exact ⟨text, ⟨_, htext, rfl⟩, code, hcode, rfl, rfl⟩

theorem responseSettlement_settles (message : RpcMessage) :
    message.Settles (responseSettlement message) := by
  unfold responseSettlement
  cases herror : message.error with
  | none => exact .resolved herror
  | some error =>
    dsimp only
    cases hread : nativeError error with
    | some read =>
      cases error with
      | obj fields =>
        obtain ⟨htext, hcode⟩ := nativeError_iff.mp hread
        exact .rejected herror htext hcode
      | _ => cases hread
    | none =>
      refine .unread herror ?_
      rintro fields text code rfl htext hcode
      rw [nativeError_iff.mpr ⟨htext, hcode⟩] at hread
      cases hread

def RpcCall.Owed (failure : Option RpcFailure) (handled : List RpcMessage) (call : RpcCall)
    (settlement : Settlement) : Prop :=
  (∃ message, call.firstResponse handled = some message ∧ message.Settles settlement) ∨
  (∃ reason, call.signal = some (some reason) ∧ settlement = .aborted reason) ∨
  ∃ error, failure = some error ∧ settlement = .failed error

structure RpcCall.Kept (failure : Option RpcFailure) (handled : List RpcMessage) (call : RpcCall) :
    Prop where
  made : call.madeAt ≤ handled.length
  single : call.settlements.length ≤ 1
  named : call.settlements = [] → call.id.isSome
  listening : call.listening = true → call.settlements = []
  unanswered : call.settlements = [] → call.firstResponse handled = none
  settled : ∀ settlement ∈ call.settlements, call.Owed failure handled settlement

namespace RpcCall

variable {call : RpcCall}

theorem Owed.mono {settlement : Settlement} (h : call.Owed failure handled settlement)
    {failure' : Option RpcFailure} {handled' : List RpcMessage}
    (hfailure : ∀ error, failure = some error → failure' = some error)
    (hresponse : ∀ message, call.firstResponse handled = some message →
      call.firstResponse handled' = some message) :
    call.Owed failure' handled' settlement := by
  obtain ⟨message, hfirst, heq⟩ | haborted | ⟨error, hfailed, heq⟩ := h
  · exact Or.inl ⟨message, hresponse message hfirst, heq⟩
  · exact Or.inr (Or.inl haborted)
  · exact Or.inr (Or.inr ⟨error, hfailure error hfailed, heq⟩)

theorem firstResponse_append (hmade : call.madeAt ≤ handled.length) (message : RpcMessage) :
    call.firstResponse (handled ++ [message]) =
      (call.firstResponse handled).or
        (if ∃ id, call.id = some id ∧ message.responds id = true then some message else none) := by
  unfold firstResponse
  cases hid : call.id with
  | none => simp
  | some id =>
    rw [Option.bind_some, Option.bind_some, List.drop_append_of_le_length hmade,
      List.find?_append, List.find?_singleton]
    simp

theorem Kept.heard (h : call.Kept failure handled) {message : RpcMessage}
    (hother : call.settlements = [] → ∀ id, call.id = some id → message.responds id = false) :
    call.Kept failure (handled ++ [message]) where
  made := by
    rw [List.length_append]
    exact Nat.le_add_right_of_le h.made
  single := h.single
  named := h.named
  listening := h.listening
  unanswered hwaiting := by
    rw [firstResponse_append h.made, h.unanswered hwaiting, Option.none_or, if_neg]
    rintro ⟨id, hid, hresponds⟩
    rw [hother hwaiting id hid] at hresponds
    cases hresponds
  settled settlement hin := by
    apply (h.settled settlement hin).mono (fun _ hfailure => hfailure)
    intro first hfirst
    rw [firstResponse_append h.made, hfirst, Option.some_or]

theorem Kept.settle (h : call.Kept failure handled) (hwaiting : call.settlements = [])
    {settlement : Settlement} (howed : call.Owed failure handled settlement) :
    (call.settle settlement).Kept failure handled where
  made := h.made
  single := by
    show (call.settlements ++ [settlement]).length ≤ 1
    rw [hwaiting]
    exact Nat.le_refl 1
  named hnone := by
    change call.settlements ++ [settlement] = [] at hnone
    rw [hwaiting] at hnone
    cases hnone
  listening := nofun
  unanswered hnone := by
    change call.settlements ++ [settlement] = [] at hnone
    rw [hwaiting] at hnone
    cases hnone
  settled other hin := by
    change other ∈ call.settlements ++ [settlement] at hin
    rw [hwaiting, List.nil_append, List.mem_singleton] at hin
    rw [hin]
    exact howed

theorem Kept.responded (h : call.Kept failure handled) (hwaiting : call.settlements = []) {id : Int}
    (hid : call.id = some id) {message : RpcMessage} (hresponds : message.responds id = true) :
    (call.settle (responseSettlement message)).Kept failure (handled ++ [message]) := by
  have hfirst : call.firstResponse (handled ++ [message]) = some message := by
    rw [firstResponse_append h.made, h.unanswered hwaiting, Option.none_or, if_pos]
    exact ⟨id, hid, hresponds⟩
  have hsettled : (call.settle (responseSettlement message)).settlements =
      [responseSettlement message] := by
    show call.settlements ++ _ = _
    rw [hwaiting, List.nil_append]
  exact {
    made := by
      show call.madeAt ≤ _
      rw [List.length_append]
      exact Nat.le_add_right_of_le h.made
    single := by
      rw [hsettled]
      exact Nat.le_refl 1
    named := fun hnone => by
      rw [hsettled] at hnone
      cases hnone
    listening := nofun
    unanswered := fun hnone => by
      rw [hsettled] at hnone
      cases hnone
    settled := fun settlement hin => by
      rw [hsettled, List.mem_singleton] at hin
      rw [hin]
      exact Or.inl ⟨message, hfirst, responseSettlement_settles message⟩ }

theorem Kept.ended (h : call.Kept none handled) (error : RpcFailure) :
    call.Kept (some error) handled :=
  { h with
    settled := fun settlement hin =>
      (h.settled settlement hin).mono (fun _ hfailure => nomatch hfailure) fun _ hfirst => hfirst }

theorem Kept.signalled (h : call.Kept failure handled) (hsignal : call.signal = some none)
    (reason : String) :
    RpcCall.Kept failure handled { call with signal := some (some reason) } :=
  { h with
    settled := fun settlement hin => by
      obtain hfirst | ⟨reason', hreason, -⟩ | hfailed := h.settled settlement hin
      · exact Or.inl hfirst
      · rw [hsignal] at hreason
        cases hreason
      · exact Or.inr (Or.inr hfailed) }

end RpcCall

/-! ## The table -/

/-- `#pending` holds the calls that wait, under their ids. -/
structure RpcCalls.Kept (failure : Option RpcFailure) (handled : List RpcMessage)
    (table : RpcCalls) : Prop where
  each : ∀ call ∈ table.calls, call.Kept failure handled
  pending : ∀ id index, table.pending.get? id = some index ↔
    ∃ call, table.calls[index]? = some call ∧ call.id = some id ∧ call.settlements = []
  fresh : ∀ call ∈ table.calls, ∀ id, call.id = some id → id < table.nextId

namespace RpcCalls

variable {table : RpcCalls}

theorem Kept.opened : RpcCalls.Kept none [] .opened where
  each _ h := absurd h List.not_mem_nil
  pending id index := by
    constructor
    · intro h
      cases h
    · rintro ⟨call, hcall, -⟩
      cases hcall
  fresh _ h := absurd h List.not_mem_nil

theorem Kept.unique (h : table.Kept failure handled) {first second : Nat} {call other : RpcCall}
    (hcall : table.calls[first]? = some call) (hother : table.calls[second]? = some other)
    (hid : call.id = other.id) (hwaiting : call.settlements = [])
    (hwaits : other.settlements = []) : first = second := by
  have hnamed := (h.each call (List.mem_of_getElem? hcall)).named hwaiting
  obtain ⟨id, hsome⟩ := Option.isSome_iff_exists.mp hnamed
  have hfirst := (h.pending id first).mpr ⟨call, hcall, hsome, hwaiting⟩
  have hsecond := (h.pending id second).mpr ⟨other, hother, hid ▸ hsome, hwaits⟩
  exact Option.some.inj (hfirst.symm.trans hsecond)

theorem Kept.refuse (h : table.Kept failure handled) {signal : Option (Option String)}
    {settlement : Settlement}
    (howed : RpcCall.Owed failure handled ⟨none, handled.length, signal, false, [settlement]⟩
      settlement) : (table.refuse handled.length signal settlement).Kept failure handled where
  each call hin := by
    obtain hold | hnew := List.mem_append.mp hin
    · exact h.each call hold
    · rw [List.mem_singleton.mp hnew]
      exact {
        made := Nat.le_refl _
        single := Nat.le_refl 1
        named := nofun
        listening := nofun
        unanswered := nofun
        settled := by
          intro other hother
          rw [List.mem_singleton.mp hother]
          exact howed }
  pending id index := by
    show table.pending.get? id = some index ↔ ∃ call, (table.calls ++ _)[index]? = some call ∧ _
    rw [h.pending]
    constructor
    · rintro ⟨call, hcall, hid, hwaiting⟩
      have hlt := (List.getElem?_eq_some_iff.mp hcall).1
      exact ⟨call, (List.getElem?_append_left hlt).trans hcall, hid, hwaiting⟩
    · rintro ⟨call, hcall, hid, hwaiting⟩
      by_cases hlt : index < table.calls.length
      · rw [List.getElem?_append_left hlt] at hcall
        exact ⟨call, hcall, hid, hwaiting⟩
      · rw [List.getElem?_append_right (Nat.le_of_not_lt hlt)] at hcall
        rw [List.mem_singleton.mp (List.mem_of_getElem? hcall)] at hid
        cases hid
  fresh call hin id hid := by
    obtain hold | hnew := List.mem_append.mp hin
    · exact h.fresh call hold id hid
    · rw [List.mem_singleton.mp hnew] at hid
      cases hid

theorem Kept.send (h : table.Kept failure handled) (signal : Option (Option String)) :
    (table.send handled.length signal).Kept failure handled where
  each call hin := by
    obtain hold | hnew := List.mem_append.mp hin
    · exact h.each call hold
    · rw [List.mem_singleton.mp hnew]
      exact {
        made := Nat.le_refl _
        single := Nat.zero_le 1
        named := fun _ => rfl
        listening := fun _ => rfl
        unanswered := fun _ => by
          show (handled.drop handled.length).find? _ = none
          rw [List.drop_length]
          rfl
        settled := fun _ hother => absurd hother List.not_mem_nil }
  pending id index := by
    show (table.pending.set table.nextId table.calls.length).get? id = some index ↔
      ∃ call, (table.calls ++ _)[index]? = some call ∧ _
    by_cases hnew : id = table.nextId
    · rw [hnew, Dict.get?_set_self]
      constructor
      · intro heq
        obtain rfl := Option.some.inj heq
        exact ⟨_, List.getElem?_concat_length, rfl, rfl⟩
      · rintro ⟨call, hcall, hid, -⟩
        by_cases hlt : index < table.calls.length
        · rw [List.getElem?_append_left hlt] at hcall
          have hless := h.fresh call (List.mem_of_getElem? hcall) _ hid
          omega
        · have hbound := (List.getElem?_eq_some_iff.mp hcall).1
          rw [List.length_append, List.length_singleton] at hbound
          congr 1
          omega
    · rw [Dict.get?_set_of_ne _ _ hnew, h.pending]
      constructor
      · rintro ⟨call, hcall, hid, hwaiting⟩
        have hlt := (List.getElem?_eq_some_iff.mp hcall).1
        exact ⟨call, (List.getElem?_append_left hlt).trans hcall, hid, hwaiting⟩
      · rintro ⟨call, hcall, hid, hwaiting⟩
        by_cases hlt : index < table.calls.length
        · rw [List.getElem?_append_left hlt] at hcall
          exact ⟨call, hcall, hid, hwaiting⟩
        · rw [List.getElem?_append_right (Nat.le_of_not_lt hlt)] at hcall
          rw [List.mem_singleton.mp (List.mem_of_getElem? hcall)] at hid
          exact absurd (Option.some.inj hid).symm hnew
  fresh call hin id hid := by
    show id < table.nextId + 1
    obtain hold | hnew := List.mem_append.mp hin
    · have hless := h.fresh call hold id hid
      omega
    · rw [List.mem_singleton.mp hnew] at hid
      have heq : table.nextId = id := Option.some.inj hid
      omega

theorem Kept.settleAt (h : table.Kept failure handled) {handled' : List RpcMessage} {index : Nat}
    {call : RpcCall} {id : Int} {settlement : Settlement}
    (hcall : table.calls[index]? = some call) (hid : call.id = some id)
    (hwaiting : call.settlements = []) (hsettled : (call.settle settlement).Kept failure handled')
    (hothers : ∀ other ∈ table.calls, (other.settlements = [] → other.id ≠ some id) →
      other.Kept failure handled') :
    RpcCalls.Kept failure handled' { table with
      pending := table.pending.erase id
      calls := table.calls.modify index (RpcCall.settle settlement) } where
  each other hin := by
    obtain ⟨place, hplace⟩ := List.mem_iff_getElem?.mp hin
    by_cases heq : index = place
    · rw [← heq, List.getElem?_modify_eq, hcall] at hplace
      rw [← Option.some.inj hplace]
      exact hsettled
    · rw [List.getElem?_modify_ne _ _ heq] at hplace
      apply hothers other (List.mem_of_getElem? hplace)
      intro hwaits hsame
      exact heq (h.unique hcall hplace (hid.trans hsame.symm) hwaiting hwaits)
  pending other place := by
    show (table.pending.erase id).get? other = some place ↔
      ∃ found, (table.calls.modify index _)[place]? = some found ∧ _
    by_cases heq : index = place
    · -- the call that was settled waits no more
      subst heq
      rw [List.getElem?_modify_eq, hcall]
      constructor
      · intro hget
        have hold := (h.pending other index).mp (Dict.get?_of_erase hget)
        obtain ⟨found, hfound, hother, -⟩ := hold
        rw [hcall] at hfound
        obtain rfl := Option.some.inj hfound
        rw [hid] at hother
        rw [← Option.some.inj hother, Dict.get?_erase_self] at hget
        cases hget
      · rintro ⟨found, hfound, -, hnone⟩
        rw [← Option.some.inj hfound] at hnone
        exact absurd hnone (List.append_ne_nil_of_right_ne_nil _ (List.cons_ne_nil _ _))
    · rw [List.getElem?_modify_ne _ _ heq]
      by_cases hsame : other = id
      · rw [hsame, Dict.get?_erase_self]
        apply iff_of_false nofun
        rintro ⟨found, hfound, hother, hwaits⟩
        exact heq (h.unique hcall hfound (hid.trans hother.symm) hwaiting hwaits)
      · rw [Dict.get?_erase_of_ne _ hsame]
        exact h.pending other place
  fresh other hin name hname := by
    obtain ⟨place, hplace⟩ := List.mem_iff_getElem?.mp hin
    by_cases heq : index = place
    · rw [← heq, List.getElem?_modify_eq, hcall] at hplace
      rw [← Option.some.inj hplace] at hname
      exact h.fresh call (List.mem_of_getElem? hcall) name hname
    · rw [List.getElem?_modify_ne _ _ heq] at hplace
      exact h.fresh other (List.mem_of_getElem? hplace) name hname

theorem Kept.heard (h : table.Kept failure handled) {message : RpcMessage}
    (hother : ∀ id, message.responds id = true → table.pending.get? id = none) :
    table.Kept failure (handled ++ [message]) :=
  { h with
    each := by
      intro call hin
      apply (h.each call hin).heard
      intro hwaiting id hid
      by_contra hresponds
      have hnone := hother id (Bool.eq_true_of_not_eq_false hresponds)
      obtain ⟨index, hcall⟩ := List.mem_iff_getElem?.mp hin
      rw [(h.pending id index).mpr ⟨call, hcall, hid, hwaiting⟩] at hnone
      cases hnone }

theorem responds_unique {message : RpcMessage} {id other : Int}
    (h : message.responds id = true) (h' : message.responds other = true) : id = other := by
  unfold RpcMessage.responds at h h'
  rw [Bool.and_eq_true, beq_iff_eq] at h h'
  have heq := h.2.symm.trans h'.2
  exact RpcId.num.inj (Option.some.inj heq)

theorem Kept.respond (h : table.Kept failure handled) {id : Int} {message : RpcMessage}
    (hresponds : message.responds id = true) :
    (table.respond id message).Kept failure (handled ++ [message]) := by
  unfold RpcCalls.respond
  cases hpending : table.pending.get? id with
  | none =>
    apply h.heard
    intro other hother
    rw [← responds_unique hresponds hother]
    exact hpending
  | some index =>
    obtain ⟨call, hcall, hid, hwaiting⟩ := (h.pending id index).mp hpending
    have hkept := h.each call (List.mem_of_getElem? hcall)
    apply h.settleAt hcall hid hwaiting (hkept.responded hwaiting hid hresponds)
    intro other hin hnot
    apply (h.each other hin).heard
    intro hwaits name hname
    by_contra hother
    have hsame := responds_unique hresponds (Bool.eq_true_of_not_eq_false hother)
    exact hnot hwaits (hsame ▸ hname)

theorem Kept.signalled (h : table.Kept failure handled) {index : Nat} {call : RpcCall}
    (hcall : table.calls[index]? = some call) (hsignal : call.signal = some none)
    (reason : String) :
    RpcCalls.Kept failure handled { table with
      calls := table.calls.modify index fun call =>
        { call with signal := some (some reason) } } where
  each other hin := by
    obtain ⟨place, hplace⟩ := List.mem_iff_getElem?.mp hin
    by_cases heq : index = place
    · rw [← heq, List.getElem?_modify_eq, hcall] at hplace
      rw [← Option.some.inj hplace]
      exact (h.each call (List.mem_of_getElem? hcall)).signalled hsignal reason
    · rw [List.getElem?_modify_ne _ _ heq] at hplace
      exact h.each other (List.mem_of_getElem? hplace)
  pending id place := by
    show table.pending.get? id = some place ↔
      ∃ found, (table.calls.modify index _)[place]? = some found ∧ _
    rw [h.pending]
    by_cases heq : index = place
    · subst heq
      rw [List.getElem?_modify_eq, hcall]
      constructor
      · rintro ⟨found, hfound, hid, hwaiting⟩
        rw [← Option.some.inj hfound] at hid hwaiting
        exact ⟨_, rfl, hid, hwaiting⟩
      · rintro ⟨found, hfound, hid, hwaiting⟩
        rw [← Option.some.inj hfound] at hid hwaiting
        exact ⟨call, rfl, hid, hwaiting⟩
    · rw [List.getElem?_modify_ne _ _ heq]
  fresh other hin name hname := by
    obtain ⟨place, hplace⟩ := List.mem_iff_getElem?.mp hin
    by_cases heq : index = place
    · rw [← heq, List.getElem?_modify_eq, hcall] at hplace
      rw [← Option.some.inj hplace] at hname
      exact h.fresh call (List.mem_of_getElem? hcall) name hname
    · rw [List.getElem?_modify_ne _ _ heq] at hplace
      exact h.fresh other (List.mem_of_getElem? hplace) name hname

theorem abort_pending (table : RpcCalls) (hnone : ∀ id, table.pending.get? id = none) (index : Nat)
    (reason : String) : ∀ id, (table.abort index reason).pending.get? id = none := by
  unfold RpcCalls.abort
  cases table.calls[index]? with
  | none => exact hnone
  | some call =>
    dsimp only
    split
    · exact hnone
    · split
      · split
        · intro id
          by_contra hsome
          obtain ⟨place, hplace⟩ := Option.ne_none_iff_exists'.mp hsome
          have hold := Dict.get?_of_erase hplace
          rw [hnone id] at hold
          cases hold
        · exact hnone
      · exact hnone

theorem Kept.abort (h : table.Kept failure handled) (index : Nat) (reason : String) :
    (table.abort index reason).Kept failure handled := by
  unfold RpcCalls.abort
  cases hcall : table.calls[index]? with
  | none => exact h
  | some call =>
    show RpcCalls.Kept failure handled (if call.signal ≠ some none then table else _)
    by_cases hsignal : call.signal = some none
    · rw [if_neg (not_not.mpr hsignal)]
      have hmarked := h.signalled hcall hsignal reason
      have hnew : ({ table with calls := table.calls.modify index fun call =>
          { call with signal := some (some reason) } } : RpcCalls).calls[index]? =
            some { call with signal := some (some reason) } := by
        show (table.calls.modify index _)[index]? = _
        rw [List.getElem?_modify_eq, hcall]
        rfl
      cases hid : call.id with
      | none => exact hmarked
      | some id =>
        show RpcCalls.Kept failure handled (if call.listening = true then _ else _)
        by_cases hlistening : call.listening = true
        · rw [if_pos hlistening]
          have hwaiting := (h.each call (List.mem_of_getElem? hcall)).listening hlistening
          have hkept := hmarked.each _ (List.mem_of_getElem? hnew)
          apply hmarked.settleAt hnew hid hwaiting
          · exact hkept.settle hwaiting (Or.inr (Or.inl ⟨reason, rfl, rfl⟩))
          · exact fun other hin _ => hmarked.each other hin
        · rw [if_neg hlistening]
          exact hmarked
    · rw [if_pos hsignal]
      exact h

theorem Kept.settled (h : table.Kept failure handled) (hnone : ∀ id, table.pending.get? id = none) :
    ∀ call ∈ table.calls, call.settlements ≠ [] := by
  intro call hin hwaiting
  obtain ⟨id, hid⟩ := Option.isSome_iff_exists.mp ((h.each call hin).named hwaiting)
  obtain ⟨index, hcall⟩ := List.mem_iff_getElem?.mp hin
  have hpending := (h.pending id index).mpr ⟨call, hcall, hid, hwaiting⟩
  rw [hnone id] at hpending
  cases hpending

theorem Kept.fail (h : table.Kept none handled) (error : RpcFailure) :
    (table.fail error).Kept (some error) handled := by
  have hcalls : ∀ (index : Nat) (call : RpcCall), (table.fail error).calls[index]? = some call →
      ∃ old : RpcCall, table.calls[index]? = some old ∧
        (old.settlements = [] ∧ call = old.settle (.failed error) ∨
          old.settlements ≠ [] ∧ call = old) := by
    intro index call hcall
    change (table.calls.mapIdx _)[index]? = some call at hcall
    rw [List.getElem?_mapIdx, Option.map_eq_some_iff] at hcall
    obtain ⟨old, hold, heq⟩ := hcall
    refine ⟨old, hold, ?_⟩
    have hpending : index ∈ table.pending.values ↔ old.settlements = [] := by
      constructor
      · intro hin
        obtain ⟨⟨id, place⟩, hentry, rfl⟩ := List.mem_map.mp hin
        obtain ⟨found, hfound, -, hwaiting⟩ := (h.pending id _).mp (Dict.get?_eq_some_iff.mpr hentry)
        rw [hold] at hfound
        rwa [Option.some.inj hfound]
      · intro hwaiting
        have hnamed := (h.each old (List.mem_of_getElem? hold)).named hwaiting
        obtain ⟨id, hid⟩ := Option.isSome_iff_exists.mp hnamed
        exact Dict.mem_values_of_get? ((h.pending id index).mpr ⟨old, hold, hid, hwaiting⟩)
    by_cases hwaiting : old.settlements = []
    · rw [if_pos (hpending.mpr hwaiting)] at heq
      exact Or.inl ⟨hwaiting, heq.symm⟩
    · rw [if_neg fun hin => hwaiting (hpending.mp hin)] at heq
      exact Or.inr ⟨hwaiting, heq.symm⟩
  have hsettled : ∀ call ∈ (table.fail error).calls, call.settlements ≠ [] := by
    intro call hin
    obtain ⟨index, hcall⟩ := List.mem_iff_getElem?.mp hin
    obtain ⟨old, -, ⟨-, rfl⟩ | ⟨hne, rfl⟩⟩ := hcalls index call hcall
    · exact List.append_ne_nil_of_right_ne_nil _ (List.cons_ne_nil _ _)
    · exact hne
  exact {
    each := by
      intro call hin
      obtain ⟨index, hcall⟩ := List.mem_iff_getElem?.mp hin
      obtain ⟨old, hold, ⟨hwaiting, rfl⟩ | ⟨-, rfl⟩⟩ := hcalls index call hcall
      · have hended := (h.each old (List.mem_of_getElem? hold)).ended error
        exact hended.settle hwaiting (Or.inr (Or.inr ⟨error, rfl, rfl⟩))
      · exact (h.each call (List.mem_of_getElem? hold)).ended error
    pending := by
      intro id index
      apply iff_of_false nofun
      rintro ⟨call, hcall, -, hwaiting⟩
      exact hsettled call (List.mem_of_getElem? hcall) hwaiting
    fresh := by
      intro call hin id hid
      obtain ⟨index, hcall⟩ := List.mem_iff_getElem?.mp hin
      obtain ⟨old, hold, ⟨-, rfl⟩ | ⟨-, rfl⟩⟩ := hcalls index call hcall
      · exact h.fresh old (List.mem_of_getElem? hold) id hid
      · exact h.fresh call (List.mem_of_getElem? hold) id hid }

/-! ## Settled for good -/

/-- No call is lost, and what settled it stays. -/
def Extends (table table' : RpcCalls) : Prop :=
  ∀ (index : Nat) (call : RpcCall), table.calls[index]? = some call →
    ∃ call', table'.calls[index]? = some call' ∧ call.settlements <+: call'.settlements

theorem Extends.refl (table : RpcCalls) : Extends table table :=
  fun _ call hcall => ⟨call, hcall, List.prefix_refl _⟩

theorem Extends.trans {table' table'' : RpcCalls} (h : Extends table table')
    (h' : Extends table' table'') : Extends table table'' := by
  intro index call hcall
  obtain ⟨call', hcall', hprefix⟩ := h index call hcall
  obtain ⟨call'', hcall'', hprefix'⟩ := h' index call' hcall'
  exact ⟨call'', hcall'', hprefix.trans hprefix'⟩

theorem Extends.append {table' : RpcCalls} {added : List RpcCall}
    (h : table'.calls = table.calls ++ added) : Extends table table' := by
  intro index call hcall
  have hlt := (List.getElem?_eq_some_iff.mp hcall).1
  refine ⟨call, ?_, List.prefix_refl _⟩
  rw [h, List.getElem?_append_left hlt, hcall]

theorem Extends.modify {table' : RpcCalls} {place : Nat} {change : RpcCall → RpcCall}
    (h : table'.calls = table.calls.modify place change)
    (hchange : ∀ call, call.settlements <+: (change call).settlements) :
    Extends table table' := by
  intro index call hcall
  rw [h]
  by_cases heq : place = index
  · rw [heq, List.getElem?_modify_eq, hcall]
    exact ⟨change call, rfl, hchange call⟩
  · rw [List.getElem?_modify_ne _ _ heq, hcall]
    exact ⟨call, rfl, List.prefix_refl _⟩

theorem extends_abort (table : RpcCalls) (index : Nat) (reason : String) :
    Extends table (table.abort index reason) := by
  unfold RpcCalls.abort
  cases table.calls[index]? with
  | none => exact Extends.refl table
  | some call =>
    dsimp only
    have hmarked : Extends table { table with calls := table.calls.modify index fun call =>
        { call with signal := some (some reason) } } :=
      Extends.modify rfl fun _ => List.prefix_refl _
    split
    · exact Extends.refl table
    · split
      · split
        · exact hmarked.trans (Extends.modify rfl fun _ => List.prefix_append _ _)
        · exact hmarked
      · exact hmarked

theorem extends_respond (table : RpcCalls) (id : Int) (message : RpcMessage) :
    Extends table (table.respond id message) := by
  unfold RpcCalls.respond
  split
  · exact Extends.refl table
  · exact Extends.modify rfl fun _ => List.prefix_append _ _

theorem extends_fail (table : RpcCalls) (error : RpcFailure) :
    Extends table (table.fail error) := by
  intro index call hcall
  show ∃ call', (table.calls.mapIdx _)[index]? = some call' ∧ _
  rw [List.getElem?_mapIdx, hcall]
  refine ⟨_, rfl, ?_⟩
  split
  · exact List.prefix_append _ _
  · exact List.prefix_refl _

end RpcCalls

end HarnessControl.Codex
