import HarnessControl.Library.EventLog

/-!
# Receiving a numbered log

A receiver takes the next entry of a log, recognizes those that it has, and refuses an entry that
leaves a gap or contradicts what it has.  Batches are taken entry by entry up to the first refusal.
The receiver never gets a hole; what comes from one log is always a first part of that log; and a
batch without holes that is refused has changed nothing.
-/

namespace HarnessControl.Library

inductive Reception (α : Type*) where
  | applied
  | duplicate (existing : α)
  | gap (expected : Nat)
  | conflict (existing : α)

namespace Reception

variable {α : Type*} {number : α → Nat} {same : α → α → Bool} {held : List α} {entry : α}

def refused : Reception α → Bool
  | .applied | .duplicate _ => false
  | .gap _ | .conflict _ => true

def accept (number : α → Nat) (same : α → α → Bool) (held : List α) (entry : α) :
    Reception α × List α :=
  match held.find? fun existing => number existing == number entry with
  | some existing =>
    (if same existing entry then .duplicate existing else .conflict existing, held)
  | none =>
    if number entry = held.length + 1 then (.applied, held ++ [entry])
    else (.gap (held.length + 1), held)

/-- The batch stops at the first refusal. -/
def acceptAll (number : α → Nat) (same : α → α → Bool) (held : List α) :
    List α → Option (Reception α) × List α
  | [] => (none, held)
  | entry :: rest =>
    match accept number same held entry with
    | (result, after) =>
      if result.refused then (some result, after) else acceptAll number same after rest

/-! ## One entry -/

theorem find?_number (h : Numbered number held) {k : Nat} (hk : k < held.length) :
    held.find? (fun existing => number existing == k + 1) = some held[k] := by
  rw [List.find?_eq_some_iff_getElem]
  refine ⟨by simpa using h.getElem hk, k, hk, rfl, ?_⟩
  intro j hj
  have hnumber := h.getElem (Nat.lt_trans hj hk)
  simp only [hnumber, Bool.not_eq_true', beq_eq_false_iff_ne]
  omega

theorem find?_cases (h : Numbered number held) (entry : α) :
    (∃ existing ∈ held, number existing = number entry ∧
      held.find? (fun other => number other == number entry) = some existing) ∨
    ((number entry = 0 ∨ held.length < number entry) ∧
      held.find? (fun other => number other == number entry) = none) := by
  cases hfind : held.find? (fun other => number other == number entry) with
  | some existing =>
    left
    have hnumber := List.find?_some hfind
    exact ⟨existing, List.mem_of_find?_eq_some hfind, by simpa using hnumber, rfl⟩
  | none =>
    right
    refine ⟨?_, rfl⟩
    by_contra hbetween
    have hk : number entry - 1 < held.length := by omega
    have hfound := find?_number h hk
    rw [Nat.sub_add_cancel (by omega), hfind] at hfound
    cases hfound

/-- An entry is the next one, is held, or is refused; only the next one changes what is held. -/
theorem accept_cases (same : α → α → Bool) (h : Numbered number held) (entry : α) :
    (accept number same held entry = (.applied, held ++ [entry]) ∧
      number entry = held.length + 1) ∨
    (∃ existing ∈ held, number existing = number entry ∧
      accept number same held entry =
        (if same existing entry then .duplicate existing else .conflict existing, held)) ∨
    (accept number same held entry = (.gap (held.length + 1), held) ∧
      (number entry = 0 ∨ held.length + 1 < number entry)) := by
  unfold accept
  rcases find?_cases h entry with ⟨existing, hmem, hnumber, hfind⟩ | ⟨habsent, hfind⟩
  · right; left
    exact ⟨existing, hmem, hnumber, by rw [hfind]⟩
  · rw [hfind]
    dsimp only
    split
    · rename_i hnext
      exact Or.inl ⟨rfl, hnext⟩
    · rename_i hnext
      right; right
      exact ⟨rfl, by omega⟩

theorem accept_next (h : Numbered number held) (hnext : number entry = held.length + 1) :
    accept number same held entry = (.applied, held ++ [entry]) := by
  rcases accept_cases same h entry with
    ⟨haccept, -⟩ | ⟨existing, hmem, hnumber, -⟩ | ⟨-, hgap⟩
  · exact haccept
  · have htake : existing ∈ held.take held.length := by
      rw [List.take_length]
      exact hmem
    have hle := h.le_of_mem_take htake
    omega
  · omega

theorem accept_numbered (h : Numbered number held) :
    Numbered number (accept number same held entry).2 := by
  rcases accept_cases same h entry with
    ⟨haccept, hnext⟩ | ⟨existing, -, -, haccept⟩ | ⟨haccept, -⟩
  · rw [haccept]
    exact h.concat hnext
  · rw [haccept]
    exact h
  · rw [haccept]
    exact h

theorem accept_refused (h : Numbered number held)
    (hrefused : (accept number same held entry).1.refused = true) :
    (accept number same held entry).2 = held := by
  rcases accept_cases same h entry with
    ⟨haccept, -⟩ | ⟨existing, -, -, haccept⟩ | ⟨haccept, -⟩
  · rw [haccept] at hrefused
    cases hrefused
  · rw [haccept]
  · rw [haccept]

variable {log : List α}

theorem accept_of_log (hlog : Numbered number log) (hheld : held <+: log)
    (hmem : entry ∈ log) (hsame : ∀ a, same a a = true) :
    accept number same held entry =
      if number entry ≤ held.length then (.duplicate entry, held)
      else if number entry = held.length + 1 then (.applied, held ++ [entry])
      else (.gap (held.length + 1), held) := by
  have h := hlog.of_prefix hheld
  rcases List.mem_iff_getElem.mp hmem with ⟨i, hi, hentry⟩
  have hnumber := hlog.getElem hi
  rw [hentry] at hnumber
  split
  · rename_i hle
    have hk : i < held.length := by omega
    have hget : held[i] = entry := by
      rw [← hentry]
      exact hheld.getElem hk
    have hfind := find?_number h hk
    unfold accept
    rw [hnumber, hfind]
    dsimp only
    rw [hget, hsame, if_pos rfl]
  · rename_i hbeyond
    rcases accept_cases same h entry with
      ⟨haccept, hnext⟩ | ⟨existing, hold, hsame', -⟩ | ⟨haccept, hgap⟩
    · rw [if_pos hnext]
      exact haccept
    · have htake : existing ∈ held.take held.length := by
        rw [List.take_length]
        exact hold
      have hle := h.le_of_mem_take htake
      omega
    · rw [if_neg (by omega)]
      exact haccept

theorem accept_prefix (hlog : Numbered number log) (hheld : held <+: log)
    (hmem : entry ∈ log) (hsame : ∀ a, same a a = true) :
    (accept number same held entry).2 <+: log := by
  rw [accept_of_log hlog hheld hmem hsame]
  split
  · exact hheld
  · split
    · rename_i hnext
      exact hlog.concat_prefix hheld hmem hnext
    · exact hheld

/-! ## Batches -/

theorem prefix_accept (h : Numbered number held) :
    held <+: (accept number same held entry).2 := by
  rcases accept_cases same h entry with
    ⟨haccept, -⟩ | ⟨existing, -, -, haccept⟩ | ⟨haccept, -⟩
  · rw [haccept]
    exact List.prefix_append _ _
  · exact haccept ▸ List.prefix_rfl
  · exact haccept ▸ List.prefix_rfl

theorem prefix_acceptAll (same : α → α → Bool) (entries : List α) (h : Numbered number held) :
    held <+: (acceptAll number same held entries).2 := by
  induction entries generalizing held with
  | nil => exact List.prefix_rfl
  | cons entry rest ih =>
    have hone : held <+: (accept number same held entry).2 := prefix_accept h
    have hnumbered : Numbered number (accept number same held entry).2 := accept_numbered h
    unfold acceptAll
    generalize accept number same held entry = accepted at hone hnumbered
    rcases accepted with ⟨result, after⟩
    dsimp only
    split
    · exact hone
    · exact hone.trans (ih hnumbered)

theorem accept_length (same : α → α → Bool) (h : Numbered number held) (entry : α) :
    (accept number same held entry).2 = held ∨
      held.length < (accept number same held entry).2.length := by
  rcases accept_cases same h entry with
    ⟨haccept, -⟩ | ⟨existing, -, -, haccept⟩ | ⟨haccept, -⟩
  · right
    rw [haccept, List.length_append, List.length_singleton]
    exact Nat.lt_succ_self _
  · rw [haccept]
    exact Or.inl rfl
  · rw [haccept]
    exact Or.inl rfl

theorem acceptAll_next (entries : List α) (h : Numbered number held)
    (hentries : entries.map number = List.range' (held.length + 1) entries.length) :
    acceptAll number same held entries = (none, held ++ entries) := by
  induction entries generalizing held with
  | nil => rw [List.append_nil]; rfl
  | cons entry rest ih =>
    rw [List.map_cons, List.length_cons, List.range'_succ] at hentries
    have hnext := (List.cons.inj hentries).1
    have hrest := (List.cons.inj hentries).2
    have hone : accept number same held entry = (.applied, held ++ [entry]) :=
      accept_next h hnext
    have hnumbered := h.concat hnext
    unfold acceptAll
    rw [hone]
    show acceptAll number same (held ++ [entry]) rest = (none, held ++ entry :: rest)
    rw [ih hnumbered (by rw [List.length_append, List.length_singleton]; exact hrest),
      List.append_assoc, List.singleton_append]

theorem acceptAll_refused {first : Nat} (entries : List α) (h : Numbered number held)
    (hentries : entries.map number = List.range' first entries.length) {result : Reception α}
    (hresult : (acceptAll number same held entries).1 = some result) :
    (acceptAll number same held entries).2 = held := by
  -- while entries are duplicates nothing changes; from the first applied one on all are applied
  induction entries generalizing first with
  | nil => rfl
  | cons entry rest ih =>
    have hall := hentries
    rw [List.map_cons, List.length_cons, List.range'_succ] at hentries
    rcases accept_cases same h entry with
      ⟨-, hnext⟩ | ⟨existing, -, -, haccept⟩ | ⟨haccept, -⟩
    · have hfirst : first = held.length + 1 := (List.cons.inj hentries).1.symm.trans hnext
      rw [acceptAll_next (entry :: rest) h (hfirst ▸ hall)] at hresult
      cases hresult
    · unfold acceptAll at hresult ⊢
      rw [haccept] at hresult ⊢
      by_cases hsame : same existing entry = true
      · rw [if_pos hsame] at hresult ⊢
        exact ih (List.cons.inj hentries).2 hresult
      · rw [if_neg hsame]
        rfl
    · unfold acceptAll
      rw [haccept]
      rfl

theorem acceptAll_prefix (entries : List α) (hlog : Numbered number log)
    (hheld : held <+: log) (hmem : ∀ entry ∈ entries, entry ∈ log)
    (hsame : ∀ a, same a a = true) : (acceptAll number same held entries).2 <+: log := by
  induction entries generalizing held with
  | nil => exact hheld
  | cons entry rest ih =>
    have hentry := hmem entry List.mem_cons_self
    have hone : (accept number same held entry).2 <+: log :=
      accept_prefix hlog hheld hentry hsame
    unfold acceptAll
    generalize accept number same held entry = accepted at hone
    rcases accepted with ⟨result, after⟩
    dsimp only
    split
    · exact hone
    · exact ih hone fun other hother => hmem other (List.mem_cons_of_mem _ hother)

theorem acceptAll_reached {start : Nat} (hlog : Numbered number log)
    (hheld : held <+: log) (hreached : start ≤ held.length) (hsame : ∀ a, same a a = true) :
    acceptAll number same held (log.drop start) = (none, log) := by
  -- induction on the duplicates that come first
  generalize hcount : held.length - start = count
  induction count generalizing start with
  | zero =>
    have hends : start = held.length := by omega
    have hnumbers : (log.drop start).map number =
        List.range' (held.length + 1) (log.drop start).length := by
      rw [List.map_drop, hlog, List.drop_range', List.length_drop, hends]
      congr 1
      omega
    rw [acceptAll_next _ (hlog.of_prefix hheld) hnumbers, hends,
      List.prefix_iff_eq_append.mp hheld]
  | succ count ih =>
    have hlength := hheld.length_le
    have hstart : start < log.length := by omega
    rw [List.drop_eq_getElem_cons hstart]
    have hnumber := hlog.getElem hstart
    have hone := accept_of_log hlog hheld (List.getElem_mem hstart) hsame
    rw [if_pos (by omega)] at hone
    unfold acceptAll
    rw [hone]
    exact ih (by omega) (by omega)

theorem acceptAll_beyond {start : Nat} (hlog : Numbered number log)
    (hheld : held <+: log) (hbeyond : held.length < start) (hstart : start < log.length)
    (hsame : ∀ a, same a a = true) :
    acceptAll number same held (log.drop start) = (some (.gap (held.length + 1)), held) := by
  rw [List.drop_eq_getElem_cons hstart]
  have hnumber := hlog.getElem hstart
  have hone := accept_of_log hlog hheld (List.getElem_mem hstart) hsame
  rw [if_neg (by omega), if_neg (by omega)] at hone
  unfold acceptAll
  rw [hone]
  rfl

end Reception

end HarnessControl.Library
