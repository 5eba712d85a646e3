import HarnessControl.Library.Dict

/-!
# Validating schemas

A schema parses a value: it refuses it, or returns the value as it is kept, which may have lost
parts of the input.  What every schema here shares is that parsing is idempotent: a value that was
kept is accepted again and kept unchanged.  A writer that stores parsed values can therefore always
be read back.
-/

namespace HarnessControl.Library

/-- A parser of `α` whose results parse to themselves. -/
structure Schema (α : Type*) where
  parse : α → Option α
  parse_parsed : ∀ {x y : α}, parse x = some y → parse y = some y

namespace Schema

variable {α κ : Type*}

/-- The value is accepted and kept as it is. -/
def Fixed (s : Schema α) (x : α) : Prop := s.parse x = some x

instance [DecidableEq α] (s : Schema α) (x : α) : Decidable (s.Fixed x) :=
  inferInstanceAs (Decidable (s.parse x = some x))

variable {s : Schema α}

theorem Fixed.of_parse {x y : α} (h : s.parse x = some y) : s.Fixed y :=
  s.parse_parsed h

/-- Keep `keep x` of the input, and refuse it where `p` rejects what is kept. -/
def normalized (keep : α → α) (keep_keep : ∀ x, keep (keep x) = keep x) (p : α → Bool) :
    Schema α where
  parse x := if p (keep x) then some (keep x) else none
  parse_parsed := by
    intro x y h
    split at h
    · rename_i hp
      cases h
      rw [keep_keep, if_pos hp]
    · cases h

variable {p : α → Bool}

theorem normalized_parse {keep : α → α} {keep_keep : ∀ x, keep (keep x) = keep x}
    {x y : α} (h : (normalized keep keep_keep p).parse x = some y) : y = keep x ∧ p y = true := by
  simp only [normalized] at h
  split at h
  · rename_i hp
    cases h
    exact ⟨rfl, hp⟩
  · cases h

theorem normalized_fixed {keep : α → α} {keep_keep : ∀ x, keep (keep x) = keep x}
    {x : α} : (normalized keep keep_keep p).Fixed x ↔ keep x = x ∧ p x = true := by
  constructor
  · intro h
    have hx := normalized_parse h
    exact ⟨hx.1.symm, hx.2⟩
  · rintro ⟨hk, hp⟩
    change (if p (keep x) then some (keep x) else none) = some x
    rw [hk, if_pos hp]

/-- Accept what satisfies `p`, and keep all of it. -/
def refine (p : α → Bool) : Schema α := normalized id (fun _ => rfl) p

theorem refine_parse {x y : α} (h : (refine p).parse x = some y) :
    y = x ∧ p x = true := by
  have hx := normalized_parse h
  rw [hx.1] at hx
  exact ⟨(normalized_parse h).1, hx.2⟩

theorem refine_fixed {x : α} : (refine p).Fixed x ↔ p x = true := by
  rw [refine, normalized_fixed]
  exact ⟨And.right, fun hp => ⟨rfl, hp⟩⟩

/-! ## Lists -/

def parseList (s : Schema α) : List α → Option (List α)
  | [] => some []
  | x :: rest => (s.parse x).bind fun y => (s.parseList rest).map (y :: ·)

theorem parseList_cons {x : α} {rest l : List α}
    (h : s.parseList (x :: rest) = some l) :
    ∃ y ys, s.parse x = some y ∧ s.parseList rest = some ys ∧ l = y :: ys := by
  simp only [parseList, Option.bind_eq_some_iff, Option.map_eq_some_iff] at h
  rcases h with ⟨y, hy, ys, hys, rfl⟩
  exact ⟨y, ys, hy, hys, rfl⟩

theorem parseList_parsed (s : Schema α) {l m : List α} (h : s.parseList l = some m) :
    s.parseList m = some m := by
  induction l generalizing m with
  | nil => cases h; rfl
  | cons x rest ih =>
    rcases parseList_cons h with ⟨y, ys, hy, hys, rfl⟩
    simp only [parseList, s.parse_parsed hy, ih hys, Option.bind_some, Option.map_some]

def list (s : Schema α) : Schema (List α) where
  parse := s.parseList
  parse_parsed := s.parseList_parsed

theorem refineList_parse {l m : List α} (h : (refine p).list.parse l = some m) :
    m = l := by
  induction l generalizing m with
  | nil => cases h; rfl
  | cons x rest ih =>
    rcases parseList_cons h with ⟨y, ys, hy, hys, rfl⟩
    rw [(refine_parse hy).1, ih hys]

theorem parseList_fixed {l : List α} :
    s.parseList l = some l ↔ ∀ x ∈ l, s.Fixed x := by
  induction l with
  | nil => simp [parseList]
  | cons x rest ih =>
    rw [List.forall_mem_cons, ← ih]
    constructor
    · intro h
      rcases parseList_cons h with ⟨y, ys, hy, hys, heq⟩
      rw [List.cons.injEq] at heq
      rcases heq with ⟨rfl, rfl⟩
      exact ⟨hy, hys⟩
    · rintro ⟨hx, hrest⟩
      simp only [parseList, hrest]
      rw [show s.parse x = some x from hx]
      rfl

/-! ## Dictionaries -/

/-- Parse the values, skipping the entries whose key is not `kept`. -/
def parseEntries (s : Schema α) (kept : κ → Bool) : List (κ × α) → Option (List (κ × α))
  | [] => some []
  | (k, x) :: rest =>
    if kept k then (s.parse x).bind fun y => (s.parseEntries kept rest).map ((k, y) :: ·)
    else s.parseEntries kept rest

variable {kept : κ → Bool}

theorem parseEntries_keys {l m : List (κ × α)}
    (h : s.parseEntries kept l = some m) : m.map Prod.fst = (l.map Prod.fst).filter kept := by
  induction l generalizing m with
  | nil => cases h; rfl
  | cons e rest ih =>
    rcases e with ⟨k, x⟩
    by_cases hk : kept k
    · simp only [parseEntries, if_pos hk, Option.bind_eq_some_iff, Option.map_eq_some_iff] at h
      rcases h with ⟨y, -, ys, hys, rfl⟩
      simp only [List.map_cons, List.filter_cons, if_pos hk, ih hys]
    · simp only [parseEntries, if_neg hk] at h
      simp only [List.map_cons, List.filter_cons, if_neg hk, ih h]

theorem parseEntries_parsed (s : Schema α) (kept : κ → Bool) {l m : List (κ × α)}
    (h : s.parseEntries kept l = some m) : s.parseEntries kept m = some m := by
  induction l generalizing m with
  | nil => cases h; rfl
  | cons e rest ih =>
    rcases e with ⟨k, x⟩
    by_cases hk : kept k
    · simp only [parseEntries, if_pos hk, Option.bind_eq_some_iff, Option.map_eq_some_iff] at h
      rcases h with ⟨y, hy, ys, hys, rfl⟩
      simp only [parseEntries, if_pos hk, s.parse_parsed hy, ih hys, Option.bind_some,
        Option.map_some]
    · simp only [parseEntries, if_neg hk] at h
      exact ih h

theorem parseEntries_fixed {l : List (κ × α)}
    (h : ∀ e ∈ l, kept e.1 = true ∧ s.Fixed e.2) : s.parseEntries kept l = some l := by
  induction l with
  | nil => rfl
  | cons e rest ih =>
    rcases e with ⟨k, x⟩
    rw [List.forall_mem_cons] at h
    have hx : s.parse x = some x := h.1.2
    simp only [parseEntries, if_pos h.1.1, ih h.2, hx, Option.bind_some, Option.map_some]

theorem parseEntries_nodup {l m : List (κ × α)}
    (hl : (l.map Prod.fst).Nodup) (h : s.parseEntries kept l = some m) :
    (m.map Prod.fst).Nodup := by
  rw [parseEntries_keys h]
  exact hl.filter kept

def parseDict (s : Schema α) (kept : κ → Bool) (d : Dict κ α) : Option (Dict κ α) :=
  match h : s.parseEntries kept d.entries with
  | some entries => some ⟨entries, parseEntries_nodup d.nodup h⟩
  | none => none

theorem parseDict_eq_some {d e : Dict κ α} :
    s.parseDict kept d = some e ↔ s.parseEntries kept d.entries = some e.entries := by
  unfold parseDict
  split
  · rename_i entries h
    constructor
    · intro he
      cases he
      exact h
    · intro he
      exact congrArg some (Dict.ext (Option.some.inj (h.symm.trans he)))
  · rename_i h
    simp [h]

/-- A dictionary of parsed values; entries whose key is not `kept` are lost. -/
def dict (s : Schema α) (kept : κ → Bool) : Schema (Dict κ α) where
  parse := s.parseDict kept
  parse_parsed := by
    intro x y h
    rw [parseDict_eq_some] at h ⊢
    exact s.parseEntries_parsed kept h

theorem dict_fixed [DecidableEq κ] {s : Schema α} {kept : κ → Bool} {d : Dict κ α}
    (h : ∀ k x, d.get? k = some x → kept k = true ∧ s.Fixed x) : (s.dict kept).Fixed d := by
  refine parseDict_eq_some.mpr (parseEntries_fixed ?_)
  rintro ⟨k, x⟩ he
  exact h k x (Dict.get?_eq_some_iff.mpr he)

theorem parseDict_get? [DecidableEq κ] {s : Schema α} {kept : κ → Bool} {d e : Dict κ α}
    (h : s.parseDict kept d = some e) {k : κ} (hk : kept k = true) :
    e.get? k = (d.get? k).bind s.parse := by
  rw [parseDict_eq_some] at h
  unfold Dict.get?
  revert h
  generalize d.entries = l
  generalize e.entries = m
  intro h
  induction l generalizing m with
  | nil => cases h; rfl
  | cons p rest ih =>
    rcases p with ⟨j, x⟩
    by_cases hj : kept j
    · simp only [parseEntries, if_pos hj, Option.bind_eq_some_iff, Option.map_eq_some_iff] at h
      rcases h with ⟨y, hy, ys, hys, rfl⟩
      by_cases hjk : j = k
      · simp only [Dict.find, if_pos hjk, Option.bind_some, hy]
      · simp only [Dict.find, if_neg hjk, ih ys hys]
    · simp only [parseEntries, if_neg hj] at h
      have hjk : j ≠ k := fun he => hj (he ▸ hk)
      simp only [Dict.find, if_neg hjk, ih m h]

theorem parseDict_keys {d e : Dict κ α}
    (h : s.parseDict kept d = some e) : e.keys = d.keys.filter kept :=
  parseEntries_keys (parseDict_eq_some.mp h)

theorem parseDict_get?_some [DecidableEq κ] {s : Schema α} {kept : κ → Bool} {d e : Dict κ α}
    (h : s.parseDict kept d = some e) {k : κ} (hk : kept k = true) {x : α}
    (hx : d.get? k = some x) : ∃ y, s.parse x = some y ∧ e.get? k = some y := by
  have hget := parseDict_get? h hk
  rw [hx, Option.bind_some] at hget
  have hmem : k ∈ e.keys := by
    rw [parseDict_keys h, List.mem_filter]
    exact ⟨Dict.isSome_get?_iff.mp (by rw [hx]; rfl), hk⟩
  rcases Option.isSome_iff_exists.mp (Dict.isSome_get?_iff.mpr hmem) with ⟨y, hy⟩
  exact ⟨y, hget ▸ hy, hy⟩

theorem parseDict_get?_none [DecidableEq κ] {s : Schema α} {kept : κ → Bool} {d e : Dict κ α}
    (h : s.parseDict kept d = some e) {k : κ} (hk : kept k = false) : e.get? k = none := by
  rw [Dict.get?_eq_none_iff, parseDict_keys h, List.mem_filter]
  rintro ⟨-, hkept⟩
  rw [hk] at hkept
  cases hkept

theorem parseDict_found [DecidableEq κ] {s : Schema α} {kept : κ → Bool} {d e : Dict κ α}
    (h : s.parseDict kept d = some e) {k : κ} {y : α} (hy : e.get? k = some y) :
    ∃ x, d.get? k = some x ∧ s.parse x = some y := by
  cases hk : kept k with
  | false =>
    rw [parseDict_get?_none h hk] at hy
    cases hy
  | true =>
    rw [parseDict_get? h hk] at hy
    exact Option.bind_eq_some_iff.mp hy

end Schema

end HarnessControl.Library
