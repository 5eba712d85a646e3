import HarnessControl.Library.Evidence
import Mathlib.Data.List.Induction
import Mathlib.Logic.Relation

/-!
# Versions of named records

A history lists versions of records, the oldest first; every version belongs to a name.  A version
may follow the latest one of its name, and it may name a parent that came before it.  Where the
versions of one name follow each other transitively, it is enough to look at the latest; where
every parent came before, no name is its own ancestor.
-/

namespace HarnessControl.Library

variable {α ι : Type*} [DecidableEq ι] (name : α → ι)

/-- The last version of the name. -/
def latest (history : List α) (id : ι) : Option α :=
  (history.filter fun version => name version = id).getLast?

@[simp] theorem latest_nil (id : ι) : latest name [] id = none := rfl

theorem latest_concat (history : List α) (version : α) (id : ι) :
    latest name (history ++ [version]) id =
      if name version = id then some version else latest name history id := by
  unfold latest
  rw [List.filter_append]
  by_cases h : name version = id
  · rw [if_pos h, List.filter_cons_of_pos (by simpa using h), List.filter_nil]
    exact List.getLast?_concat
  · rw [if_neg h, List.filter_cons_of_neg (by simpa using h), List.filter_nil, List.append_nil]

variable {name}

theorem latest_mem {history : List α} {id : ι} {version : α}
    (h : latest name history id = some version) : version ∈ history ∧ name version = id := by
  have hmem := List.mem_of_getLast? h
  rw [List.mem_filter] at hmem
  exact ⟨hmem.1, by simpa using hmem.2⟩

/-! ## Versions that follow each other -/

/-- Every version follows the earlier ones of its name. -/
def Versioned (name : α → ι) (follows : α → α → Prop) (history : List α) : Prop :=
  history.Pairwise fun old new => name old = name new → follows old new

variable {follows : α → α → Prop}

theorem Versioned.latest {history : List α}
    (h : Versioned name follows history) {version : α} (hmem : version ∈ history) :
    ∃ last, Library.latest name history (name version) = some last ∧
      (version = last ∨ follows version last) := by
  induction history using List.reverseRecOn with
  | nil => cases hmem
  | append_singleton earlier new ih =>
    rcases List.pairwise_append.mp h with ⟨hearlier, -, hnew⟩
    rw [latest_concat]
    by_cases hname : name new = name version
    · rw [if_pos hname]
      refine ⟨new, rfl, ?_⟩
      rcases List.mem_append.mp hmem with hold | hlast
      · exact Or.inr (hnew version hold new (List.mem_singleton_self new) hname.symm)
      · exact Or.inl (List.mem_singleton.mp hlast)
    · rw [if_neg hname]
      rcases List.mem_append.mp hmem with hold | hlast
      · exact ih hearlier hold
      · exact absurd (congrArg name (List.mem_singleton.mp hlast)).symm hname

theorem Versioned.concat
    (htrans : ∀ a b c, follows a b → follows b c → follows a c) {history : List α} {version : α}
    (h : Versioned name follows history)
    (hlatest : ∀ last, Library.latest name history (name version) = some last →
      follows last version) : Versioned name follows (history ++ [version]) := by
  refine List.pairwise_append.mpr ⟨h, List.pairwise_singleton _ _, fun old hold new hnew hname => ?_⟩
  rw [List.mem_singleton] at hnew
  subst hnew
  rcases h.latest hold with ⟨last, hlast, hcase⟩
  rw [hname] at hlast
  rcases hcase with rfl | hfollows
  · exact hlatest old hlast
  · exact htrans old last new hfollows (hlatest last hlast)

omit [DecidableEq ι] in
theorem Versioned.related {history : List α}
    (h : Versioned name follows history) {a b : α} (ha : a ∈ history) (hb : b ∈ history)
    (hname : name a = name b) : a = b ∨ follows a b ∨ follows b a := by
  induction history with
  | nil => cases ha
  | cons first rest ih =>
    rcases List.pairwise_cons.mp h with ⟨hfirst, hrest⟩
    rcases List.mem_cons.mp ha with hfa | ha' <;> rcases List.mem_cons.mp hb with hfb | hb'
    · exact Or.inl (hfa.trans hfb.symm)
    · exact Or.inr (Or.inl (hfa ▸ hfirst b hb' (hfa ▸ hname)))
    · exact Or.inr (Or.inr (hfb ▸ hfirst a ha' (hfb ▸ hname.symm)))
    · exact ih hrest ha' hb'

/-! ## Parents -/

/-- Some version of the child names the parent. -/
def ParentIn (name : α → ι) (parent : α → Option ι) (history : List α) (child up : ι) : Prop :=
  ∃ version ∈ history, name version = child ∧ parent version = some up

/-- The parent of every version had a version before it. -/
def ParentsKnown (name : α → ι) (parent : α → Option ι) (history : List α) : Prop :=
  Throughout (fun earlier version => ∀ up ∈ parent version, up ∈ earlier.map name) history

section Parents

variable {parent : α → Option ι} {history : List α}

omit [DecidableEq ι] in
theorem ParentsKnown.known (h : ParentsKnown name parent history) {version : α}
    (hmem : version ∈ history) : ∀ up ∈ parent version, up ∈ history.map name := by
  intro up hup
  rcases List.getElem?_of_mem hmem with ⟨i, hi⟩
  have hearlier := h i version hi up hup
  rw [List.map_take] at hearlier
  exact List.mem_of_mem_take hearlier

theorem ParentsKnown.first_lt (hknown : ParentsKnown name parent history)
    (hsame : ∀ a ∈ history, ∀ b ∈ history, name a = name b → parent a = parent b) {child up : ι}
    (h : ParentIn name parent history child up) :
    (history.map name).idxOf up < (history.map name).idxOf child := by
  rcases h with ⟨version, hmem, rfl, hup⟩
  have hlt : (history.map name).idxOf (name version) < (history.map name).length :=
    List.idxOf_lt_length_iff.mpr (List.mem_map_of_mem hmem)
  generalize hi : (history.map name).idxOf (name version) = i at hlt ⊢
  rw [List.length_map] at hlt
  have hname : name history[i] = name version := by
    have hbound : (history.map name).idxOf (name version) < (history.map name).length := by
      rw [hi, List.length_map]
      exact hlt
    have hget := List.getElem_idxOf hbound
    rw [List.getElem_map] at hget
    simpa only [hi] using hget
  have hparent : parent history[i] = some up := by
    rw [hsame _ (List.getElem_mem hlt) _ hmem hname]
    exact hup
  have hearlier := hknown i history[i] (List.getElem?_eq_getElem hlt) up hparent
  rw [List.map_take] at hearlier
  have hsplit : history.map name = (history.map name).take i ++ (history.map name).drop i :=
    (List.take_append_drop i _).symm
  rw [hsplit, List.idxOf_append_of_mem hearlier]
  have hle : ((history.map name).take i).length ≤ i := by
    rw [List.length_take]
    exact Nat.min_le_left _ _
  exact Nat.lt_of_lt_of_le (List.idxOf_lt_length_iff.mpr hearlier) hle

theorem ParentsKnown.acyclic (hknown : ParentsKnown name parent history)
    (hsame : ∀ a ∈ history, ∀ b ∈ history, name a = name b → parent a = parent b) (id : ι) :
    ¬Relation.TransGen (ParentIn name parent history) id id := by
  have hlt : ∀ child up, Relation.TransGen (ParentIn name parent history) child up →
      (history.map name).idxOf up < (history.map name).idxOf child := by
    intro child up hreach
    induction hreach with
    | single hstep => exact hknown.first_lt hsame hstep
    | tail _ hstep ih => exact Nat.lt_trans (hknown.first_lt hsame hstep) ih
  intro hcycle
  exact Nat.lt_irrefl _ (hlt id id hcycle)

end Parents

end HarnessControl.Library
