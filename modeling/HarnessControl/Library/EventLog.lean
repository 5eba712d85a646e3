import Mathlib.Data.List.DropRight
import Mathlib.Data.List.Induction

/-!
# Numbered logs and their retained windows

The entries of a log are numbered 1, 2, 3, ... in the order in which they were committed, and a
store retains the last `n` of them.  A reader asks for what came after a number it has seen.
-/

namespace HarnessControl.Library

variable {α : Type*} {number : α → Nat}

/-- The entries carry the numbers 1, 2, 3, ... -/
def Numbered (number : α → Nat) (log : List α) : Prop :=
  log.map number = List.range' 1 log.length

instance (log : List α) : Decidable (Numbered number log) :=
  inferInstanceAs (Decidable (_ = _))

theorem Numbered.nil : Numbered number [] := rfl

variable {log : List α}

theorem Numbered.concat {e : α} (h : Numbered number log)
    (he : number e = log.length + 1) : Numbered number (log ++ [e]) := by
  unfold Numbered at h ⊢
  rw [List.map_append, h, List.length_append, List.length_singleton, List.range'_concat]
  simp only [List.map_cons, List.map_nil, he, Nat.one_mul, Nat.add_comm]

theorem Numbered.getElem (h : Numbered number log) {i : Nat}
    (hi : i < log.length) : number log[i] = i + 1 := by
  have hget : (log.map number)[i]? = (List.range' 1 log.length)[i]? := by rw [h]
  rw [List.getElem?_map, List.getElem?_eq_getElem hi, List.getElem?_range' hi] at hget
  have heq := Option.some.inj hget
  omega

theorem Numbered.le_of_mem_take (h : Numbered number log) {k : Nat} {e : α}
    (he : e ∈ log.take k) : number e ≤ k := by
  rcases List.mem_iff_getElem.mp he with ⟨i, hi, rfl⟩
  rw [List.getElem_take]
  have hlen : i < log.length := by
    rw [List.length_take] at hi
    omega
  rw [h.getElem hlen]
  rw [List.length_take] at hi
  omega

theorem Numbered.lt_of_mem_drop (h : Numbered number log) {k : Nat} {e : α}
    (he : e ∈ log.drop k) : k < number e := by
  rcases List.mem_iff_getElem.mp he with ⟨i, hi, rfl⟩
  rw [List.length_drop] at hi
  have hlen : k + i < log.length := by omega
  rw [List.getElem_drop, h.getElem hlen]
  omega

/-! ## First parts -/

theorem Numbered.of_prefix {log held : List α} (h : Numbered number log) (hheld : held <+: log) :
    Numbered number held := by
  unfold Numbered at h ⊢
  have hlength := hheld.length_le
  rw [List.prefix_iff_eq_take.mp hheld, List.map_take, h, List.length_take,
    List.take_range'_of_length_ge (by omega), Nat.min_eq_left hlength]

theorem Numbered.concat_prefix {log held : List α} {e : α} (h : Numbered number log)
    (hheld : held <+: log) (he : e ∈ log) (hnext : number e = held.length + 1) :
    held ++ [e] <+: log := by
  rcases List.mem_iff_getElem.mp he with ⟨i, hi, rfl⟩
  have hnumber := h.getElem hi
  have hplace : held.length = i := by omega
  refine ⟨log.drop (i + 1), ?_⟩
  rw [List.append_assoc, List.singleton_append, List.getElem_cons_drop, ← hplace]
  have htake := List.prefix_iff_eq_take.mp hheld
  rw [htake, List.length_take, Nat.min_eq_left hheld.length_le]
  exact List.take_append_drop _ _

theorem Numbered.prefix_of_mem {log entries : List α} (h : Numbered number log)
    (hentries : Numbered number entries) (hmem : ∀ e ∈ entries, e ∈ log) : entries <+: log := by
  induction entries using List.reverseRecOn with
  | nil => exact List.nil_prefix
  | append_singleton before e ih =>
    have hbefore := hentries.of_prefix (List.prefix_append before [e])
    have hlast := hentries.getElem (show before.length < (before ++ [e]).length by simp)
    rw [List.getElem_concat_length rfl] at hlast
    have hprefix := ih hbefore fun other hother => hmem other (List.mem_append_left _ hother)
    exact h.concat_prefix hprefix (hmem e (by simp)) hlast

/-! ## Windows -/

theorem length_rtake (log : List α) (n : Nat) : (log.rtake n).length = min n log.length := by
  unfold List.rtake
  rw [List.length_drop]
  omega

theorem rtake_rtake_concat (log : List α) (e : α) {n : Nat} (hn : 0 < n) :
    (log.rtake n ++ [e]).rtake n = (log ++ [e]).rtake n := by
  rcases Nat.exists_eq_succ_of_ne_zero (Nat.pos_iff_ne_zero.mp hn) with ⟨m, rfl⟩
  rw [List.rtake_concat_succ, List.rtake_concat_succ]
  congr 1
  unfold List.rtake
  rw [List.drop_drop, List.length_drop]
  congr 1
  omega

theorem Numbered.map_rtake (h : Numbered number log) (n : Nat) :
    (log.rtake n).map number =
      List.range' (log.length - n + 1) (log.rtake n).length := by
  unfold List.rtake
  rw [List.map_drop, h, List.drop_range', List.length_drop]
  congr 1
  omega

theorem Numbered.head?_rtake (h : Numbered number log) {n : Nat} {e : α}
    (he : (log.rtake n).head? = some e) : number e = log.length - n + 1 := by
  have hmap := h.map_rtake n
  cases hl : log.rtake n with
  | nil => rw [hl] at he; cases he
  | cons first rest =>
    rw [hl] at he hmap
    cases he
    rw [List.map_cons, List.length_cons, List.range'_succ] at hmap
    exact (List.cons.inj hmap).1

theorem Numbered.getLast?_rtake (h : Numbered number log) {n : Nat} {e : α}
    (he : (log.rtake n).getLast? = some e) : number e = log.length := by
  have hsuffix : log.getLast? = some e := by
    unfold List.rtake at he
    rw [List.getLast?_drop] at he
    split at he
    · cases he
    · exact he
  have hpos : log ≠ [] := by
    rintro rfl
    cases hsuffix
  have hlen := List.length_pos_of_ne_nil hpos
  rw [List.getLast?_eq_getElem?, List.getElem?_eq_some_iff] at hsuffix
  rcases hsuffix with ⟨hlt, rfl⟩
  rw [h.getElem hlt]
  omega

theorem rtake_eq_nil {n : Nat} (hn : 0 < n) (h : log.rtake n = []) : log = [] := by
  have hlen := congrArg List.length h
  rw [length_rtake, List.length_nil] at hlen
  exact List.eq_nil_of_length_eq_zero (by omega)

theorem Numbered.filter_rtake (h : Numbered number log) {n : Nat} {c : Int}
    (hc : ((log.length - n : Nat) : Int) ≤ c) :
    (log.rtake n).filter (fun e => decide (c < number e)) =
      log.filter fun e => decide (c < number e) := by
  unfold List.rtake
  have hsplit : (log.take (log.length - n)).filter (fun e => decide (c < number e)) = [] := by
    apply List.filter_eq_nil_iff.mpr
    intro e he hlt
    have hle := h.le_of_mem_take he
    have hlt' : c < (number e : Int) := of_decide_eq_true hlt
    omega
  calc (log.drop (log.length - n)).filter (fun e => decide (c < number e))
      = (log.take (log.length - n)).filter (fun e => decide (c < number e)) ++
          (log.drop (log.length - n)).filter (fun e => decide (c < number e)) := by
        rw [hsplit, List.nil_append]
    _ = log.filter fun e => decide (c < number e) := by
        rw [← List.filter_append, List.take_append_drop]

end HarnessControl.Library
