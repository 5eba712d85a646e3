import HarnessControl.Library.EventLog

/-!
# Sending a numbered log through a watermark

A sender is offered entries of a log, in any order and more than once.  It drops what is not above
the highest number that it has sent, and sends the rest.  The log after a base is sent without a
gap as long as every entry that passes the watermark is the next one.
-/

namespace HarnessControl.Library

structure Outbox (α : Type*) where
  watermark : Nat
  sent : List α

namespace Outbox

variable {α : Type*} {number : α → Nat} {log : List α} {base : Nat} {o : Outbox α}

def offer (number : α → Nat) (o : Outbox α) (entry : α) : Outbox α :=
  if number entry ≤ o.watermark then o else ⟨number entry, o.sent ++ [entry]⟩

/-- The log after the base is sent in order; before the first entry the watermark is not above. -/
structure Following (log : List α) (base : Nat) (o : Outbox α) : Prop where
  within : base ≤ log.length
  sent : o.sent <+: log.drop base
  unsent : o.sent = [] → o.watermark ≤ base
  upTo : o.sent ≠ [] → o.watermark = base + o.sent.length

/-- What of the log is still to be sent. -/
def rest (log : List α) (base : Nat) (o : Outbox α) : List α := log.drop (base + o.sent.length)

theorem Following.length_le (h : Following log base o) : base + o.sent.length ≤ log.length := by
  have hlength := h.sent.length_le
  have hbase := h.within
  rw [List.length_drop] at hlength
  omega

theorem Following.watermark_le (h : Following log base o) :
    o.watermark ≤ base + o.sent.length := by
  by_cases hnil : o.sent = []
  · have hle := h.unsent hnil
    omega
  · have heq := h.upTo hnil
    omega

theorem Following.sent_append_rest (h : Following log base o) :
    o.sent ++ rest log base o = log.drop base := by
  rcases h.sent with ⟨tail, htail⟩
  unfold rest
  rw [← List.drop_drop, ← htail, List.drop_left]

theorem Following.complete (h : Following log base o) (hrest : rest log base o = []) :
    o.sent = log.drop base := by
  have hall := h.sent_append_rest
  rw [hrest, List.append_nil] at hall
  exact hall

theorem Following.numbers (h : Following log base o) (hnumbered : Numbered number log) :
    o.sent.map number = List.range' (base + 1) o.sent.length := by
  have hlength := h.length_le
  have htake : o.sent.map number =
      ((log.drop base).map number).take o.sent.length := by
    rw [← List.map_take, ← List.prefix_iff_eq_take.mp h.sent]
  rw [htake, List.map_drop, hnumbered, List.drop_range', Nat.mul_one, Nat.add_comm 1 base]
  exact List.take_range'_of_length_ge (by omega)

theorem Following.append (h : Following log base o) (more : List α) :
    Following (log ++ more) base o where
  within := by
    have hbase := h.within
    rw [List.length_append]
    omega
  sent := by
    rw [List.drop_append_of_le_length h.within]
    exact h.sent.trans (List.prefix_append _ _)
  unsent := h.unsent
  upTo := h.upTo

theorem Following.rest_append (h : Following log base o) (more : List α) :
    rest (log ++ more) base o = rest log base o ++ more := by
  unfold rest
  rw [List.drop_append_of_le_length h.length_le]

theorem Following.dropped (h : Following log base o) (hnumbered : Numbered number log) {entry : α}
    (hdropped : number entry ≤ o.watermark) : entry ∉ rest log base o := by
  intro hmem
  have hlater := hnumbered.lt_of_mem_drop hmem
  have hle := h.watermark_le
  omega

theorem Following.next (h : Following log base o) (hnumbered : Numbered number log) {entry : α}
    (hmem : entry ∈ log) (hnext : number entry = base + o.sent.length + 1) :
    Following log base ⟨number entry, o.sent ++ [entry]⟩ := by
  rcases List.mem_iff_getElem.mp hmem with ⟨i, hi, rfl⟩
  have hnumber := hnumbered.getElem hi
  have hindex : i = base + o.sent.length := by omega
  constructor
  · exact h.within
  · have hall := h.sent_append_rest
    unfold rest at hall
    rw [← hindex, List.drop_eq_getElem_cons hi] at hall
    refine ⟨log.drop (i + 1), ?_⟩
    rw [List.append_assoc, List.singleton_append]
    exact hall
  · intro hnil
    exact absurd hnil (by simp)
  · intro _
    show number log[i] = base + (o.sent ++ [log[i]]).length
    rw [List.length_append, List.length_singleton]
    omega

theorem Following.offer (h : Following log base o) (hnumbered : Numbered number log) {entry : α}
    (hmem : entry ∈ log)
    (hnext : o.watermark < number entry → number entry = base + o.sent.length + 1) :
    Following log base (o.offer number entry) := by
  unfold Outbox.offer
  split
  · exact h
  · rename_i hpassed
    exact h.next hnumbered hmem (hnext (by omega))

theorem Following.mem_rest (h : Following log base o) (hnumbered : Numbered number log)
    {entry other : α} (hmem : entry ∈ log)
    (hnext : o.watermark < number entry → number entry = base + o.sent.length + 1)
    (hother : other ∈ rest log base (o.offer number entry)) :
    other ∈ rest log base o ∧ other ≠ entry := by
  unfold Outbox.offer at hother
  split at hother
  · rename_i hdropped
    refine ⟨hother, ?_⟩
    rintro rfl
    exact h.dropped hnumbered hdropped hother
  · rename_i hpassed
    have hnumber := hnext (by omega)
    have hlater := hnumbered.lt_of_mem_drop hother
    rw [List.length_append, List.length_singleton] at hlater
    constructor
    · unfold rest at hother ⊢
      rw [List.length_append, List.length_singleton, ← Nat.add_assoc, ← List.drop_drop] at hother
      exact List.mem_of_mem_drop hother
    · rintro rfl
      omega

/-- Offering the log from a place that is not beyond what is sent sends all that is left. -/
theorem Following.offer_drop (h : Following log base o) (hnumbered : Numbered number log)
    {start : Nat} (hbase : base ≤ start) (hstart : start ≤ base + o.sent.length) :
    Following log base ((log.drop start).foldl (Outbox.offer number) o) ∧
      rest log base ((log.drop start).foldl (Outbox.offer number) o) = [] := by
  -- induction on what is left of the log at the place
  generalize hleft : log.drop start = left
  induction left generalizing o start with
  | nil =>
    have hlength := List.drop_eq_nil_iff.mp hleft
    rw [List.foldl_nil]
    constructor
    · exact h
    · unfold rest
      rw [List.drop_eq_nil_iff]
      omega
  | cons entry others ih =>
    have hlt : start < log.length := by
      by_contra hge
      rw [List.drop_eq_nil_iff.mpr (by omega)] at hleft
      cases hleft
    rw [List.drop_eq_getElem_cons hlt] at hleft
    have hentry := (List.cons.inj hleft).1
    have hnumber : number entry = start + 1 := by
      rw [← hentry]
      exact hnumbered.getElem hlt
    have hmem : entry ∈ log := by
      rw [← hentry]
      exact List.getElem_mem hlt
    have hwatermark := h.watermark_le
    have hnext : o.watermark < number entry → number entry = base + o.sent.length + 1 := by
      intro hpassed
      by_cases hnil : o.sent = []
      · rw [hnil, List.length_nil] at hstart ⊢
        omega
      · have hupTo := h.upTo hnil
        omega
    have hfollowing := h.offer hnumbered hmem hnext
    have hcovered : start + 1 ≤ base + (o.offer number entry).sent.length := by
      unfold Outbox.offer
      split
      · rename_i hdropped
        omega
      · rename_i hpassed
        have heq := hnext (by omega)
        rw [List.length_append, List.length_singleton]
        omega
    rw [List.foldl_cons]
    exact ih hfollowing (by omega) hcovered (List.cons.inj hleft).2

theorem sent_prefix_foldl (entries : List α) (o : Outbox α) :
    o.sent <+: (entries.foldl (Outbox.offer number) o).sent := by
  induction entries generalizing o with
  | nil => exact List.prefix_rfl
  | cons entry others ih =>
    have hone : o.sent <+: (o.offer number entry).sent := by
      unfold Outbox.offer
      split
      · exact List.prefix_rfl
      · exact List.prefix_append _ _
    exact hone.trans (ih (o.offer number entry))

end Outbox

theorem Numbered.filter_drop {α : Type*} {number : α → Nat} {log : List α}
    (h : Numbered number log) {c : Int} (hc : 0 ≤ c) :
    (log.filter fun e => decide (c < number e)) = log.drop c.toNat := by
  have hbefore : (log.take c.toNat).filter (fun e => decide (c < number e)) = [] := by
    apply List.filter_eq_nil_iff.mpr
    intro e he hlt
    have hle := h.le_of_mem_take he
    have hlt' := of_decide_eq_true hlt
    omega
  have hafter : (log.drop c.toNat).filter (fun e => decide (c < number e)) = log.drop c.toNat := by
    apply List.filter_eq_self.mpr
    intro e he
    have hlt := h.lt_of_mem_drop he
    exact decide_eq_true (by omega)
  calc (log.filter fun e => decide (c < number e))
      = (log.take c.toNat).filter (fun e => decide (c < number e)) ++
          (log.drop c.toNat).filter (fun e => decide (c < number e)) := by
        rw [← List.filter_append, List.take_append_drop]
    _ = log.drop c.toNat := by rw [hbefore, hafter, List.nil_append]

end HarnessControl.Library
