import HarnessControl.Harnesses.ContentStore
import HarnessControl.Library.Eviction

/-!
# What the content store retains

The loop of `#prune` leaves what is left of the expiry order after eviction.  An object that goes has
expired, or had to make room together with those that expire after it.
-/

namespace HarnessControl.Harnesses

open HarnessControl.Library HarnessControl.Protocol

namespace ContentStore

variable {Stamp : Type} {limits : ContentLimits} {incoming : Nat} {store : ContentStore Stamp}

/-! ## The expiry order -/

theorem expiryOrder_perm (entries : Dict String (ContentEntry Stamp)) :
    (expiryOrder entries).Perm entries.entries :=
  List.mergeSort_perm _ _

theorem expiryOrder_sorted (entries : Dict String (ContentEntry Stamp)) :
    (expiryOrder entries).Pairwise fun a b => a.2.expiresAt ≤ b.2.expiresAt := by
  have htrans : ∀ a b c : String × ContentEntry Stamp,
      decide (a.2.expiresAt ≤ b.2.expiresAt) = true →
        decide (b.2.expiresAt ≤ c.2.expiresAt) = true →
          decide (a.2.expiresAt ≤ c.2.expiresAt) = true := by
    intro a b c hab hbc
    rw [decide_eq_true_iff] at hab hbc ⊢
    omega
  have htotal : ∀ a b : String × ContentEntry Stamp,
      (decide (a.2.expiresAt ≤ b.2.expiresAt) || decide (b.2.expiresAt ≤ a.2.expiresAt)) =
        true := by
    intro a b
    rw [Bool.or_eq_true, decide_eq_true_iff, decide_eq_true_iff]
    omega
  exact (List.pairwise_mergeSort htrans htotal entries.entries).imp fun h => of_decide_eq_true h

theorem expiryOrder_length (entries : Dict String (ContentEntry Stamp)) :
    (expiryOrder entries).length = entries.size :=
  (expiryOrder_perm entries).length_eq

variable {entries : Dict String (ContentEntry Stamp)} {id : String} {entry : ContentEntry Stamp}

theorem get?_of_order {front later : List (String × ContentEntry Stamp)}
    (horder : expiryOrder entries = front ++ (id, entry) :: later) :
    entries.get? id = some entry := by
  have hin : (id, entry) ∈ expiryOrder entries := by
    rw [horder]
    exact List.mem_append_right _ List.mem_cons_self
  exact Dict.get?_eq_some_iff.mpr ((expiryOrder_perm entries).mem_iff.mp hin)

theorem size_set_of_none (hnew : entries.get? id = none) (entry : ContentEntry Stamp) :
    (entries.set id entry).size = entries.size + 1 ∧
      (entries.set id entry).total ContentEntry.byteLength =
        entries.total ContentEntry.byteLength + entry.byteLength := by
  unfold Dict.size Dict.total
  rw [Dict.entries_set_of_none entry hnew, List.length_append, List.map_append, List.sum_append]
  exact ⟨rfl, rfl⟩

def bytesOf (queue : List (String × ContentEntry Stamp)) : Nat :=
  Eviction.total (fun entry => entry.2.byteLength) queue

theorem bytesOf_perm {first second : List (String × ContentEntry Stamp)}
    (h : first.Perm second) : bytesOf first = bytesOf second :=
  (h.map _).sum_eq

theorem bytesOf_entries (entries : Dict String (ContentEntry Stamp)) :
    entries.total ContentEntry.byteLength = bytesOf entries.entries := rfl

/-- What `#prune` leaves of entries in the expiry order. -/
def survivors (limits : ContentLimits) (incoming : Nat) (now : Int)
    (queue : List (String × ContentEntry Stamp)) : List (String × ContentEntry Stamp) :=
  Eviction.survivors (fun entry => entry.2.byteLength)
    (fun entry => decide (entry.2.expiresAt ≤ now)) limits.maxTotalBytes 1024 incoming queue

/-! ## The loop -/

/-- Files of a directory that may have lost others. -/
def PartOf (part whole : Option (Dict String (DiskFile Stamp))) : Prop :=
  ∀ files, part = some files → ∃ others, whole = some others ∧
    ∀ name file, files.get? name = some file → others.get? name = some file

theorem PartOf.refl (directory : Option (Dict String (DiskFile Stamp))) :
    PartOf directory directory :=
  fun files h => ⟨files, h, fun _ _ hfile => hfile⟩

theorem PartOf.trans {first second third : Option (Dict String (DiskFile Stamp))}
    (h : PartOf first second) (h' : PartOf second third) : PartOf first third := by
  intro files hfiles
  obtain ⟨others, hothers, hpart⟩ := h files hfiles
  obtain ⟨more, hmore, hrest⟩ := h' others hothers
  exact ⟨more, hmore, fun name file hfile => hrest name file (hpart name file hfile)⟩

theorem removeFiles_part (id : String) (store : ContentStore Stamp) :
    PartOf (removeFiles id store).directory store.directory := by
  intro files hfiles
  obtain ⟨others, hothers, rfl⟩ := Option.map_eq_some_iff.mp hfiles
  exact ⟨others, hothers, fun name file hfile => Dict.get?_of_erase (Dict.get?_of_erase hfile)⟩

theorem pruneSorted_all {queue : List (String × ContentEntry Stamp)} {size : Nat}
    (hlive : ∀ entry ∈ queue, store.now < entry.2.expiresAt)
    (hsize : size + incoming ≤ limits.maxTotalBytes) (hcount : store.entries.size < 1024) :
    pruneSorted limits incoming queue size store = store := by
  induction queue with
  | nil => rfl
  | cons entry rest ih =>
    obtain ⟨hentry, hrest⟩ := List.forall_mem_cons.mp hlive
    rw [pruneSorted, if_pos ⟨hentry, hsize, hcount⟩]
    exact ih hrest

theorem perm_erase {rest : List (String × ContentEntry Stamp)}
    (h : ((id, entry) :: rest).Perm entries.entries) : rest.Perm (entries.erase id).entries := by
  have hnodup : (((id, entry) :: rest).map Prod.fst).Nodup := (h.map _).nodup_iff.mpr entries.nodup
  have hother : ∀ other ∈ rest, decide (other.1 ≠ id) = true := by
    intro other hin
    rw [decide_eq_true_iff]
    intro heq
    have hmem : other.1 ∈ rest.map Prod.fst := List.mem_map_of_mem hin
    rw [heq] at hmem
    exact (List.nodup_cons.mp hnodup).1 hmem
  have hfilter := h.filter fun other => decide (other.1 ≠ id)
  rw [List.filter_cons_of_neg (by simp), List.filter_eq_self.mpr hother] at hfilter
  exact hfilter

theorem pruneSorted_spec {queue : List (String × ContentEntry Stamp)} {size : Nat}
    (hperm : queue.Perm store.entries.entries)
    (hsorted : queue.Pairwise fun a b => a.2.expiresAt ≤ b.2.expiresAt)
    (hsize : size = bytesOf queue) :
    (survivors limits incoming store.now queue).Perm
        (pruneSorted limits incoming queue size store).entries.entries ∧
      (pruneSorted limits incoming queue size store).now = store.now ∧
      PartOf (pruneSorted limits incoming queue size store).directory store.directory := by
  induction queue generalizing store size with
  | nil => exact ⟨hperm, rfl, PartOf.refl _⟩
  | cons head rest ih =>
    obtain ⟨id, entry⟩ := head
    have hcount : store.entries.size = ((id, entry) :: rest).length := hperm.length_eq.symm
    obtain ⟨hlater, hrest⟩ := List.pairwise_cons.mp hsorted
    have hadmits : Eviction.admits (fun entry : String × ContentEntry Stamp => entry.2.byteLength)
        (fun entry => decide (entry.2.expiresAt ≤ store.now)) limits.maxTotalBytes 1024 incoming
        ((id, entry) :: rest) = true ↔ store.now < entry.expiresAt ∧
          size + incoming ≤ limits.maxTotalBytes ∧ store.entries.size < 1024 := by
      unfold Eviction.admits
      rw [Bool.and_eq_true, Bool.and_eq_true, Bool.not_eq_true', decide_eq_false_iff_not,
        decide_eq_true_iff, decide_eq_true_iff, hcount, hsize, and_assoc, not_le]
      rfl
    rw [pruneSorted, survivors, Eviction.survivors]
    by_cases hkeep : store.now < entry.expiresAt ∧ size + incoming ≤ limits.maxTotalBytes ∧
        store.entries.size < 1024
    · rw [if_pos hkeep, if_pos (hadmits.mpr hkeep)]
      have hlive : ∀ other ∈ rest, store.now < other.2.expiresAt := by
        intro other hother
        have hle := hlater other hother
        have hlt := hkeep.1
        dsimp only at hle
        omega
      rw [pruneSorted_all hlive hkeep.2.1 hkeep.2.2]
      exact ⟨hperm, rfl, PartOf.refl _⟩
    · rw [if_neg hkeep, if_neg (mt hadmits.mp hkeep)]
      have hleft : rest.Perm
          (removeFiles id { store with entries := store.entries.erase id }).entries.entries :=
        perm_erase hperm
      have hbytes : size - entry.byteLength = bytesOf rest := by
        rw [hsize]
        exact Nat.add_sub_cancel_left _ _
      obtain ⟨hsurvivors, hnow, hpart⟩ := ih hleft hrest hbytes
      exact ⟨hsurvivors, hnow, hpart.trans (removeFiles_part id _)⟩

/-! ## What `#prune` does -/

theorem prune_perm (limits : ContentLimits) (incoming : Nat) (store : ContentStore Stamp) :
    (survivors limits incoming store.now (expiryOrder store.entries)).Perm
      (prune limits incoming store).entries.entries :=
  (pruneSorted_spec (expiryOrder_perm _) (expiryOrder_sorted _)
    (bytesOf_perm (expiryOrder_perm store.entries).symm)).1

theorem prune_now (limits : ContentLimits) (incoming : Nat) (store : ContentStore Stamp) :
    (prune limits incoming store).now = store.now :=
  (pruneSorted_spec (expiryOrder_perm _) (expiryOrder_sorted _)
    (bytesOf_perm (expiryOrder_perm store.entries).symm)).2.1

theorem prune_part (limits : ContentLimits) (incoming : Nat) (store : ContentStore Stamp) :
    PartOf (prune limits incoming store).directory store.directory :=
  (pruneSorted_spec (expiryOrder_perm _) (expiryOrder_sorted _)
    (bytesOf_perm (expiryOrder_perm store.entries).symm)).2.2

theorem survivors_suffix (now : Int) (queue : List (String × ContentEntry Stamp)) :
    survivors limits incoming now queue <:+ queue :=
  Eviction.survivors_suffix queue

theorem prune_get? (h : (prune limits incoming store).entries.get? id = some entry) :
    store.entries.get? id = some entry := by
  rw [Dict.get?_eq_some_iff] at h ⊢
  have hleft := (prune_perm limits incoming store).mem_iff.mpr h
  exact (expiryOrder_perm store.entries).mem_iff.mp ((survivors_suffix _ _).mem hleft)

theorem prune_room (hincoming : incoming ≤ limits.maxTotalBytes) :
    (prune limits incoming store).entries.total ContentEntry.byteLength + incoming ≤
        limits.maxTotalBytes ∧ (prune limits incoming store).entries.size < 1024 := by
  have hperm := prune_perm limits incoming store
  have hsize : (prune limits incoming store).entries.size =
      (survivors limits incoming store.now (expiryOrder store.entries)).length :=
    hperm.length_eq.symm
  rw [bytesOf_entries, ← bytesOf_perm hperm, hsize]
  obtain hnone | hroom := @Eviction.survivors_room (String × ContentEntry Stamp)
    (fun entry => entry.2.byteLength) (fun entry => decide (entry.2.expiresAt ≤ store.now))
    limits.maxTotalBytes 1024 incoming (expiryOrder store.entries)
  · rw [survivors, hnone]
    exact ⟨(Nat.zero_add incoming).trans_le hincoming, Nat.zero_lt_succ 1023⟩
  · exact hroom

/-- An object that is gone and has not expired had to make room, together with those behind it. -/
def Justified (limits : ContentLimits) (incoming added : Nat) (now : Int)
    (before after : Dict String (ContentEntry Stamp)) : Prop :=
  ∀ front id entry later, expiryOrder before = front ++ (id, entry) :: later →
    after.get? id = none → now < entry.expiresAt →
      limits.maxTotalBytes < bytesOf ((id, entry) :: later) + incoming ∨
        1024 < ((id, entry) :: later).length + added

theorem survivors_evicted {front later : List (String × ContentEntry Stamp)}
    (horder : expiryOrder store.entries = front ++ (id, entry) :: later)
    (hgone : (prune limits incoming store).entries.get? id = none) :
    (survivors limits incoming store.now (expiryOrder store.entries)).length ≤ later.length := by
  by_contra hlong
  have htail : (id, entry) :: later <:+ expiryOrder store.entries := ⟨front, horder.symm⟩
  have hin : (id, entry) :: later <:+
      survivors limits incoming store.now (expiryOrder store.entries) := by
    apply List.suffix_of_suffix_length_le htail (survivors_suffix _ _)
    rw [List.length_cons]
    omega
  have hleft := (prune_perm limits incoming store).mem_iff.mp (hin.mem List.mem_cons_self)
  rw [Dict.get?_eq_some_iff.mpr hleft] at hgone
  cases hgone

theorem prune_justified (limits : ContentLimits) (incoming : Nat) (store : ContentStore Stamp) :
    Justified limits incoming 1 store.now store.entries
      (prune limits incoming store).entries := by
  intro front id entry later horder hgone hlive
  have hrefused := Eviction.not_admitted horder (survivors_evicted horder hgone)
  unfold Eviction.admits at hrefused
  rw [Bool.and_eq_false_iff, Bool.and_eq_false_iff, Bool.not_eq_false', decide_eq_true_iff,
    decide_eq_false_iff_not, decide_eq_false_iff_not] at hrefused
  obtain (hexpired | hbytes) | hcount := hrefused
  · exact absurd hexpired (not_le.mpr hlive)
  · exact Or.inl (not_le.mp hbytes)
  · exact Or.inr (by omega)

/-! ## The construction -/

theorem prune_front (hincoming : incoming ≤ limits.maxTotalBytes)
    {front later : List (String × ContentEntry Stamp)} {id : String} {entry : ContentEntry Stamp}
    (horder : expiryOrder store.entries = front ++ (id, entry) :: later)
    (hlong : 1023 ≤ later.length) : (prune limits incoming store).entries.get? id = none := by
  have hperm := prune_perm limits incoming store
  have hroom := (@prune_room _ _ _ store hincoming).2
  have hsize : (prune limits incoming store).entries.size =
      (survivors limits incoming store.now (expiryOrder store.entries)).length :=
    hperm.length_eq.symm
  have hlater : later <:+ expiryOrder store.entries := by
    rw [horder]
    exact (List.suffix_cons _ _).trans (List.suffix_append _ _)
  have hsuffix : survivors limits incoming store.now (expiryOrder store.entries) <:+ later :=
    List.suffix_of_suffix_length_le (survivors_suffix _ _) hlater (by omega)
  rw [Dict.get?_eq_none_iff]
  intro hkey
  obtain ⟨other, hother, hid⟩ := List.mem_map.mp hkey
  have hin : id ∈ later.map Prod.fst := by
    rw [← hid]
    exact List.mem_map_of_mem (hsuffix.mem (hperm.mem_iff.mpr hother))
  have hnodup : ((expiryOrder store.entries).map Prod.fst).Nodup :=
    ((expiryOrder_perm store.entries).map _).nodup_iff.mpr store.entries.nodup
  rw [horder, List.map_append, List.map_cons] at hnodup
  exact (List.nodup_cons.mp (List.nodup_append.mp hnodup).2.1).1 hin

/-- There are 1024 objects that have not expired, and the last of them to expire fit. -/
def Crowded (limits : ContentLimits) (now : Int) (entries : Dict String (ContentEntry Stamp)) :
    Prop :=
  let latest := (expiryOrder entries).drop (entries.size - 1024)
  1024 ≤ entries.size ∧ (∀ entry ∈ latest, now < entry.2.expiresAt) ∧
    bytesOf latest ≤ limits.maxTotalBytes

theorem crowded_of_full {now : Int}
    (hsize : entries.size = 1024) (hlive : ∀ entry ∈ entries.entries, now < entry.2.expiresAt)
    (hbytes : entries.total ContentEntry.byteLength ≤ limits.maxTotalBytes) :
    Crowded limits now entries := by
  unfold Crowded
  dsimp only
  rw [hsize, Nat.sub_self, List.drop_zero, bytesOf_perm (expiryOrder_perm entries)]
  exact ⟨le_refl _, fun entry hentry => hlive entry ((expiryOrder_perm entries).mem_iff.mp hentry),
    hbytes⟩

theorem prune_zero_iff (limits : ContentLimits) (store : ContentStore Stamp) :
    Justified limits 0 0 store.now store.entries (prune limits 0 store).entries ↔
      ¬Crowded limits store.now store.entries := by
  constructor
  · rintro hjustified ⟨hcount, hlive, hbytes⟩
    obtain ⟨front, hfront⟩ := List.drop_suffix (store.entries.size - 1024)
      (expiryOrder store.entries)
    have hlength : ((expiryOrder store.entries).drop (store.entries.size - 1024)).length =
        1024 := by
      rw [List.length_drop, expiryOrder_length]
      omega
    generalize (expiryOrder store.entries).drop (store.entries.size - 1024) = latest at *
    cases latest with
    | nil => cases hlength
    | cons first later =>
      obtain ⟨id, entry⟩ := first
      have hgone : (prune limits 0 store).entries.get? id = none := by
        apply prune_front (Nat.zero_le _) hfront.symm
        rw [List.length_cons] at hlength
        omega
      have hexceeds := hjustified front id entry later hfront.symm hgone
        (hlive _ List.mem_cons_self)
      omega
  · intro hcrowded front id entry later horder hgone hlive
    have hmore := prune_justified limits 0 store front id entry later horder hgone hlive
    by_contra hfits
    have hlength : ((id, entry) :: later).length = 1024 := by omega
    have hsize := expiryOrder_length store.entries
    rw [horder, List.length_append, hlength] at hsize
    have hlatest : (expiryOrder store.entries).drop (store.entries.size - 1024) =
        (id, entry) :: later := by
      rw [horder]
      exact List.drop_left' (by omega)
    apply hcrowded
    unfold Crowded
    rw [hlatest]
    refine ⟨by omega, ?_, by omega⟩
    have hsorted := expiryOrder_sorted store.entries
    rw [horder] at hsorted
    have hlater := (List.pairwise_cons.mp (List.pairwise_append.mp hsorted).2.1).1
    refine List.forall_mem_cons.mpr ⟨hlive, fun other hother => ?_⟩
    exact lt_of_lt_of_le hlive (hlater other hother)

end ContentStore

end HarnessControl.Harnesses
