import HarnessControl.Library.Paging

/-!
# Inventories

The client reads the turns of a conversation and the native work of a session page by page, by the
cursors that the runner gives it.  Both readers are one loop, which checks that every page is of the
same snapshot, that no id is repeated, and that the counts agree.
-/

namespace HarnessControl.Sdk

open HarnessControl.Library

/-- The reasons of `HcpHistoryInventoryError` and `HcpNativeWorkInventoryError`. -/
inductive InventoryReason where
  | limit
  | snapshotChanged
  | duplicateTurn
  | duplicateWork
  | cursorCycle
  | incomplete
  | invalidTurnId

/-- A reader fails by itself, or with a request. -/
inductive InventoryError (ρ : Type) where
  | inventory (reason : InventoryReason)
  | request (error : ρ)

structure InventoryPage (σ ε : Type) where
  snapshot : σ
  entries : List ε
  nextCursor : Option String

structure InventoryReader (σ ε : Type) where
  count : σ → Nat
  id : ε → String
  validId : String → Bool
  duplicate : InventoryReason

structure ReadSoFar (σ ε : Type) where
  pages : List (List ε)
  ids : List String
  cursors : List String
  cursor : Option String
  snapshot : Option σ

variable {σ ε ρ : Type}

def ReadSoFar.start : ReadSoFar σ ε := ⟨[], [], [], none, none⟩

namespace InventoryReader

variable (reader : InventoryReader σ ε)

def takeIds (ids : List String) : List ε → Except InventoryReason (List String)
  | [] => .ok ids
  | entry :: rest =>
    if !reader.validId (reader.id entry) then .error .invalidTurnId
    else if ids.contains (reader.id entry) then .error reader.duplicate
    else takeIds (ids ++ [reader.id entry]) rest

/-- What a page leads to: the end, or the next request. -/
def takePage [DecidableEq σ] (maxCount : Nat) (read : ReadSoFar σ ε) (page : InventoryPage σ ε) :
    Except InventoryReason ((σ × List (List ε)) ⊕ ReadSoFar σ ε) :=
  let snapshot := read.snapshot.getD page.snapshot
  let nextCursor := page.nextCursor.filter fun cursor => cursor != ""
  if maxCount < reader.count page.snapshot then .error .limit
  else if page.snapshot ≠ snapshot then .error .snapshotChanged
  else if page.entries.isEmpty && (nextCursor.isSome || reader.count snapshot != 0) then
    .error .incomplete
  else
    match reader.takeIds read.ids page.entries with
    | .error reason => .error reason
    | .ok ids =>
      if reader.count snapshot < ids.length then .error .incomplete
      else
        match nextCursor with
        | none =>
          if ids.length ≠ reader.count snapshot then .error .incomplete
          else .ok (.inl (snapshot, read.pages ++ [page.entries]))
        | some cursor =>
          if read.cursors.contains cursor then .error .cursorCycle
          else .ok (.inr ⟨read.pages ++ [page.entries], ids, read.cursors ++ [cursor],
            some cursor, some snapshot⟩)

/-- The loop, with how many requests have been made in the end. -/
def readPages [DecidableEq σ] (maxCount : Nat)
    (request : Nat → Option String → Except ρ (InventoryPage σ ε)) :
    Nat → Nat → ReadSoFar σ ε → Nat × Except (InventoryError ρ) (σ × List (List ε))
  | 0, index, _ => (index, .error (.inventory .limit))
  | remaining + 1, index, read =>
    match request index read.cursor with
    | .error error => (index + 1, .error (.request error))
    | .ok page =>
      match reader.takePage maxCount read page with
      | .error reason => (index + 1, .error (.inventory reason))
      | .ok (.inl result) => (index + 1, .ok result)
      | .ok (.inr next) => readPages maxCount request remaining (index + 1) next

/-! ## A server that does not change -/

/-- The runner hands out a list in pages; `arrange` orders the values of one page. -/
structure Serves (snapshot : σ) (list : List ε) (size : ε → Nat) (budget limit : Nat)
    (arrange : List ε → List ε) (encode : Nat → String)
    (request : Nat → Option String → Except ρ (InventoryPage σ ε)) : Prop where
  serve : ∀ index offset, offset ≤ list.length →
    request index (if offset = 0 then none else some (encode offset)) = .ok {
      snapshot
      entries := arrange (page size budget limit (list.drop offset))
      nextCursor :=
        if offset + (page size budget limit (list.drop offset)).length < list.length then
          some (encode (offset + (page size budget limit (list.drop offset)).length))
        else none }
  arranged : ∀ values : List ε, (arrange values).Perm values
  injective : Function.Injective encode
  nonempty : ∀ offset, encode offset ≠ ""

variable {reader} {snapshot : σ} {list : List ε} {size : ε → Nat} {budget limit : Nat}
  {arrange : List ε → List ε} {encode : Nat → String}
  {request : Nat → Option String → Except ρ (InventoryPage σ ε)}

theorem takeIds_ok {ids : List String} {entries : List ε}
    (hvalid : ∀ entry ∈ entries, reader.validId (reader.id entry) = true)
    (hnodup : (ids ++ entries.map reader.id).Nodup) :
    reader.takeIds ids entries = .ok (ids ++ entries.map reader.id) := by
  induction entries generalizing ids with
  | nil => rw [List.map_nil, List.append_nil]; rfl
  | cons entry rest ih =>
    rw [List.map_cons] at hnodup
    have hfresh : ids.contains (reader.id entry) = false := by
      rw [List.contains_eq_mem, decide_eq_false_iff_not]
      intro hmem
      exact (List.nodup_append.mp hnodup).2.2 _ hmem _ List.mem_cons_self rfl
    have hassoc : ids ++ reader.id entry :: rest.map reader.id =
        (ids ++ [reader.id entry]) ++ rest.map reader.id := by
      rw [List.append_assoc, List.singleton_append]
    rw [hassoc] at hnodup
    unfold takeIds
    rw [hvalid entry List.mem_cons_self, hfresh, List.map_cons, hassoc]
    exact ih (fun other hother => hvalid other (List.mem_cons_of_mem entry hother)) hnodup

structure ReadAt (reader : InventoryReader σ ε) (snapshot : σ) (list : List ε)
    (encode : Nat → String) (offset : Nat) (read : ReadSoFar σ ε) : Prop where
  bound : offset = 0 ∨ offset < list.length
  ids : read.ids.Perm ((list.take offset).map reader.id)
  cursor : read.cursor = if offset = 0 then none else some (encode offset)
  cursors : ∀ cursor ∈ read.cursors, ∃ earlier ≤ offset, cursor = encode earlier
  snapshot : read.snapshot = none ∨ read.snapshot = some snapshot

theorem ReadAt.start : ReadAt reader snapshot list encode 0 .start where
  bound := Or.inl rfl
  ids := by
    rw [List.take_zero]
    exact List.Perm.refl _
  cursor := rfl
  cursors _ hmem := absurd hmem List.not_mem_nil
  snapshot := Or.inl rfl

variable [DecidableEq σ]

theorem readPages_served (h : Serves snapshot list size budget limit arrange encode request)
    (hlimit : 0 < limit) (hfits : ∀ entry ∈ list, size entry ≤ budget)
    (hvalid : ∀ entry ∈ list, reader.validId (reader.id entry) = true)
    (hnodup : (list.map reader.id).Nodup) (hcount : reader.count snapshot = list.length)
    {maxCount : Nat} (hmax : list.length ≤ maxCount) (remaining index : Nat) {offset : Nat}
    {read : ReadSoFar σ ε} (hat : ReadAt reader snapshot list encode offset read) :
    reader.readPages maxCount request remaining index read =
      if (pages size budget limit (list.drop offset)).length ≤ remaining then
        (index + (pages size budget limit (list.drop offset)).length,
          .ok (snapshot, read.pages ++ (pages size budget limit (list.drop offset)).map arrange))
      else (index + remaining, .error (.inventory .limit)) := by
  induction remaining generalizing index offset read with
  | zero =>
    have hfitsRest : ∀ entry ∈ list.drop offset, size entry ≤ budget := fun entry hentry =>
      hfits entry (List.mem_of_mem_drop hentry)
    rw [pages_eq hlimit hfitsRest, List.length_cons, if_neg (by omega)]
    rfl
  | succ remaining ih =>
    have hfitsRest : ∀ entry ∈ list.drop offset, size entry ≤ budget := fun entry hentry =>
      hfits entry (List.mem_of_mem_drop hentry)
    have hbound : offset ≤ list.length := by
      rcases hat.bound with hzero | hlt <;> omega
    have hserve := h.serve index offset hbound
    have hpages := pages_eq hlimit hfitsRest
    have htake : page size budget limit (list.drop offset) = _ := page_eq_take _
    have hle : (page size budget limit (list.drop offset)).length ≤ _ := page_length_le _
    have hpositive := page_pos hlimit hfitsRest
    generalize page size budget limit (list.drop offset) = values at *
    rw [List.length_drop] at hle
    -- the ids with those of the page are those up to the next offset
    have hids : (read.ids ++ (arrange values).map reader.id).Perm
        ((list.take (offset + values.length)).map reader.id) := by
      rw [List.take_add, ← htake, List.map_append]
      exact hat.ids.append ((h.arranged values).map reader.id)
    have hnodupIds : (read.ids ++ (arrange values).map reader.id).Nodup :=
      hids.nodup_iff.mpr (((List.take_sublist _ list).map reader.id).nodup hnodup)
    have hlength : (read.ids ++ (arrange values).map reader.id).length =
        offset + values.length := by
      rw [hids.length_eq, List.length_map, List.length_take]
      omega
    have hmemList : ∀ entry ∈ arrange values, entry ∈ list := by
      intro entry hentry
      have hmem := (h.arranged values).mem_iff.mp hentry
      rw [htake] at hmem
      exact List.mem_of_mem_drop (List.mem_of_mem_take hmem)
    have htaken := takeIds_ok (fun entry hentry => hvalid entry (hmemList entry hentry)) hnodupIds
    have hsnapshot : read.snapshot.getD snapshot = snapshot := by
      rcases hat.snapshot with hnone | hsome
      · rw [hnone, Option.getD_none]
      · rw [hsome, Option.getD_some]
    unfold readPages takePage
    rw [hat.cursor, hserve]
    dsimp only
    rw [hsnapshot, if_neg (by omega), if_neg (fun hne => hne rfl), htaken]
    have hrestLength : (list.drop offset).length = list.length - offset := List.length_drop
    by_cases hmore : offset + values.length < list.length
    · have hvalues : 0 < values.length := by
        apply hpositive
        intro hnil
        rw [hnil, List.length_nil] at hrestLength
        omega
      have hfull : (arrange values).isEmpty = false := by
        rw [List.isEmpty_eq_false_iff, ← List.length_pos_iff, (h.arranged values).length_eq]
        exact hvalues
      have hnew : read.cursors.contains (encode (offset + values.length)) = false := by
        rw [List.contains_eq_mem, decide_eq_false_iff_not]
        intro hmem
        rcases hat.cursors _ hmem with ⟨earlier, hearlier, hsame⟩
        have hequal := h.injective hsame
        omega
      have hnext : ReadAt reader snapshot list encode (offset + values.length)
          ⟨read.pages ++ [arrange values], read.ids ++ (arrange values).map reader.id,
            read.cursors ++ [encode (offset + values.length)],
            some (encode (offset + values.length)), some snapshot⟩ := by
        refine ⟨Or.inr hmore, hids, ?_, ?_, Or.inr rfl⟩
        · rw [if_neg (by omega)]
        · intro cursor hcursor
          rcases List.mem_append.mp hcursor with hold | hlast
          · rcases hat.cursors cursor hold with ⟨earlier, hearlier, hsame⟩
            exact ⟨earlier, by omega, hsame⟩
          · exact ⟨_, Nat.le_refl _, List.mem_singleton.mp hlast⟩
      rw [if_pos hmore, Option.filter_some, if_pos (bne_iff_ne.mpr (h.nonempty _)), hfull,
        Bool.false_and, if_neg Bool.false_ne_true]
      dsimp only
      rw [if_pos (by omega), List.drop_drop] at hpages
      rw [if_neg (by omega), hnew, if_neg Bool.false_ne_true]
      dsimp only
      rw [ih (index + 1) hnext, hpages, List.length_cons, List.map_cons]
      by_cases hfuel : (pages size budget limit (list.drop (offset + values.length))).length ≤ remaining
      · rw [if_pos hfuel, if_pos (by omega), List.append_assoc, List.singleton_append]
        congr 1
        omega
      · rw [if_neg hfuel, if_neg (by omega)]
        congr 1
        omega
    · have hdone : ((arrange values).isEmpty && (reader.count snapshot != 0)) = false := by
        by_cases hlist : list.length = 0
        · rw [hcount, hlist]
          exact Bool.and_false _
        · have hvalues : 0 < values.length := by
            apply hpositive
            intro hnil
            rw [hnil, List.length_nil] at hrestLength
            rcases hat.bound with hzero | hlt <;> omega
          have hfull : (arrange values).isEmpty = false := by
            rw [List.isEmpty_eq_false_iff, ← List.length_pos_iff, (h.arranged values).length_eq]
            exact hvalues
          rw [hfull, Bool.false_and]
      rw [if_neg hmore, Option.filter_none, Option.isSome_none, Bool.false_or, hdone,
        if_neg Bool.false_ne_true]
      dsimp only
      rw [if_neg (by omega)] at hpages
      rw [if_neg (by omega), if_neg (by omega), hpages, List.length_singleton, if_pos (by omega)]
      rfl

/-! ## A server that changes -/

theorem takePage_ok {maxCount : Nat} {read : ReadSoFar σ ε} {page : InventoryPage σ ε}
    {outcome : (σ × List (List ε)) ⊕ ReadSoFar σ ε}
    (h : reader.takePage maxCount read page = .ok outcome) :
    page.snapshot = read.snapshot.getD page.snapshot ∧
      outcome.elim (fun result => some result.1) ReadSoFar.snapshot = some page.snapshot := by
  unfold takePage at h
  dsimp only at h
  split at h
  · cases h
  · split at h
    · cases h
    · rename_i hsame
      have hsnapshot := not_not.mp hsame
      refine ⟨hsnapshot, ?_⟩
      rw [← hsnapshot] at h
      split at h
      · cases h
      · split at h
        · cases h
        · split at h
          · cases h
          · split at h
            · split at h
              · cases h
              · cases h
                rfl
            · split at h
              · cases h
              · cases h
                rfl

theorem readPages_snapshots {maxCount remaining index total : Nat} {read : ReadSoFar σ ε}
    {all : List (List ε)}
    (h : reader.readPages maxCount request remaining index read = (total, .ok (snapshot, all))) :
    (∀ earlier, read.snapshot = some earlier → earlier = snapshot) ∧
      ∀ j, index ≤ j → j < total → ∃ cursor page, request j cursor = .ok page ∧
        page.snapshot = snapshot := by
  induction remaining generalizing index read with
  | zero => cases h
  | succ remaining ih =>
    unfold readPages at h
    split at h
    · cases h
    · rename_i page hpage
      split at h
      · cases h
      · rename_i result htake
        have htaken := takePage_ok htake
        have hresult := Option.some.inj htaken.2
        cases h
        constructor
        · intro earlier hearlier
          rw [hearlier, Option.getD_some] at htaken
          exact (hresult.trans htaken.1).symm
        · intro j hindex htotal
          have hj : j = index := by omega
          subst hj
          exact ⟨read.cursor, page, hpage, hresult.symm⟩
      · rename_i next htake
        have htaken := takePage_ok htake
        have hafter := ih h
        have hpageSnapshot := hafter.1 page.snapshot htaken.2
        constructor
        · intro earlier hearlier
          rw [hearlier, Option.getD_some] at htaken
          exact htaken.1.symm.trans hpageSnapshot
        · intro j hindex htotal
          rcases Nat.eq_or_lt_of_le hindex with rfl | hlater
          · exact ⟨read.cursor, page, hpage, hpageSnapshot⟩
          · exact hafter.2 j hlater htotal

theorem index_lt_readPages (reader : InventoryReader σ ε) (maxCount remaining index : Nat)
    (read : ReadSoFar σ ε) :
    index < (reader.readPages maxCount request (remaining + 1) index read).1 := by
  induction remaining generalizing index read with
  | zero =>
    unfold readPages
    split
    · exact Nat.lt_succ_self index
    · split
      · exact Nat.lt_succ_self index
      · exact Nat.lt_succ_self index
      · exact Nat.lt_succ_self index
  | succ remaining ih =>
    unfold readPages
    split
    · exact Nat.lt_succ_self index
    · split
      · exact Nat.lt_succ_self index
      · exact Nat.lt_succ_self index
      · exact Nat.lt_of_succ_lt (ih (index + 1) _)

theorem readPages_congr {other : Nat → Option String → Except ρ (InventoryPage σ ε)}
    (reader : InventoryReader σ ε) {maxCount remaining index : Nat} {read : ReadSoFar σ ε}
    (h : ∀ j cursor, index ≤ j → j < (reader.readPages maxCount request remaining index read).1 →
      request j cursor = other j cursor) :
    reader.readPages maxCount request remaining index read =
      reader.readPages maxCount other remaining index read := by
  induction remaining generalizing index read with
  | zero => rfl
  | succ remaining ih =>
    have hfirst := h index read.cursor (Nat.le_refl index)
      (index_lt_readPages reader maxCount remaining index read)
    unfold readPages at h ⊢
    rw [← hfirst]
    cases hpage : request index read.cursor with
    | error error => rfl
    | ok page =>
      rw [hpage] at h
      dsimp only at h ⊢
      cases htake : reader.takePage maxCount read page with
      | error reason => rfl
      | ok outcome =>
        rw [htake] at h
        cases outcome with
        | inl result => rfl
        | inr next =>
          apply ih
          intro j cursor hindex htotal
          exact h j cursor (Nat.le_of_succ_le hindex) htotal

end InventoryReader

end HarnessControl.Sdk
