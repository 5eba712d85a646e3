import HarnessControl.Codex.RpcCalls

/-!
# Requests of the peer and their replies

A request has one reply, written when its handler finishes, or none.
-/

namespace HarnessControl.Codex

open HarnessControl.Library HarnessControl.Protocol

/-! ## The table -/

/-- Requests whose handlers run are found under their ids. -/
structure RpcRequests.Kept (table : RpcRequests) : Prop where
  signals : ∀ id index, table.signals.get? id = some index ↔
    ∃ request, table.requests[index]? = some request ∧ request.id = id ∧ request.finished = none
  active : ∀ id, id ∈ table.active ↔ (table.signals.get? id).isSome
  nodup : table.active.Nodup

def PeerRequest.replies (request : PeerRequest) : List (Option RpcId) :=
  if request.finished = some false ∧ request.aborted = false then [some request.id] else []

def RpcWritten.repliesTo (index : Nat) : RpcWritten → Bool
  | .result request _ _ => request == index
  | .error request _ _ _ => request == some index
  | _ => false

def RpcWritten.replyId : RpcWritten → Option RpcId
  | .result _ id _ => some id
  | .error _ id _ _ => some id
  | _ => none

def repliesWritten (written : List RpcWritten) (index : Nat) : List (Option RpcId) :=
  (written.filter (RpcWritten.repliesTo index)).map RpcWritten.replyId

def RpcRequests.Replied (table : RpcRequests) (written : List RpcWritten) : Prop :=
  ∀ index, repliesWritten written index = (table.requests[index]?).elim [] PeerRequest.replies

theorem repliesWritten_append (written : List RpcWritten) (message : RpcWritten) (index : Nat) :
    repliesWritten (written ++ [message]) index =
      repliesWritten written index ++
        if message.repliesTo index then [message.replyId] else [] := by
  unfold repliesWritten
  rw [List.filter_append, List.map_append, List.filter_singleton]
  cases message.repliesTo index <;> rfl

namespace RpcRequests

variable {table : RpcRequests} {written : List RpcWritten}

theorem Kept.opened : RpcRequests.Kept .opened where
  signals id index := by
    constructor
    · intro h
      cases h
    · rintro ⟨request, hrequest, -⟩
      cases hrequest
  active _ := iff_of_false List.not_mem_nil nofun
  nodup := List.nodup_nil

theorem Kept.unique (h : table.Kept) {first second : Nat} {request other : PeerRequest}
    (hrequest : table.requests[first]? = some request)
    (hother : table.requests[second]? = some other) (hid : request.id = other.id)
    (hruns : request.finished = none) (hruns' : other.finished = none) : first = second := by
  have hfirst := (h.signals request.id first).mpr ⟨request, hrequest, rfl, hruns⟩
  have hsecond := (h.signals request.id second).mpr ⟨other, hother, hid.symm, hruns'⟩
  exact Option.some.inj (hfirst.symm.trans hsecond)

theorem Kept.start (h : table.Kept) {id : RpcId} (hnew : id ∉ table.active)
    (params : Option Json) : (table.start id params).Kept where
  signals other index := by
    show (table.signals.set id table.requests.length).get? other = some index ↔
      ∃ request, (table.requests ++ [⟨id, false, none⟩])[index]? = some request ∧ _
    have hold : ∀ request, table.requests[index]? = some request →
        (table.requests ++ [⟨id, false, none⟩])[index]? = some request := by
      intro request hrequest
      have hlt := (List.getElem?_eq_some_iff.mp hrequest).1
      exact (List.getElem?_append_left hlt).trans hrequest
    by_cases hid : other = id
    · rw [hid, Dict.get?_set_self]
      constructor
      · intro heq
        obtain rfl := Option.some.inj heq
        exact ⟨_, List.getElem?_concat_length, rfl, rfl⟩
      · rintro ⟨request, hrequest, hname, hruns⟩
        by_cases hlt : index < table.requests.length
        · rw [List.getElem?_append_left hlt] at hrequest
          -- a running request of the same id would be active
          have hsome := (h.signals id index).mpr ⟨request, hrequest, hname, hruns⟩
          exact absurd ((h.active id).mpr (by rw [hsome]; rfl)) hnew
        · have hbound := (List.getElem?_eq_some_iff.mp hrequest).1
          rw [List.length_append, List.length_singleton] at hbound
          congr 1
          omega
    · rw [Dict.get?_set_of_ne _ _ hid, h.signals]
      constructor
      · rintro ⟨request, hrequest, hname, hruns⟩
        exact ⟨request, hold request hrequest, hname, hruns⟩
      · rintro ⟨request, hrequest, hname, hruns⟩
        by_cases hlt : index < table.requests.length
        · rw [List.getElem?_append_left hlt] at hrequest
          exact ⟨request, hrequest, hname, hruns⟩
        · rw [List.getElem?_append_right (Nat.le_of_not_lt hlt)] at hrequest
          rw [List.mem_singleton.mp (List.mem_of_getElem? hrequest)] at hname
          exact absurd hname.symm hid
  active other := by
    show other ∈ table.active ++ [id] ↔ ((table.signals.set id _).get? other).isSome
    rw [List.mem_append, List.mem_singleton, h.active, Dict.get?_set]
    by_cases hid : other = id
    · simp [hid]
    · simp [hid]
  nodup := by
    show (table.active ++ [id]).Nodup
    exact h.nodup.append (List.nodup_singleton id) (by simpa using hnew)

theorem Replied.start (h : table.Replied written) (id : RpcId) (params : Option Json) :
    (table.start id params).Replied written := by
  intro index
  show _ = ((table.requests ++ [⟨id, false, none⟩])[index]?).elim [] PeerRequest.replies
  rw [h index]
  by_cases hlt : index < table.requests.length
  · rw [List.getElem?_append_left hlt]
  · rw [List.getElem?_append_right (Nat.le_of_not_lt hlt),
      List.getElem?_eq_none (Nat.le_of_not_lt hlt)]
    cases hnew : [(⟨id, false, none⟩ : PeerRequest)][index - table.requests.length]? with
    | none => rfl
    | some request =>
      rw [List.mem_singleton.mp (List.mem_of_getElem? hnew)]
      rfl

theorem Kept.abort (h : table.Kept) (id : RpcId) : (table.abort id).Kept := by
  unfold RpcRequests.abort
  cases hsignal : table.signals.get? id with
  | none => exact h
  | some index =>
    refine { h with signals := ?_ }
    intro other place
    show table.signals.get? other = some place ↔
      ∃ request, (table.requests.modify index _)[place]? = some request ∧ _
    rw [h.signals]
    by_cases heq : index = place
    · subst heq
      rw [List.getElem?_modify_eq]
      constructor
      · rintro ⟨request, hrequest, hname, hruns⟩
        rw [hrequest]
        exact ⟨_, rfl, hname, hruns⟩
      · rintro ⟨request, hrequest, hname, hruns⟩
        obtain ⟨old, hold, rfl⟩ := Option.map_eq_some_iff.mp hrequest
        exact ⟨old, hold, hname, hruns⟩
    · rw [List.getElem?_modify_ne _ _ heq]

theorem Replied.abort (hkept : table.Kept) (h : table.Replied written) (id : RpcId) :
    (table.abort id).Replied written := by
  unfold RpcRequests.abort
  cases hsignal : table.signals.get? id with
  | none => exact h
  | some index =>
    intro place
    show _ = ((table.requests.modify index _)[place]?).elim [] PeerRequest.replies
    rw [h place]
    by_cases heq : index = place
    · subst heq
      obtain ⟨request, hrequest, -, hruns⟩ := (hkept.signals id index).mp hsignal
      rw [List.getElem?_modify_eq, hrequest]
      -- neither has finished
      show PeerRequest.replies request = PeerRequest.replies { request with aborted := true }
      unfold PeerRequest.replies
      rw [hruns, if_neg (fun h => nomatch h.1), if_neg (fun h => nomatch h.1)]
    · rw [List.getElem?_modify_ne _ _ heq]

theorem Kept.aborts (h : table.Kept) (hreplied : table.Replied written) (ids : List RpcId) :
    (ids.foldl (fun table id => table.abort id) table).Kept ∧
      (ids.foldl (fun table id => table.abort id) table).Replied written := by
  induction ids generalizing table with
  | nil => exact ⟨h, hreplied⟩
  | cons id ids ih => exact ih (h.abort id) (hreplied.abort h id)

theorem Kept.finish (h : table.Kept) {index : Nat} {request : PeerRequest}
    (hrequest : table.requests[index]? = some request) (hruns : request.finished = none)
    (failed : Bool) : (table.finish index request.id failed).Kept where
  signals id place := by
    show (table.signals.erase request.id).get? id = some place ↔
      ∃ found, (table.requests.modify index _)[place]? = some found ∧ _
    by_cases heq : index = place
    · subst heq
      rw [List.getElem?_modify_eq, hrequest]
      constructor
      · intro hget
        obtain ⟨found, hfound, hid, -⟩ := (h.signals id index).mp (Dict.get?_of_erase hget)
        rw [hrequest] at hfound
        rw [← hid, ← Option.some.inj hfound, Dict.get?_erase_self] at hget
        cases hget
      · rintro ⟨found, hfound, -, hnone⟩
        rw [← Option.some.inj hfound] at hnone
        cases hnone
    · rw [List.getElem?_modify_ne _ _ heq]
      by_cases hid : id = request.id
      · rw [hid, Dict.get?_erase_self]
        apply iff_of_false nofun
        rintro ⟨found, hfound, hname, hruns'⟩
        exact heq (h.unique hrequest hfound hname.symm hruns hruns')
      · rw [Dict.get?_erase_of_ne _ hid]
        exact h.signals id place
  active id := by
    show id ∈ table.active.erase request.id ↔ ((table.signals.erase request.id).get? id).isSome
    rw [h.nodup.mem_erase_iff, h.active]
    by_cases hid : id = request.id
    · rw [hid, Dict.get?_erase_self]
      exact iff_of_false (fun hne => hne.1 rfl) nofun
    · rw [Dict.get?_erase_of_ne _ hid]
      exact and_iff_right hid
  nodup := h.nodup.erase _

theorem Replied.finish (h : table.Replied written) {index : Nat} {request : PeerRequest}
    (hrequest : table.requests[index]? = some request) (hruns : request.finished = none)
    {failed : Bool} {replies : List RpcWritten}
    (hreplies : ∀ place, repliesWritten (written ++ replies) place = repliesWritten written place ++
      if index = place then PeerRequest.replies { request with finished := some failed } else []) :
    (table.finish index request.id failed).Replied (written ++ replies) := by
  intro place
  show _ = ((table.requests.modify index _)[place]?).elim [] PeerRequest.replies
  rw [hreplies place, h place]
  by_cases heq : index = place
  · subst heq
    rw [if_pos rfl, List.getElem?_modify_eq, hrequest]
    have hnone : PeerRequest.replies request = [] := by
      unfold PeerRequest.replies
      rw [hruns, if_neg (fun h => nomatch h.1)]
    show PeerRequest.replies request ++ _ = _
    rw [hnone, List.nil_append]
    rfl
  · rw [if_neg heq, List.getElem?_modify_ne _ _ heq, List.append_nil]

theorem Replied.write (h : table.Replied written) {message : RpcWritten}
    (hother : ∀ index, message.repliesTo index = false) : table.Replied (written ++ [message]) := by
  intro index
  rw [repliesWritten_append, hother index, if_neg (by decide), List.append_nil]
  exact h index

end RpcRequests

end HarnessControl.Codex
