import HarnessControl.Sdk.NativeSessionRuns

/-!
# Ownership of native sessions

What the calls of a registry change, and with it every step, keeps what is known of the sessions.
From that follow the guarantees of a registry in all its runs.
-/

namespace HarnessControl.Sdk

open HarnessControl.Library HarnessControl.Protocol

variable {id : String} {record after : NativeSession} {run next : NativeSessions}

namespace NativeSessions

open NativeSession

/-! ## Fences -/

theorem Kept.dispose (h : run.Kept) : run.dispose.Kept ∧ run.Continues run.dispose := by
  unfold NativeSessions.dispose
  refine h.turn rfl rfl ?_ ?_ ?_ ?_
  · intro id record hrecord
    dsimp only
    rw [Dict.get?_map, hrecord, Option.map_some]
    refine ⟨_, rfl, .unconfirm record, (unconfirm_observed record).2,
      ⟨[], (unconfirm_observed record).1.trans (List.append_nil _).symm⟩,
      (h.records id record hrecord).unconfirm, ?_⟩
    intro index call htoken
    cases htoken
  · intro id hnone
    dsimp only
    rw [Dict.get?_map, hnone]
    exact ⟨rfl, h.unknown id hnone⟩
  · intro id index htoken
    cases htoken
  · intro _
    refine ⟨Or.inl rfl, fun index call _ _ htoken => ?_⟩
    cases htoken

/-! ## Calls go on -/

theorem Kept.release (h : run.Kept) (id : String) :
    (run.release id).Kept ∧ run.Continues (run.release id) := by
  unfold NativeSessions.release
  refine h.turn rfl rfl ?_ (fun other hnone => ⟨hnone, h.unknown other hnone⟩)
    (fun _ _ htoken => (token_of_erase htoken).2) fun hdetached => ?_
  · intro other record hrecord
    exact ⟨record, hrecord, .refl record, rfl, ⟨[], (List.append_nil _).symm⟩,
      h.records other record hrecord, fun _ _ _ _ _ _ => rfl⟩
  · refine ⟨(h.detached hdetached).1, fun index call hcall hawaiting htoken => ?_⟩
    exact (h.detached hdetached).2 index call hcall hawaiting (token_of_erase htoken).2

theorem fence_calls (index : Nat) (id : String) (run : NativeSessions) :
    (run.fence index id).calls = run.calls := by
  unfold fence
  split
  · split
    · rfl
    · rfl
  · rfl

theorem Kept.fence (h : run.Kept) (index : Nat) (id : String) :
    (run.fence index id).Kept ∧ run.Continues (run.fence index id) := by
  unfold NativeSessions.fence
  split
  · split
    · exact h.release id
    · rename_i record hrecord
      have hturn : run.Turn ((run.put id record.unconfirm).release id) id record
          record.unconfirm := by
        refine ⟨.unconfirm record, (unconfirm_observed record).2,
          ⟨[], (unconfirm_observed record).1.trans (List.append_nil _).symm⟩,
          (h.records id record hrecord).unconfirm, fun other call htoken => ?_⟩
        exact absurd rfl (token_of_erase htoken).1
      exact h.put hrecord hturn rfl rfl rfl (fun _ _ => rfl)
        (fun _ _ htoken => (token_of_erase htoken).2) ⟨rfl, rfl, rfl⟩
  · exact ⟨h, Continues.of_records rfl⟩

theorem Kept.fenced (h : run.Kept) {index : Nat} {call changed : NativeCall}
    (hcall : run.calls[index]? = some call)
    (hbecomes : (run.fence index call.sessionId).Becomes index call changed) :
    ((run.fence index call.sessionId).setCall index changed).Kept ∧
      run.Continues ((run.fence index call.sessionId).setCall index changed) := by
  rcases h.fence index call.sessionId with ⟨hkept, hcontinues⟩
  have hstill : (run.fence index call.sessionId).calls[index]? = some call := by
    rw [fence_calls]
    exact hcall
  exact ⟨hkept.setCall hstill hbecomes, hcontinues.congr rfl⟩

theorem Kept.abort (h : run.Kept) (index : Nat) :
    (run.abort index).Kept ∧ run.Continues (run.abort index) := by
  unfold NativeSessions.abort
  split
  · exact ⟨h, Continues.of_records rfl⟩
  · rename_i call hcall
    split
    · exact ⟨h, Continues.of_records rfl⟩
    · refine h.fenced hcall ⟨rfl, rfl, fun hawaiting => hawaiting, fun event hmet _ _ => ?_⟩
      dsimp only at hmet
      split at hmet
      · cases hmet
      · exact Or.inl hmet

theorem Becomes.ends {index : Nat} {call changed : NativeCall}
    (hsession : changed.sessionId = call.sessionId) (hoperation : changed.operation = call.operation)
    (hstage : changed.stage ≠ .awaiting) (hwait : changed.wait = call.wait) :
    run.Becomes index call changed :=
  ⟨hsession, hoperation, fun hawaiting => absurd hawaiting hstage,
    fun _ hmet _ _ => Or.inl (hwait.symm.trans hmet)⟩

theorem Kept.finish (h : run.Kept) (index : Nat) :
    (run.finish index).Kept ∧ run.Continues (run.finish index) := by
  unfold NativeSessions.finish
  split
  · exact ⟨h, Continues.of_records rfl⟩
  · rename_i call hcall
    split
    · exact h.fenced hcall (.ends rfl rfl (fun heq => by cases heq) rfl)
    · split
      · have hended : (run.setCall index { call with stage := .ended }).Kept :=
          h.setCall hcall (.ends rfl rfl (fun heq => by cases heq) rfl)
        dsimp only
        split
        · rcases hended.release call.sessionId with ⟨hkept, hcontinues⟩
          exact ⟨hkept, hcontinues⟩
        · exact ⟨hended, Continues.of_records rfl⟩
      · exact ⟨h, Continues.of_records rfl⟩

theorem Kept.commits (h : run.Kept) {index : Nat} {call : NativeCall} {stage : CallStage}
    (hcall : run.calls[index]? = some call)
    (htoken : run.mutations.get? call.sessionId = some index)
    (hrecord : run.records.get? call.sessionId = some record) (hstage : stage ≠ .awaiting)
    (hfollows : record.Follows after) (hstopped : after.stoppedAt = record.stoppedAt)
    (hobserved : after.observed = record.observed)
    (hfits : after.Fits call.sessionId run.sent ((run.positions.get? call.sessionId).getD 0)) :
    ((run.put call.sessionId after).setCall index { call with stage }).Kept ∧
      run.Continues ((run.put call.sessionId after).setCall index { call with stage }) := by
  have hended : (run.setCall index { call with stage }).Kept :=
    h.setCall hcall (.ends rfl rfl hstage rfl)
  have hlt : index < run.calls.length := (List.getElem?_eq_some_iff.mp hcall).1
  have hturn : (run.setCall index { call with stage }).Turn
      ((run.setCall index { call with stage }).put call.sessionId after) call.sessionId record
      after := by
    refine ⟨hfollows, hstopped, ⟨[], hobserved.trans (List.append_nil _).symm⟩, hfits, ?_⟩
    intro other found hother hfound hawaiting
    -- only this call has the token, and it no longer waits
    cases htoken.symm.trans hother
    change (run.calls.set index { call with stage })[index]? = some found at hfound
    rw [List.getElem?_set_self hlt] at hfound
    cases hfound
    exact absurd hawaiting hstage
  rcases hended.put hrecord hturn rfl rfl rfl (fun _ _ => rfl) (fun _ _ hsame => hsame)
    ⟨rfl, rfl, rfl⟩ with ⟨hkept, hcontinues⟩
  exact ⟨hkept, hcontinues⟩

theorem Kept.commit (h : run.Kept) (texts : JsonTexts) {index : Nat} {call : NativeCall}
    {event : HarnessEvent} (hcall : run.calls[index]? = some call) (hawaiting : call.stage = .awaiting)
    (hmet : call.wait = .met event)
    (htoken : run.mutations.get? call.sessionId = some index) :
    (run.commit texts index call event).Kept ∧
      run.Continues (run.commit texts index call event) := by
  rcases h.calls index call hcall hawaiting htoken with ⟨record, hrecord, hcallFits⟩
  have hfits := h.records _ record hrecord
  unfold NativeSessions.commit
  rw [hrecord]
  dsimp only
  split
  · rename_i payload readiness hoperation
    rw [hoperation] at hcallFits
    rcases hcallFits with ⟨hopening, hpayload⟩
    have hundisturbed : Undisturbed record.observed := by
      apply hfits.undisturbed
      rw [hopening]
      rfl
    have hposition : (run.positions.get? call.sessionId).getD 0 = highest record.observed := by
      apply hfits.position
      rw [hopening]
      exact fun heq => nomatch heq
    split
    · refine h.commits hcall htoken hrecord (fun heq => nomatch heq) ?_ rfl rfl ?_
      · refine ⟨rfl, fun hclosed => ?_, fun hlate => hlate, fun hactive => ?_⟩
        · cases hopening.symm.trans hclosed
        · cases hopening.symm.trans hactive
      · refine ⟨hfits.named, fun _ => hposition, fun _ => hundisturbed, fun hactive => ?_,
          fun hclosed => ?_, hfits.stoppedAt, hfits.attempted⟩
        · cases hopening.symm.trans hactive
        · cases hopening.symm.trans hclosed
    · rename_i hmatches
      refine h.commits hcall htoken hrecord (fun heq => nomatch heq) ?_ rfl rfl ?_
      · refine ⟨rfl, fun hclosed => ?_, fun hlate => ?_, fun hactive => ?_⟩
        · cases hopening.symm.trans hclosed
        · rw [hopening] at hlate
          cases hlate
        · cases hopening.symm.trans hactive
      · refine ⟨hfits.named, fun _ => hposition, fun _ => hundisturbed, fun hactive => ?_,
          fun hclosed => ?_, hfits.stoppedAt, hfits.attempted⟩
        · dsimp only at hactive
          split at hactive
          · rename_i hready
            rw [hpayload.symm] at hready hmatches
            rw [hready, not_and, Bool.not_eq_true] at hmatches
            exact configured_of_ready hready (hmatches rfl) (by rw [hpayload]) rfl
          · cases hactive
        · dsimp only at hclosed
          split at hclosed
          · cases hclosed
          · cases hclosed
  · rename_i providerInstanceId hoperation
    rw [hoperation] at hcallFits
    rcases hcallFits with ⟨hclosing, hprovider, hstop, place, hplace, hobserved⟩
    rcases hobserved event hmet with ⟨hmem, hconfirms⟩
    refine h.commits hcall htoken hrecord (fun heq => nomatch heq) ?_ rfl rfl ?_
    · refine ⟨rfl, fun hclosed => ?_, fun _ => rfl, fun hactive => ?_⟩
      · cases hclosing.symm.trans hclosed
      · cases hclosing.symm.trans hactive
    · refine ⟨hfits.named, fun hopen => absurd rfl hopen, fun hlate => (nomatch hlate),
        fun hactive => (nomatch hactive), fun _ => ?_, hfits.stoppedAt, hfits.attempted⟩
      refine ⟨hstop, place, event, hplace, hmem, ?_, rfl⟩
      dsimp only
      rw [hprovider]
      exact hconfirms

theorem Kept.proceed (h : run.Kept) (texts : JsonTexts) (index : Nat) :
    (run.proceed texts index).Kept ∧ run.Continues (run.proceed texts index) := by
  unfold NativeSessions.proceed
  split
  · exact ⟨h, Continues.of_records rfl⟩
  · rename_i call hcall
    have hthrows : (run.setCall index { call with stage := .throwing }).Kept :=
      h.setCall hcall (.ends rfl rfl (fun heq => nomatch heq) rfl)
    split
    · rename_i hawaiting
      split
      · exact ⟨h, Continues.of_records rfl⟩
      · exact ⟨h, Continues.of_records rfl⟩
      · exact ⟨hthrows, Continues.of_records rfl⟩
      · exact ⟨hthrows, Continues.of_records rfl⟩
      · rename_i event _ hmet
        split
        · exact ⟨hthrows, Continues.of_records rfl⟩
        · rename_i hholds
          rw [not_or, not_not] at hholds
          exact h.commit texts hcall hawaiting hmet hholds.2
    · exact ⟨h, Continues.of_records rfl⟩

/-! ## Calls begin -/

/-- The commands after a dispatch. -/
def sentWith (sends : Bool) (command : NativeCommand) (sent : List NativeCommand) :
    List NativeCommand :=
  if sends then sent ++ [command] else sent

theorem mem_sentWith {sends : Bool} {command found : NativeCommand} {sent : List NativeCommand}
    (h : found ∈ sentWith sends command sent) : found ∈ sent ∨ found = command := by
  unfold sentWith at h
  split at h
  · rcases List.mem_append.mp h with hold | hnew
    · exact Or.inl hold
    · exact Or.inr (List.mem_singleton.mp hnew)
  · exact Or.inl h

theorem mem_sentWith_of_mem (sends : Bool) (command : NativeCommand) {found : NativeCommand}
    {sent : List NativeCommand} (h : found ∈ sent) : found ∈ sentWith sends command sent := by
  unfold sentWith
  split
  · exact List.mem_append_left _ h
  · exact h

theorem Kept.dispatch (h : run.Kept) (texts : JsonTexts) (sends : Bool)
    (operation : NativeOperation) (command : NativeCommand) (after : NativeSession)
    (hsends : run.subscribed = false → sends = false)
    (hcommand : command = .start id ∨ command = .stop id) (hunsent : command ∉ run.sent)
    (hfollows : ∀ record, run.records.get? id = some record → record.Follows after)
    (hfits : after.Fits id (sentWith sends command run.sent) ((run.positions.get? id).getD 0))
    (hcall : sends = true → match operation with
      | .openSession payload _ => after.phase = .opening ∧ after.payload = payload
      | .closeSession providerInstanceId => after.phase = .closing ∧
        after.payload.providerInstanceId = providerInstanceId ∧ command = .stop id ∧
        ∃ place, after.stoppedAt = some place)
    (hexclusive : (run.put id after).Exclusive) :
    (run.dispatch texts sends id operation command after).Kept ∧
      run.Continues (run.dispatch texts sends id operation command after) := by
  have hother : ∀ other found, other ≠ id → (run.records.set id after).get? other = some found →
      run.records.get? other = some found :=
    fun other found hne hfound => (Dict.get?_set_of_ne _ _ hne).symm.trans hfound
  have hstill : ∀ other found, other ≠ id → run.records.get? other = some found →
      (run.records.set id after).get? other = some found :=
    fun other found hne hfound => (Dict.get?_set_of_ne _ _ hne).trans hfound
  unfold NativeSessions.dispatch
  refine ⟨?_, fun other record hrecord => ?_⟩
  · constructor
    · dsimp only
      split
      · refine List.nodup_append.mpr ⟨h.sent, List.nodup_singleton _, ?_⟩
        intro first hfirst second hsecond heq
        rw [List.mem_singleton.mp hsecond] at heq
        exact hunsent (heq ▸ hfirst)
      · exact h.sent
    · intro other hsome
      dsimp only
      by_cases heq : other = id
      · rw [heq, Dict.get?_set_self]
        rfl
      · rw [Dict.get?_set_of_ne _ _ heq]
        apply h.known other
        rcases hsome with hstart | hstop
        · rcases mem_sentWith hstart with hold | hnew
          · exact Or.inl hold
          · rcases hcommand with rfl | rfl
            · cases hnew
              exact absurd rfl heq
            · cases hnew
        · rcases mem_sentWith hstop with hold | hnew
          · exact Or.inr hold
          · rcases hcommand with rfl | rfl
            · cases hnew
            · cases hnew
              exact absurd rfl heq
    · intro other found hfound
      by_cases heq : other = id
      · subst heq
        cases (Dict.get?_set_self _ _ _).symm.trans hfound
        exact hfits
      · refine (h.records other found (hother other found heq hfound)).sends
          (fun _ hmem => mem_sentWith_of_mem sends command hmem) fun hstop => ?_
        rcases mem_sentWith hstop with hold | hnew
        · exact hold
        · rcases hcommand with rfl | rfl
          · cases hnew
          · cases hnew
            exact absurd rfl heq
    · intro other hnone
      have hne : other ≠ id := by
        rintro rfl
        cases (Dict.get?_set_self _ _ _).symm.trans hnone
      exact h.unknown other ((Dict.get?_set_of_ne _ _ hne).symm.trans hnone)
    · exact hexclusive
    · intro index call hfound hawaiting htoken
      dsimp only at hfound htoken ⊢
      by_cases hlt : index < run.calls.length
      · rw [List.getElem?_append_left hlt] at hfound
        have hne : call.sessionId ≠ id := by
          rintro rfl
          rw [Dict.get?_set_self] at htoken
          cases htoken
          exact Nat.lt_irrefl _ hlt
        rw [Dict.get?_set_of_ne _ _ hne] at htoken
        rcases h.calls index call hfound hawaiting htoken with ⟨record, hrecord, hcallFits⟩
        refine ⟨record, hstill _ record hne hrecord, ?_⟩
        cases hoperation : call.operation with
        | openSession payload readiness =>
          rw [hoperation] at hcallFits
          exact hcallFits
        | closeSession providerInstanceId =>
          rw [hoperation] at hcallFits
          exact ⟨hcallFits.1, hcallFits.2.1, mem_sentWith_of_mem sends command hcallFits.2.2.1,
            hcallFits.2.2.2⟩
      · -- the call that begins
        have hlength := (List.getElem?_eq_some_iff.mp hfound).1
        rw [List.length_append, List.length_singleton] at hlength
        have hlast : index = run.calls.length := by omega
        subst hlast
        rw [List.getElem?_concat_length] at hfound
        cases hfound
        have hsent : sends = true := by
          cases sends with
          | true => rfl
          | false => cases hawaiting
        refine ⟨after, Dict.get?_set_self _ _ _, ?_⟩
        have hnew := hcall hsent
        cases operation with
        | openSession payload readiness => exact hnew
        | closeSession providerInstanceId =>
          rcases hnew with ⟨hphase, hprovider, rfl, place, hplace⟩
          refine ⟨hphase, hprovider, ?_, place, hplace, fun event hmet => ?_⟩
          · dsimp only
            rw [if_pos hsent]
            exact List.mem_append_right _ List.mem_cons_self
          · cases hmet
    · intro other index htoken
      dsimp only at htoken ⊢
      rw [List.length_append, List.length_singleton]
      by_cases heq : other = id
      · rw [heq, Dict.get?_set_self] at htoken
        cases htoken
        exact Nat.lt_succ_self _
      · rw [Dict.get?_set_of_ne _ _ heq] at htoken
        exact Nat.lt_succ_of_lt (h.tokens other index htoken)
    · intro hdetached
      refine ⟨(h.detached hdetached).1, fun index call hfound hawaiting htoken => ?_⟩
      dsimp only at hfound htoken
      by_cases hlt : index < run.calls.length
      · rw [List.getElem?_append_left hlt] at hfound
        by_cases heq : call.sessionId = id
        · rw [heq, Dict.get?_set_self] at htoken
          cases htoken
          exact Nat.lt_irrefl _ hlt
        · rw [Dict.get?_set_of_ne _ _ heq] at htoken
          exact (h.detached hdetached).2 index call hfound hawaiting htoken
      · have hlength := (List.getElem?_eq_some_iff.mp hfound).1
        rw [List.length_append, List.length_singleton] at hlength
        have hlast : index = run.calls.length := by omega
        subst hlast
        rw [List.getElem?_concat_length] at hfound
        cases hfound
        rw [hsends hdetached] at hawaiting
        cases hawaiting
  · by_cases heq : other = id
    · subst heq
      exact ⟨after, Dict.get?_set_self _ _ _, hfollows record hrecord⟩
    · exact ⟨record, hstill other record heq hrecord, .refl record⟩

theorem Kept.refused (h : run.Kept) (hdisposed : run.disposed ≠ true) (sends : Bool)
    (hsubscribed : run.subscribed = false) : (sends && run.state == .accepted) = false := by
  rcases (h.detached hsubscribed).1 with hdone | hclosed
  · exact absurd hdone hdisposed
  · rw [hclosed]
    exact Bool.and_false sends

theorem Kept.openSession (h : run.Kept) (schemas : PayloadSchemas) (texts : JsonTexts)
    (payload : SessionStartPayload) (readiness : Readiness) (sends : Bool) :
    (run.openSession schemas texts payload readiness sends).Kept ∧
      run.Continues (run.openSession schemas texts payload readiness sends) := by
  unfold NativeSessions.openSession
  split
  · exact ⟨h, Continues.of_records rfl⟩
  · rename_i hallowed
    rw [not_or] at hallowed
    split
    · exact ⟨h, Continues.of_records rfl⟩
    · rename_i hunknown
      rw [not_or, Bool.not_eq_true, Option.isSome_eq_false_iff, Option.isNone_iff_eq_none] at hunknown
      split
      · exact ⟨h, Continues.of_records rfl⟩
      · rename_i hgroup
        split
        · exact ⟨h, Continues.of_records rfl⟩
        · have hnone := hunknown.1
          have hunsent : ∀ command, command = NativeCommand.start payload.sessionId ∨
              command = NativeCommand.stop payload.sessionId → command ∉ run.sent := by
            intro command hcommand hsent
            have hsome : (run.records.get? payload.sessionId).isSome = true := by
              apply h.known
              rcases hcommand with rfl | rfl
              · exact Or.inl hsent
              · exact Or.inr hsent
            rw [hnone] at hsome
            cases hsome
          apply h.dispatch texts _ _ _ _ (h.refused hallowed.1 sends) (Or.inl rfl)
            (hunsent _ (Or.inl rfl))
          · intro record hrecord
            cases hnone.symm.trans hrecord
          · constructor
            · rfl
            · intro _
              rw [h.unknown _ hnone]
              rfl
            · exact fun _ => .nil
            · exact fun hactive => by cases hactive
            · exact fun hclosed => by cases hclosed
            · exact fun place hplace => by cases hplace
            · intro hstop
              rcases mem_sentWith hstop with hold | hnew
              · exact absurd hold (hunsent _ (Or.inr rfl))
              · cases hnew
          · exact fun _ => ⟨rfl, rfl⟩
          · -- no session that is not closed has the key
            have hfree : ∀ other found key, run.records.get? other = some found →
                found.phase ≠ .closed → payload.continuationGroupKey = some key →
                found.payload.continuationGroupKey ≠ some key := by
              intro other found key hfound hopen hkey hsame
              apply hgroup
              rw [hkey, Option.any_some]
              unfold holdsGroup
              rw [List.any_eq_true]
              refine ⟨found, Dict.mem_values_of_get? hfound, ?_⟩
              rw [hsame, Bool.and_eq_true, bne_iff_ne]
              exact ⟨beq_self_eq_true _, hopen⟩
            intro first second one other key hne hone hother hfirst hsecond hkey hsame
            change (run.records.set _ _).get? first = some one at hone
            change (run.records.set _ _).get? second = some other at hother
            rw [Dict.get?_set] at hone hother
            by_cases heq : first = payload.sessionId
            · rw [if_pos heq] at hone
              rw [if_neg fun hsecond => hne (heq.trans hsecond.symm)] at hother
              cases hone
              exact hfree second other key hother hsecond hkey hsame
            · rw [if_neg heq] at hone
              by_cases heq' : second = payload.sessionId
              · rw [if_pos heq'] at hother
                cases hother
                exact hfree first one key hone hfirst hsame hkey
              · rw [if_neg heq'] at hother
                exact h.exclusive first second one other key hne hone hother hfirst hsecond hkey hsame

theorem Kept.closeSession (h : run.Kept) (texts : JsonTexts) (sessionId : String) (sends : Bool) :
    (run.closeSession texts sessionId sends).Kept ∧
      run.Continues (run.closeSession texts sessionId sends) := by
  unfold NativeSessions.closeSession
  split
  · exact ⟨h, Continues.of_records rfl⟩
  · rename_i hdisposed
    split
    · exact ⟨h, Continues.of_records rfl⟩
    · rename_i record hrecord
      have hfits := h.records sessionId record hrecord
      split
      · exact ⟨h, Continues.of_records rfl⟩
      · rename_i hallowed
        rw [not_or, not_or, not_or] at hallowed
        rcases hallowed with ⟨hopen, -, -, hunattempted⟩
        have hunsent : .stop sessionId ∉ run.sent :=
          fun hstop => hunattempted (hfits.attempted hstop)
        apply h.dispatch texts _ _ _ _ (h.refused hdisposed sends) (Or.inr rfl) hunsent
        · intro found hfound
          cases hrecord.symm.trans hfound
          exact ⟨rfl, fun hclosed => absurd hclosed hopen, fun _ => rfl,
            fun _ hactive => by cases hactive⟩
        · constructor
          · exact hfits.named
          · exact fun _ => hfits.position hopen
          · exact fun hlate => by cases hlate
          · exact fun hactive => by cases hactive
          · exact fun hclosed => by cases hclosed
          · intro place hplace
            dsimp only at hplace
            split at hplace
            · cases hplace
              exact Nat.le_refl _
            · cases hplace
          · exact fun _ => rfl
        · intro hsends
          refine ⟨rfl, rfl, rfl, record.observed.length, ?_⟩
          exact if_pos hsends
        · intro first second one other key hne hone hother hfirst hsecond hkey hsame
          change (run.records.set _ _).get? first = some one at hone
          change (run.records.set _ _).get? second = some other at hother
          rw [Dict.get?_set] at hone hother
          by_cases heq : first = sessionId
          · subst heq
            rw [if_pos rfl] at hone
            rw [if_neg hne.symm] at hother
            cases hone
            exact h.exclusive first second record other key hne hrecord hother hopen hsecond hkey hsame
          · rw [if_neg heq] at hone
            by_cases heq' : second = sessionId
            · subst heq'
              rw [if_pos rfl] at hother
              cases hother
              exact h.exclusive first second one record key hne hone hrecord hfirst hopen hkey hsame
            · rw [if_neg heq'] at hother
              exact h.exclusive first second one other key hne hone hother hfirst hsecond hkey hsame

/-! ## Runs -/

theorem Kept.opened (state : ConnectionState) (events : SessionEventReducer) :
    (opened state events).Kept := by
  constructor
  · exact List.nodup_nil
  · rintro id (hstart | hstop)
    · cases hstart
    · cases hstop
  · intro id record hrecord
    cases hrecord
  · exact fun _ _ => rfl
  · intro first second one other key _ hone
    cases hone
  · intro index call hcall
    cases hcall
  · intro id index htoken
    cases htoken
  · intro hsubscribed
    cases hsubscribed

theorem Kept.modify (h : run.Kept) (index : Nat) {f : NativeCall → NativeCall}
    (hf : ∀ (place : Nat) call, run.Becomes place call (f call)) :
    Kept { run with calls := run.calls.modify index f } := by
  refine h.answer _ (List.length_modify _ _ _) fun place after hafter => ?_
  rw [List.getElem?_modify] at hafter
  rcases Option.map_eq_some_iff.mp hafter with ⟨call, hcall, rfl⟩
  refine ⟨call, hcall, ?_⟩
  split
  · exact hf place call
  · exact ⟨rfl, rfl, fun hawaiting => hawaiting, fun event hmet _ _ => Or.inl hmet⟩

theorem Kept.step (h : run.Kept) (schemas : PayloadSchemas) (texts : JsonTexts)
    (action : NativeAction) : (run.step schemas texts action).Kept ∧
      run.Continues (run.step schemas texts action) := by
  unfold NativeSessions.step
  cases action with
  | receive message => exact h.receive schemas texts message
  | accept =>
    dsimp only
    split
    · rename_i hstate
      refine ⟨h.aside .accepted run.events run.untold fun hclosed => ?_, Continues.of_records rfl⟩
      cases hstate.symm.trans hclosed
    · exact ⟨h, Continues.of_records rfl⟩
  | disconnect => exact h.disconnect
  | tell =>
    dsimp only
    split
    · exact ⟨h, Continues.of_records rfl⟩
    · rename_i observation rest _
      rcases (h.aside run.state run.events rest id).tell observation with ⟨hkept, hcontinues⟩
      exact ⟨hkept, hcontinues⟩
  | openSession payload readiness sends => exact h.openSession schemas texts payload readiness sends
  | closeSession sessionId sends => exact h.closeSession texts sessionId sends
  | dispose => exact h.dispose
  | settle index acked =>
    exact ⟨h.modify index fun _ _ => ⟨rfl, rfl, fun hawaiting => hawaiting,
      fun event hmet _ _ => Or.inl hmet⟩, Continues.of_records rfl⟩
  | expire index =>
    refine ⟨h.modify index fun place call => ⟨rfl, rfl, fun hawaiting => hawaiting, ?_⟩,
      Continues.of_records rfl⟩
    intro event hmet _ _
    dsimp only at hmet
    split at hmet
    · cases hmet
    · exact Or.inl hmet
  | abort index => exact h.abort index
  | proceed index => exact h.proceed texts index
  | finish index => exact h.finish index

/-- What a registry never breaks. -/
structure Owned (run : NativeSessions) : Prop where
  once : ∀ id, run.sent.count (.start id) ≤ 1 ∧ run.sent.count (.stop id) ≤ 1
  exclusive : run.Exclusive
  active : ∀ id record, run.records.get? id = some record → record.phase = .active →
    record.Configured ∧ Undisturbed record.observed
  closed : ∀ id record, run.records.get? id = some record → record.phase = .closed →
    record.Ended id run.sent

theorem Kept.owned (h : run.Kept) : run.Owned where
  once := fun _ => ⟨List.nodup_iff_count_le_one.mp h.sent _, List.nodup_iff_count_le_one.mp h.sent _⟩
  exclusive := h.exclusive
  active := by
    intro id record hrecord hactive
    have hfits := h.records id record hrecord
    refine ⟨hfits.configured hactive, hfits.undisturbed ?_⟩
    rw [hactive]
    rfl
  closed := fun id record hrecord hclosed => (h.records id record hrecord).ended hclosed

def ActiveAt (id : String) (run : NativeSessions) : Prop :=
  ∃ record, run.records.get? id = some record ∧ record.phase = .active

/-- What becomes of the sessions of a run later: a closed one stays as it is, one that is not
confirmed does not come back. -/
def Settles (run later : NativeSessions) : Prop :=
  ∀ id record, run.records.get? id = some record → ∃ after, later.records.get? id = some after ∧
    (record.phase = .closed → after = record) ∧
    (record.phase = .unconfirmed →
      after.phase = .closing ∨ after.phase = .closed ∨ after.phase = .unconfirmed)

/-- While a session stays active it has one native conversation. -/
def KeepsReference (schemas : PayloadSchemas) (texts : JsonTexts) (run : NativeSessions)
    (actions : List NativeAction) : Prop :=
  ∀ id record after, run.records.get? id = some record →
    (Library.run (NativeSessions.step schemas texts) run actions).records.get? id = some after →
    Always (NativeSessions.step schemas texts) (ActiveAt id) run actions →
    after.configured.bind nativeReference = record.configured.bind nativeReference

theorem late_cases {phase : SessionPhase} (h : phase.late = true) :
    phase = .closing ∨ phase = .closed ∨ phase = .unconfirmed := by
  cases phase with
  | closing => exact Or.inl rfl
  | closed => exact Or.inr (Or.inl rfl)
  | unconfirmed => exact Or.inr (Or.inr rfl)
  | opening => cases h
  | reserved => cases h
  | active => cases h

theorem Kept.rest (h : run.Kept) (schemas : PayloadSchemas) (texts : JsonTexts)
    (actions : List NativeAction) (hrecord : run.records.get? id = some record) :
    ∃ after, (Library.run (NativeSessions.step schemas texts) run actions).records.get? id =
      some after ∧ (record.phase = .closed → after = record) ∧
      (record.phase.late = true → after.phase.late = true) := by
  induction actions generalizing run record with
  | nil => exact ⟨record, hrecord, fun _ => rfl, fun hlate => hlate⟩
  | cons action rest ih =>
    rcases h.step schemas texts action with ⟨hkept, hcontinues⟩
    rcases hcontinues id record hrecord with ⟨middle, hmiddle, hfollows⟩
    rcases ih hkept hmiddle with ⟨after, hafter, hclosed, hlate⟩
    refine ⟨after, hafter, fun hended => ?_, fun hgone => hlate (hfollows.late hgone)⟩
    have hsame := hfollows.closed hended
    rw [hsame] at hclosed
    exact hclosed hended

theorem Kept.keepsReference (h : run.Kept) (schemas : PayloadSchemas) (texts : JsonTexts)
    (actions : List NativeAction) : run.KeepsReference schemas texts actions := by
  intro id record after hrecord hafter halways
  induction actions generalizing run record with
  | nil =>
    cases hrecord.symm.trans hafter
    rfl
  | cons action rest ih =>
    rcases h.step schemas texts action with ⟨hkept, hcontinues⟩
    rcases hcontinues id record hrecord with ⟨middle, hmiddle, hfollows⟩
    rcases halways.1 with ⟨active, hactive, hphase⟩
    cases hrecord.symm.trans hactive
    rcases halways.2.head with ⟨still, hstill, hstillPhase⟩
    cases hmiddle.symm.trans hstill
    exact (ih hkept middle hmiddle hafter halways.2).trans (hfollows.reference hphase hstillPhase)

end NativeSessions

/-- In every run of a registry the commands of a session are sent once, the open sessions of a
continuation group exclude each other, active and closed sessions have their proofs, and sessions
that are closed or not confirmed do not come back. -/
theorem native_sessions_owned (schemas : PayloadSchemas) (texts : JsonTexts)
    (state : ConnectionState) (events : SessionEventReducer) (first second : List NativeAction) :
    let run := Library.run (NativeSessions.step schemas texts) (NativeSessions.opened state events)
      first
    run.Owned ∧ run.Settles (Library.run (NativeSessions.step schemas texts) run second) ∧
      run.KeepsReference schemas texts second := by
  intro run
  have halways := always_of_inv
    (fun run action (hrun : NativeSessions.Kept run) => (hrun.step schemas texts action).1)
    (NativeSessions.Kept.opened state events) first
  have hkept : run.Kept := halways.last
  refine ⟨hkept.owned, fun id record hrecord => ?_, hkept.keepsReference schemas texts second⟩
  rcases hkept.rest schemas texts second hrecord with ⟨after, hafter, hclosed, hlate⟩
  refine ⟨after, hafter, hclosed, fun hunconfirmed => ?_⟩
  rw [hunconfirmed] at hlate
  exact NativeSessions.late_cases (hlate rfl)

def physicalEvent (sequence : Nat) (eventType : String) : HarnessEvent where
  sessionId := "physical"
  turnId := none
  sequence
  eventType
  createdAt := 0
  data := .obj <| .ofList [("execution_profile", .str "interactive"),
    ("native_conversation_ready", .bool true), ("native_reference", .str "thread")]

def physicalStart : SessionStartPayload where
  sessionId := "physical"
  workspaceId := "workspace"
  providerInstanceId := "native"
  driverKind := "codex"
  continuationGroupKey := some "conversation"
  cwd := "/fixture"
  continueSession := false
  conversationTransition := none
  expectedNativeReference := none
  policyControlAuthority := none
  executionProfile := some "interactive"
  approvalPolicy := .ask
  approvalReviewer := none
  approvalOptions := none
  firstTurn := none
  settings := .null

/-- A complete snapshot takes the session back to its configuration; the exit that follows has a
sequence that was observed before. -/
def exitAfterSnapshot : List NativeAction :=
  [.openSession physicalStart .conversation true,
    .receive (.harnessEvent (physicalEvent 1 "session.configured")), .tell, .settle 0 true,
    .proceed 0, .finish 0,
    .receive (.harnessEvent (physicalEvent 2 "runtime.warning")), .tell,
    .receive (.sessionSnapshot {
      commandId := "c", sessionId := "physical", generatedAt := 0, complete := true
      sizeLimited := false, fromSequence := 1, throughSequence := 1
      events := [physicalEvent 1 "session.configured"], tombstones := [] }), .tell,
    .receive (.harnessEvent (physicalEvent 2 "session.exited")), .tell]

/-- An exit that was observed after the configuration of an active session. -/
theorem active_after_exit :
    ¬∀ (schemas : PayloadSchemas) (texts : JsonTexts) (state : ConnectionState)
      (events : SessionEventReducer) (actions : List NativeAction) (id : String)
      (record : NativeSession) (before rest : List SessionObservation)
      (configured exit : HarnessEvent),
      (Library.run (NativeSessions.step schemas texts) (NativeSessions.opened state events)
        actions).records.get? id = some record → record.phase = .active →
      record.configured = some configured →
      record.observed = before ++ .event configured :: rest → .event exit ∈ rest →
      exit.eventType ≠ "session.exited" := by
  intro h
  have hrun : (Library.run (NativeSessions.step plainSchemas SessionEventReducer.plainTexts)
      (NativeSessions.opened .accepted .fresh) exitAfterSnapshot).records.get? "physical" =
      some ⟨physicalStart, .active, false, some (physicalEvent 1 "session.configured"), none,
        [.event (physicalEvent 1 "session.configured"), .event (physicalEvent 2 "runtime.warning"),
          .event (physicalEvent 1 "session.configured"),
          .event (physicalEvent 2 "session.exited")], none⟩ := by
    decide +kernel
  refine h _ _ _ _ _ _ _ [] _ _ (physicalEvent 2 "session.exited") hrun rfl rfl rfl ?_ rfl
  decide

end HarnessControl.Sdk
