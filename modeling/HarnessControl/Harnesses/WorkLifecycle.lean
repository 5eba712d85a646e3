import HarnessControl.Harnesses.WorkOperations
import HarnessControl.State.ExecutionBindings

/-!
# Histories of native work

What was committed of a work are versions of one execution, and the store holds the last of them: as
an item, or after its retirement as a tombstone.
-/

namespace HarnessControl.Harnesses

open HarnessControl.Library HarnessControl.Protocol HarnessControl.State

/-! ## Histories of committed changes -/

/-- What a change of a work keeps of an earlier one; nothing follows a retirement. -/
structure WorkCommit.FollowedBy (old new : WorkCommit) : Prop where
  execution : NativeWorkRecord.execution new.work = NativeWorkRecord.execution old.work
  revision : old.work.revision < new.work.revision
  terminal : isNativeWorkTerminal old.work.status = true → new.work.status = old.work.status
  unretired : old.retired = false

theorem WorkCommit.FollowedBy.trans (a b c : WorkCommit) (hab : a.FollowedBy b)
    (hbc : b.FollowedBy c) : a.FollowedBy c where
  execution := hbc.execution.trans hab.execution
  revision := Int.lt_trans hab.revision hbc.revision
  terminal hdone := by
    have hb := hab.terminal hdone
    rw [← hb] at hdone ⊢
    exact hbc.terminal hdone
  unretired := hab.unretired

def WorkCommit.tombstone (commit : WorkCommit) : NativeWorkRecord :=
  { commit.work with revision := commit.work.revision - 1 }

/-- The history of a session's work, and what the store holds of it. -/
structure Recorded (state : Option NativeWorkState) (turns : List String)
    (commits : List WorkCommit) : Prop where
  versions : Versioned WorkCommit.workId WorkCommit.FollowedBy commits
  parents : ParentsKnown WorkCommit.workId WorkCommit.parent commits
  origins : ∀ commit ∈ commits, commit.work.originTurnId ∈ turns
  items : ∀ id, (state.bind fun state => state.items.get? id) =
    ((latest WorkCommit.workId commits id).filter fun commit => !commit.retired).map
      WorkCommit.work
  retired : ∀ id, (state.bind fun state => state.retired.get? id) =
    ((latest WorkCommit.workId commits id).filter fun commit => commit.retired).map
      WorkCommit.tombstone

namespace Recorded

theorem empty (turns : List String) : Recorded none turns [] where
  versions := List.Pairwise.nil
  parents := Throughout.nil _
  origins commit hmem := absurd hmem List.not_mem_nil
  items id := by
    rw [latest_nil]
    rfl
  retired id := by
    rw [latest_nil]
    rfl

variable {state : NativeWorkState} {turns : List String} {commits : List WorkCommit}

theorem item (h : Recorded (some state) turns commits) {id : String} {work : NativeWorkRecord}
    (hitem : state.items.get? id = some work) :
    ∃ commit, latest WorkCommit.workId commits id = some commit ∧ commit.retired = false ∧
      commit.work = work := by
  have hitems := h.items id
  rw [Option.bind_some, hitem] at hitems
  rcases Option.map_eq_some_iff.mp hitems.symm with ⟨commit, hcommit, hwork⟩
  rcases Option.filter_eq_some_iff.mp hcommit with ⟨hlatest, hactive⟩
  exact ⟨commit, hlatest, by simpa using hactive, hwork⟩

theorem item_active (h : Recorded (some state) turns commits) {id : String}
    {work : NativeWorkRecord} (hitem : state.items.get? id = some work) :
    work.workId = id ∧ state.retired.get? id = none := by
  rcases h.item hitem with ⟨commit, hlatest, hactive, rfl⟩
  refine ⟨(latest_mem hlatest).2, ?_⟩
  have hretired := h.retired id
  rw [Option.bind_some, hlatest, Option.filter_some, hactive] at hretired
  exact hretired

theorem latest_of_work (h : Recorded (some state) turns commits) {id : String}
    {work : NativeWorkRecord} (hwork : state.work? id = some work) :
    ∃ commit, latest WorkCommit.workId commits id = some commit ∧
      work.originTurnId = commit.work.originTurnId := by
  unfold NativeWorkState.work? at hwork
  rcases Option.or_eq_some_iff.mp hwork with hitem | ⟨-, htomb⟩
  · rcases h.item hitem with ⟨commit, hlatest, -, rfl⟩
    exact ⟨commit, hlatest, rfl⟩
  · have hretired := h.retired id
    rw [Option.bind_some, htomb] at hretired
    rcases Option.map_eq_some_iff.mp hretired.symm with ⟨commit, hcommit, rfl⟩
    exact ⟨commit, (Option.filter_eq_some_iff.mp hcommit).1, rfl⟩

theorem congr {before after : Option NativeWorkState} (h : Recorded before turns commits)
    (hitems : ∀ id, (after.bind fun state => state.items.get? id) =
      before.bind fun state => state.items.get? id)
    (hretired : ∀ id, (after.bind fun state => state.retired.get? id) =
      before.bind fun state => state.retired.get? id) : Recorded after turns commits where
  versions := h.versions
  parents := h.parents
  origins := h.origins
  items id := (hitems id).trans (h.items id)
  retired id := (hretired id).trans (h.retired id)

theorem extend {before : Option NativeWorkState} (h : Recorded before turns commits)
    (commit : WorkCommit)
    (hfollows : ∀ last, latest WorkCommit.workId commits commit.workId = some last →
      last.FollowedBy commit)
    (hnew : latest WorkCommit.workId commits commit.workId = none →
      (∀ id ∈ commit.parent, id ∈ commits.map WorkCommit.workId) ∧
      commit.work.originTurnId ∈ turns) :
    Versioned WorkCommit.workId WorkCommit.FollowedBy (commits ++ [commit]) ∧
      ParentsKnown WorkCommit.workId WorkCommit.parent (commits ++ [commit]) ∧
      ∀ other ∈ commits ++ [commit], other.work.originTurnId ∈ turns := by
  have hroots : (∀ id ∈ commit.parent, id ∈ commits.map WorkCommit.workId) ∧
      commit.work.originTurnId ∈ turns := by
    cases hlatest : latest WorkCommit.workId commits commit.workId with
    | none => exact hnew hlatest
    | some last =>
      -- the execution is that of the latest change, whose parent and origin are known
      have hmem := (latest_mem hlatest).1
      have hsame := (hfollows last hlatest).execution
      have hparent : commit.parent = last.parent := congrArg WorkExecution.parentWorkId hsame
      have horigin : commit.work.originTurnId = last.work.originTurnId :=
        congrArg WorkExecution.originTurnId hsame
      rw [hparent, horigin]
      exact ⟨h.parents.known hmem, h.origins last hmem⟩
  refine ⟨h.versions.concat WorkCommit.FollowedBy.trans hfollows,
    throughout_concat.mpr ⟨h.parents, hroots.1⟩, fun other hother => ?_⟩
  rcases List.mem_append.mp hother with hold | hlast
  · exact h.origins other hold
  · rw [List.mem_singleton.mp hlast]
    exact hroots.2

theorem update (h : Recorded (some state) turns commits) {after : NativeWorkState}
    {work : NativeWorkRecord} (hcontinues : Continues state work)
    (hnew : state.items.get? work.workId = none →
      (∀ id ∈ work.parentWorkId, ∃ parent, state.work? id = some parent) ∧
      work.originTurnId ∈ turns)
    (hitems : after.items = state.items.set work.workId work)
    (hretired : after.retired = state.retired) (owned : Bool) :
    Recorded (some after) turns (commits ++ [⟨work, false, owned⟩]) := by
  have hextend := h.extend ⟨work, false, owned⟩
    (by
      intro last hlast
      have hlatest : latest WorkCommit.workId commits work.workId = some last := hlast
      have hactive : last.retired = false := by
        have htomb := h.retired work.workId
        rw [Option.bind_some, hcontinues.unretired, hlatest, Option.filter_some] at htomb
        cases hcase : last.retired with
        | false => rfl
        | true => simp [hcase] at htomb
      have hitem := h.items work.workId
      rw [Option.bind_some, hlatest, Option.filter_some, hactive] at hitem
      rcases hcontinues.follows last.work hitem with ⟨hexecution, hrevision, hterminal⟩
      exact ⟨hexecution, hrevision, hterminal, hactive⟩)
    (by
      intro hnone
      have hlatest : latest WorkCommit.workId commits work.workId = none := hnone
      have hitem := h.items work.workId
      rw [Option.bind_some, hlatest] at hitem
      rcases hnew hitem with ⟨hparents, horigin⟩
      refine ⟨fun id hid => ?_, horigin⟩
      rcases hparents id hid with ⟨parent, hparent⟩
      rcases h.latest_of_work hparent with ⟨commit, hcommit, -⟩
      rcases latest_mem hcommit with ⟨hmem, rfl⟩
      exact List.mem_map_of_mem hmem)
  refine ⟨hextend.1, hextend.2.1, hextend.2.2, fun id => ?_, fun id => ?_⟩
  · rw [Option.bind_some, hitems, latest_concat, Dict.get?_set]
    by_cases hid : id = work.workId
    · subst hid
      rw [if_pos rfl, if_pos (show WorkCommit.workId ⟨work, false, owned⟩ = work.workId from rfl)]
      rfl
    · rw [if_neg hid,
        if_neg (show WorkCommit.workId ⟨work, false, owned⟩ ≠ id from fun heq => hid heq.symm)]
      exact h.items id
  · rw [Option.bind_some, hretired, latest_concat]
    by_cases hid : id = work.workId
    · subst hid
      rw [if_pos (show WorkCommit.workId ⟨work, false, owned⟩ = work.workId from rfl),
        hcontinues.unretired]
      rfl
    · rw [if_neg (show WorkCommit.workId ⟨work, false, owned⟩ ≠ id from fun heq => hid heq.symm)]
      exact h.retired id

theorem retire (h : Recorded (some state) turns commits) {after : NativeWorkState}
    {work : NativeWorkRecord} (hitem : state.items.get? work.workId = some work)
    (hitems : after.items = state.items.erase work.workId)
    (hretired : after.retired = state.retired.set work.workId work) (owned : Bool) :
    Recorded (some after) turns
      (commits ++ [⟨{ work with revision := work.revision + 1 }, true, owned⟩]) := by
  rcases h.item hitem with ⟨last, hlast, hactive, hwork⟩
  have hextend := h.extend ⟨{ work with revision := work.revision + 1 }, true, owned⟩
    (by
      intro other hother
      have hsame : last = other := Option.some.inj (hlast.symm.trans hother)
      subst hsame
      rw [← hwork]
      exact ⟨rfl, Int.lt_succ _, fun _ => rfl, hactive⟩)
    (by
      intro hnone
      have hcontra := hlast.symm.trans hnone
      cases hcontra)
  have hname : WorkCommit.workId ⟨{ work with revision := work.revision + 1 }, true, owned⟩ =
    work.workId := rfl
  refine ⟨hextend.1, hextend.2.1, hextend.2.2, fun id => ?_, fun id => ?_⟩
  · rw [Option.bind_some, hitems, latest_concat, hname]
    by_cases hid : id = work.workId
    · subst hid
      rw [if_pos rfl, Dict.get?_erase_self]
      rfl
    · rw [if_neg fun heq => hid heq.symm, Dict.get?_erase_of_ne _ hid]
      exact h.items id
  · rw [Option.bind_some, hretired, latest_concat, hname, Dict.get?_set]
    by_cases hid : id = work.workId
    · subst hid
      rw [if_pos rfl, if_pos rfl]
      simp [WorkCommit.tombstone, Option.filter]
    · rw [if_neg hid, if_neg fun heq => hid heq.symm]
      exact h.retired id

end Recorded

end HarnessControl.Harnesses
