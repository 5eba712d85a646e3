import HarnessControl.Codex.GoalRuns

/-!
# A native goal that is followed

The server's history grows, and only a request to start the goal makes an inactive goal active.
With that every step of a timely run keeps what is known of the goal.
-/

namespace HarnessControl.Codex

open HarnessControl.Library

variable {run : GoalRun} {origin index place : Nat} {goal : CodexGoal}

/-! ## The history grows -/

theorem paused_ne_active : GoalStatus.paused ≠ .active :=
  fun heq => nomatch heq

namespace GoalServer

variable {server after : GoalServer} {snapshot : Snapshot}

/-- The server goes on without starting the goal. -/
structure Grows (before after : GoalServer) : Prop where
  job : ∀ job, before.job = some job → after.job = some job
  cleared : before.cleared = true → after.cleared = true
  history : after.history = before.history ∨ ∃ next, after.history = before.history ++ [next] ∧
    (next.status = .active → before.last.status = .active)
  inactive : before.active = false → after.active = false

theorem Grows.refl (server : GoalServer) : server.Grows server :=
  ⟨fun _ h => h, id, Or.inl rfl, id⟩

theorem last_append (status : GoalStatus) (progress : GoalProgress) (server : GoalServer) :
    (server.append status progress).history.getLast? =
      some (server.last.next status progress) := by
  unfold GoalServer.append
  exact List.getLast?_concat

theorem length_append (status : GoalStatus) (progress : GoalProgress) (server : GoalServer) :
    (server.append status progress).history.length = server.history.length + 1 := by
  unfold GoalServer.append
  dsimp only
  rw [List.length_append, List.length_singleton]

theorem inactive_append {status : GoalStatus} (hstatus : status ≠ .active)
    (progress : GoalProgress) (server : GoalServer) :
    (server.append status progress).active = false := by
  unfold GoalServer.active GoalServer.current
  rw [last_append]
  by_cases hcleared : (server.append status progress).cleared = true
  · rw [if_pos hcleared]
    rfl
  · rw [if_neg hcleared]
    cases (server.append status progress).job with
    | none => rfl
    | some job => exact beq_eq_false_iff_ne.mpr hstatus

theorem inactive_of_cleared (hcleared : server.cleared = true) : server.active = false := by
  unfold GoalServer.active GoalServer.current
  rw [if_pos hcleared]
  rfl

theorem inactive_of_none (hnone : server.job = none) : server.active = false := by
  unfold GoalServer.active GoalServer.current
  rw [hnone]
  split
  · rfl
  · rfl

theorem grows_append {status : GoalStatus} (hstatus : status ≠ .active) (progress : GoalProgress)
    (server : GoalServer) : server.Grows (server.append status progress) where
  job := fun _ h => h
  cleared := id
  history := Or.inr ⟨_, rfl, fun hactive => absurd hactive hstatus⟩
  inactive := fun _ => inactive_append hstatus progress server

theorem getLast?_of_active (h : server.last.status = .active) :
    server.history.getLast? = some server.last := by
  unfold GoalServer.last at h ⊢
  rw [List.getLastD_eq_getLast?] at h ⊢
  cases hlast : server.history.getLast? with
  | none =>
    rw [hlast] at h
    cases h
  | some snapshot => rfl

theorem grows_progress (progress : GoalProgress) (server : GoalServer) :
    server.Grows (server.progress progress) := by
  unfold GoalServer.progress
  by_cases hactive : progress.status = .active
  · by_cases hlast : server.last.status = .active
    · rw [if_neg fun h => h.2 hlast]
      refine ⟨fun _ h => h, id, Or.inr ⟨_, rfl, fun _ => hlast⟩, fun hinactive => ?_⟩
      -- the goal can only have been inactive because it is not there
      unfold GoalServer.active GoalServer.current at hinactive ⊢
      rw [last_append]
      rw [getLast?_of_active hlast] at hinactive
      by_cases hcleared : server.cleared = true
      · rw [if_pos (show (server.append progress.status progress).cleared = true from hcleared)]
        rfl
      · rw [if_neg hcleared] at hinactive
        rw [if_neg (show ¬(server.append progress.status progress).cleared = true from hcleared)]
        cases hjob : server.job with
        | none =>
          rw [show (server.append progress.status progress).job = none from hjob]
          rfl
        | some job =>
          rw [hjob, Option.any_some, hlast] at hinactive
          cases hinactive
    · rw [if_pos ⟨hactive, hlast⟩]
      exact grows_append hlast progress server
  · rw [if_neg fun h => hactive h.1]
    exact grows_append hactive progress server

/-! ### Requests -/

variable {threadId : String} {progress : GoalProgress} {request : GoalRequest}

theorem serve_pause : (server.serve threadId progress (.set .paused)).1.active = false := by
  unfold GoalServer.serve
  dsimp only
  split
  · rename_i hgone
    rcases hgone with hnone | hcleared
    · exact inactive_of_none (Option.isNone_iff_eq_none.mp hnone)
    · exact inactive_of_cleared hcleared
  · exact inactive_append paused_ne_active progress server

theorem serve_start (h : (server.serve threadId progress (.set .active)).2.isSome = true) :
    (server.serve threadId progress (.set .active)).1 = server.append progress.status progress := by
  unfold GoalServer.serve at h ⊢
  dsimp only at h ⊢
  split at h
  · cases h
  · rename_i hthere
    rw [if_neg hthere]

theorem serve_refused (h : (server.serve threadId progress (.set .active)).2.isSome ≠ true) :
    server.serve threadId progress (.set .active) = (server, none) := by
  unfold GoalServer.serve at h ⊢
  dsimp only at h ⊢
  split
  · rfl
  · rename_i hthere
    rw [if_neg hthere] at h
    apply absurd _ h
    rw [not_or] at hthere
    unfold GoalServer.answer GoalServer.current
    rw [last_append]
    have hcleared : ¬(server.append progress.status progress).cleared = true := hthere.2
    rw [if_neg hcleared]
    cases hjob : server.job with
    | none => exact absurd (Option.isNone_iff_eq_none.mpr hjob) hthere.1
    | some job =>
      rw [show (server.append progress.status progress).job = some job from hjob]
      rfl

theorem serve_grows (hrequest : ¬(request = .set .active ∧
    (server.serve threadId progress request).2.isSome = true)) :
    server.Grows (server.serve threadId progress request).1 := by
  cases request with
  | get => exact Grows.refl server
  | create objective tokenBudget =>
    unfold GoalServer.serve
    dsimp only
    split
    · exact Grows.refl server
    · rename_i hnone
      refine ⟨fun job hjob => ?_, id,
        Or.inr ⟨_, rfl, fun hactive => absurd hactive paused_ne_active⟩,
        fun _ => inactive_append paused_ne_active progress _⟩
      rw [hnone] at hjob
      cases hjob
  | set target =>
    cases target with
    | paused =>
      unfold GoalServer.serve
      dsimp only
      split
      · exact Grows.refl server
      · exact grows_append paused_ne_active progress server
    | active =>
      rw [serve_refused fun hanswered => hrequest ⟨rfl, hanswered⟩]
      exact Grows.refl server
  | clear =>
    exact ⟨fun _ h => h, fun _ => rfl, Or.inl rfl, fun _ => inactive_of_cleared rfl⟩

theorem serve_create {objective : String} {tokenBudget : Option Nat} {answer : GoalAnswer}
    (h : (server.serve threadId progress (.create objective tokenBudget)).2 = answer) :
    answer = none ∨ ∃ place goal, answer = some (place, goal) ∧ goal.threadId = threadId ∧
      goal.objective = objective ∧ goal.status = .paused ∧
      goal.tokenBudget.value = tokenBudget := by
  unfold GoalServer.serve at h
  dsimp only at h
  subst h
  split
  · exact Or.inl rfl
  · unfold GoalServer.answer GoalServer.current
    rw [last_append]
    split
    · exact Or.inl rfl
    · refine Or.inr ⟨_, _, rfl, rfl, rfl, rfl, ?_⟩
      unfold GoalJob.wire
      cases tokenBudget with
      | some budget => rfl
      | none =>
        dsimp only
        cases progress.omitted with
        | true => rfl
        | false => rfl

theorem answer_stands {omitted : Bool} (h : server.answer threadId omitted = some (place, goal)) :
    ∃ job snapshot, server.job = some job ∧ server.history[place]? = some snapshot ∧
      goal = job.wire threadId omitted snapshot ∧ place + 1 = server.history.length := by
  unfold GoalServer.answer GoalServer.current at h
  split at h
  · cases h
  · split at h
    · rename_i job snapshot hjob hlast
      cases h
      have hpos : 0 < server.history.length := by
        apply List.length_pos_of_ne_nil
        rintro hempty
        rw [hempty] at hlast
        cases hlast
      rw [List.getLast?_eq_getElem?] at hlast
      exact ⟨job, snapshot, hjob, hlast, rfl, by omega⟩
    · cases h

theorem serve_answer {answer : GoalAnswer}
    (h : (server.serve threadId progress request).2 = answer) :
    answer = none ∨
      answer = (server.serve threadId progress request).1.answer threadId progress.omitted := by
  subst h
  unfold GoalServer.serve
  cases request with
  | get => exact Or.inr rfl
  | create objective tokenBudget =>
    dsimp only
    split
    · exact Or.inl rfl
    · exact Or.inr rfl
  | set target =>
    dsimp only
    split
    · exact Or.inl rfl
    · exact Or.inr rfl
  | clear => exact Or.inl rfl

end GoalServer

namespace GoalRun

variable {server : GoalServer}

theorem Active.grown (hgrows : run.server.Grows server)
    (h : Active place { run with server }) :
    run.Active place ∨ place = run.server.history.length ∧
      ∃ before, before + 1 = place ∧ run.Active before := by
  rcases h with ⟨snapshot, hsnapshot, hstatus⟩
  dsimp only at hsnapshot
  rcases hgrows.history with hsame | ⟨next, hnext, hlast⟩
  · rw [hsame] at hsnapshot
    exact Or.inl ⟨snapshot, hsnapshot, hstatus⟩
  · rw [hnext] at hsnapshot
    by_cases hlt : place < run.server.history.length
    · rw [List.getElem?_append_left hlt] at hsnapshot
      exact Or.inl ⟨snapshot, hsnapshot, hstatus⟩
    · rw [List.getElem?_append_right (Nat.not_lt.mp hlt)] at hsnapshot
      have hplace := (List.getElem?_eq_some_iff.mp hsnapshot).1
      rw [List.length_singleton] at hplace
      have hzero : place - run.server.history.length = 0 := by omega
      rw [hzero] at hsnapshot
      cases hsnapshot
      have hactive := hlast hstatus
      have hbefore := GoalServer.getLast?_of_active hactive
      rw [List.getLast?_eq_getElem?] at hbefore
      have hpos := (List.getElem?_eq_some_iff.mp hbefore).1
      refine Or.inr ⟨by omega, run.server.history.length - 1, by omega, ?_⟩
      exact ⟨run.server.last, hbefore, hactive⟩

theorem history_grown (hgrows : run.server.Grows server) {snapshot : Snapshot}
    (h : run.server.history[place]? = some snapshot) : server.history[place]? = some snapshot := by
  rcases hgrows.history with hsame | ⟨next, hnext, -⟩
  · rw [hsame]
    exact h
  · have hlt := (List.getElem?_eq_some_iff.mp h).1
    rw [hnext, List.getElem?_append_left hlt]
    exact h

theorem Active.grow (hgrows : run.server.Grows server) (h : run.Active place) :
    Active place { run with server } := by
  rcases h with ⟨snapshot, hsnapshot, hstatus⟩
  exact ⟨snapshot, history_grown hgrows hsnapshot, hstatus⟩

theorem Stands.grow (hgrows : run.server.Grows server) (h : run.Stands place goal) :
    Stands place goal { run with server } := by
  rcases h with ⟨job, snapshot, omitted, hjob, hsnapshot, rfl⟩
  exact ⟨job, snapshot, omitted, hgrows.job job hjob, history_grown hgrows hsnapshot, rfl⟩

theorem Active.chain (hgrows : run.server.Grows server) {earlier later : Nat}
    (hchain : ∀ other, earlier ≤ other → run.Active other → run.Active earlier)
    (hle : earlier ≤ later) (h : Active later { run with server }) :
    Active earlier { run with server } := by
  rcases h.grown hgrows with hactive | ⟨hplace, before, hbefore, hactive⟩
  · exact (hchain later hle hactive).grow hgrows
  · rcases Nat.eq_or_lt_of_le hle with rfl | hlt
    · exact h
    · exact (hchain before (by omega) hactive).grow hgrows

theorem Advances.grow (hgrows : run.server.Grows server) : Advances run { run with server } where
  threadId := rfl
  prepared := rfl
  job := hgrows.job
  history := fun _ _ h => history_grown hgrows h
  cleared := hgrows.cleared
  stopped := id
  activation := rfl
  startedAt := rfl
  heldAt := Nat.le_refl _
  inactive := hgrows.inactive
  ends := fun hover => ⟨hover.stopped, hover.resolved⟩

theorem Steady.grow (h : run.Steady origin) (hgrows : run.server.Grows server) :
    Steady origin { run with server } := by
  constructor
  · intro goal hgoal
    exact ⟨(h.held goal hgoal).1.grow hgrows, (h.held goal hgoal).2⟩
  · intro hnone earlier later horigin hle
    exact Active.chain hgrows
      (fun other hother => h.quiet hnone earlier other horigin hother) hle
  · rintro hnone hsome ⟨snapshot, hsnapshot, hstatus⟩
    rcases Option.isSome_iff_exists.mp hsome with ⟨held, hheld⟩
    rcases (h.held held hheld).1 with ⟨job, found, omitted, -, hfound, -⟩
    cases (history_grown hgrows hfound).symm.trans hsnapshot
    exact h.idle hnone hsome ⟨snapshot, hfound, hstatus⟩
  · intro place hstarted
    refine ⟨(h.started place hstarted).1, fun earlier later hplace hle => ?_⟩
    exact Active.chain hgrows
      (fun other hother => (h.started place hstarted).2 earlier other hplace hother) hle
  · intro hprepared hnone
    exact hgrows.cleared (h.gone hprepared hnone)
  · rcases hgrows.history with hsame | ⟨next, hnext, -⟩
    · dsimp only
      rw [hsame]
      exact h.begun
    · dsimp only
      rw [hnext, List.length_append]
      exact Nat.le_add_right_of_le h.begun
  · exact ⟨h.kept.matched, h.kept.forward, h.kept.paused⟩

theorem Tracks.grow (h : run.Tracks origin) (hgrows : run.server.Grows server) :
    Tracks origin { run with server } :=
  h.advance rfl (Advances.grow hgrows) (h.steady.grow hgrows)

/-! ## Requests are served -/

theorem StageFits.answered {before after : GoalRun} {stage : GoalStage} {request : GoalRequest}
    {answer : GoalAnswer} (h : before.StageFits index stage (.sent request))
    (hadvances : Advances before after)
    (hstart : request = .set .active → answer = none)
    (hcreate : ∀ objective tokenBudget, request = .create objective tokenBudget →
      answer = none ∨ ∃ place goal, answer = some (place, goal) ∧
        goal.threadId = before.threadId ∧ goal.objective = objective ∧ goal.status = .paused ∧
        goal.tokenBudget.value = tokenBudget)
    (hpause : request = .set .paused → after.server.active = false)
    (hclear : request = .clear → after.server.cleared = true) :
    after.StageFits index stage (.answered answer) := by
  have hadvanced := h.advance hadvances
  cases stage with
  | prepareSet objective tokenBudget =>
    rcases hadvanced with ⟨hprepared, hsent | hnone | ⟨place, goal, hanswered, -⟩⟩
    · cases hsent
      refine ⟨hprepared, Or.inr ?_⟩
      rcases hcreate objective tokenBudget rfl with rfl | ⟨place, goal, rfl, hgoal⟩
      · exact Or.inl rfl
      · rw [hadvances.threadId]
        exact Or.inr ⟨place, goal, rfl, hgoal⟩
    · cases hnone
    · cases hanswered
  | activate part =>
    cases part with
    | reading => exact hadvanced
    | writing =>
      rcases hadvanced with ⟨hactivation, ⟨hnone, hsent | hanswered⟩ | hstarted⟩
      · cases hsent
        rw [hstart rfl]
        exact ⟨hactivation, Or.inl ⟨hnone, Or.inr rfl⟩⟩
      · cases hanswered
      · rcases hstarted with ⟨place, goal, -, hanswered⟩
        cases hanswered
  | pauseSet clears part =>
    refine ⟨hadvanced.1, fun hwriting => ?_⟩
    rcases hadvanced.2 hwriting with hsent | ⟨⟨other, hanswered⟩, -⟩
    · cases hsent
      exact Or.inr ⟨⟨answer, rfl⟩, hpause rfl⟩
    · cases hanswered
  | clearSend =>
    refine ⟨hadvanced.1, Or.inr ?_⟩
    rcases hadvanced.2 with hsent | hcleared
    · cases hsent
      exact hclear rfl
    · exact hcleared
  | prepareRead objective tokenBudget => exact hadvanced
  | resumeRead expectedCreatedAt => exact hadvanced
  | resumePause part => exact hadvanced
  | activateStop part => exact hadvanced
  | pauseWait force clears => exact hadvanced
  | clearRead => exact hadvanced
  | clearReread => exact hadvanced
  | resolved => exact hadvanced
  | rejected => trivial

variable {progress : GoalProgress}

theorem Stands.served {request : GoalRequest}
    (h : (run.server.serve run.threadId progress request).2 = some (place, goal)) :
    Stands place goal { run with server := (run.server.serve run.threadId progress request).1 } ∧
      place + 1 = (run.server.serve run.threadId progress request).1.history.length := by
  rcases GoalServer.serve_answer h with hnone | hanswer
  · cases hnone
  · rcases GoalServer.answer_stands hanswer.symm with ⟨job, snapshot, hjob, hplace, rfl, hlength⟩
    exact ⟨⟨job, snapshot, progress.omitted, hjob, hplace, rfl⟩, hlength⟩

theorem Tracks.answered (h : run.Tracks origin) {stage : GoalStage} {request : GoalRequest}
    (hcall : run.calls[index]? = some ⟨stage, .sent request⟩)
    (hrequest : ¬(request = .set .active ∧
      (run.server.serve run.threadId progress request).2.isSome = true)) :
    Tracks origin (GoalRun.setCall index stage
      (.answered (run.server.serve run.threadId progress request).2)
      { run with server := (run.server.serve run.threadId progress request).1 }) := by
  have hgrows := GoalServer.serve_grows hrequest
  have hsteady := h.steady.grow hgrows
  have hadvances : Advances run (GoalRun.setCall index stage
      (.answered (run.server.serve run.threadId progress request).2)
      { run with server := (run.server.serve run.threadId progress request).1 }) :=
    { Advances.grow hgrows with
      ends := fun hover => ⟨hover.stopped, (hover.setCall hcall id
        (.answered (run.server.serve run.threadId progress request).2)).resolved⟩ }
  apply h.setCall { run with server := (run.server.serve run.threadId progress request).1 } hcall id
    rfl (Advances.grow hgrows) hsteady
  constructor
  · apply StageFits.answered (h.calls index _ hcall).stage hadvances
    · rintro rfl
      rw [GoalServer.serve_refused fun hanswered => hrequest ⟨rfl, hanswered⟩]
    · rintro objective tokenBudget rfl
      exact GoalServer.serve_create rfl
    · rintro rfl
      exact GoalServer.serve_pause
    · rintro rfl
      rfl
  · exact fun hsent => nomatch hsent
  · intro place goal hanswered
    rcases Stands.served (GoalWait.answered.inj hanswered) with ⟨hstands, hplace⟩
    refine ⟨hstands, ?_⟩
    have hbegun := hsteady.begun
    dsimp only at hbegun
    omega

theorem Steady.start (h : run.Steady origin) (hactivation : run.owner.activation.isSome = true)
    (status : GoalStatus) (progress : GoalProgress) : Steady origin { run with
      server := run.server.append status progress
      startedAt := some run.server.history.length } := by
  have hgrown : ∀ (place : Nat) snapshot, run.server.history[place]? = some snapshot →
      (run.server.append status progress).history[place]? = some snapshot := by
    intro place snapshot hsnapshot
    have hlt := (List.getElem?_eq_some_iff.mp hsnapshot).1
    exact (List.getElem?_append_left hlt).trans hsnapshot
  have hlength := GoalServer.length_append status progress run.server
  constructor
  · intro goal hgoal
    rcases h.held goal hgoal with ⟨⟨job, snapshot, omitted, hjob, hsnapshot, rfl⟩, horigin⟩
    exact ⟨⟨job, snapshot, omitted, hjob, hgrown _ _ hsnapshot, rfl⟩, horigin⟩
  · exact fun hnone => nomatch hnone
  · exact fun hnone => nomatch hnone
  · intro place hstarted
    cases hstarted
    refine ⟨hactivation, fun earlier later hplace hle hactive => ?_⟩
    have hlater : later < run.server.history.length + 1 := by
      rcases hactive with ⟨snapshot, hsnapshot, -⟩
      have hlt := (List.getElem?_eq_some_iff.mp hsnapshot).1
      dsimp only at hlt
      omega
    have hsame : earlier = later := by omega
    rw [hsame]
    exact hactive
  · exact h.gone
  · have hbegun := h.begun
    dsimp only
    omega
  · exact ⟨h.kept.matched, h.kept.forward, h.kept.paused⟩

theorem Fits.free {other : Nat} {call : GoalCall} (h : run.Fits origin other call)
    (hother : run.owner.activation ≠ some other) (hopen : ¬run.Over) (next : GoalRun)
    (hactivation : next.owner.activation ≠ some other)
    (hstopped : run.owner.stopped = true → next.owner.stopped = true)
    (hsame : next.prepared = run.prepared ∧ next.threadId = run.threadId ∧
      next.server.job = run.server.job)
    (hhistory : ∀ (place : Nat) snapshot, run.server.history[place]? = some snapshot →
      next.server.history[place]? = some snapshot) :
    next.Fits origin other call := by
  rcases hsame with ⟨hprepared, hthread, hjob⟩
  rcases call with ⟨stage, wait⟩
  constructor
  · have hfits := h.stage
    cases stage with
    | prepareRead objective tokenBudget => exact hprepared.trans hfits
    | resumeRead expectedCreatedAt => exact hprepared.trans hfits
    | resumePause part => exact hprepared.trans hfits
    | prepareSet objective tokenBudget =>
      refine ⟨hprepared.trans hfits.1, ?_⟩
      rw [hthread]
      exact hfits.2
    | activate part =>
      cases part with
      | reading => exact absurd hfits.1 hother
      | writing => exact absurd hfits.1 hother
    | activateStop part => exact absurd hfits.1 hother
    | pauseSet clears part => exact absurd hfits.1 hopen
    | clearRead => exact absurd hfits hopen
    | clearSend => exact absurd hfits.1 hopen
    | clearReread => exact absurd hfits.1 hopen
    | pauseWait force clears => exact ⟨hprepared.trans hfits.1, hstopped hfits.2⟩
    | resolved => exact fun hsome => absurd hsome hactivation
    | rejected => trivial
  · intro hsent
    exact absurd (h.starts hsent).1 hother
  · intro place goal hanswered
    rcases h.answers place goal hanswered with ⟨⟨job, snapshot, omitted, hthere, hplace, rfl⟩, hle⟩
    refine ⟨⟨job, snapshot, omitted, hjob.trans hthere, hhistory place snapshot hplace, ?_⟩, hle⟩
    rw [hthread]

theorem Tracks.prepared_of_activation (h : run.Tracks origin)
    (hactivation : run.owner.activation = some index) : run.prepared = true := by
  by_contra hunprepared
  rw [Bool.not_eq_true] at hunprepared
  cases (h.unprepared hunprepared).1.symm.trans hactivation

theorem Tracks.starts (h : run.Tracks origin) {stage : GoalStage}
    (hcall : run.calls[index]? = some ⟨stage, .sent (.set .active)⟩)
    (hserved : (run.server.serve run.threadId progress (.set .active)).2.isSome = true) :
    Tracks origin (GoalRun.setCall index stage
      (.answered (run.server.serve run.threadId progress (.set .active)).2)
      { run with
        server := (run.server.serve run.threadId progress (.set .active)).1
        startedAt := some run.server.history.length }) := by
  rcases (h.calls index _ hcall).starts rfl with ⟨hactivation, -, hstage⟩
  have hprepared := h.prepared_of_activation hactivation
  have hunresolved : stage ≠ .resolved := by
    rintro rfl
    rcases hstage with heq | heq
    · cases heq
    · cases heq
  have hsome : run.owner.activation.isSome = true := by
    rw [hactivation]
    rfl
  rcases Option.isSome_iff_exists.mp hserved with ⟨⟨place, goal⟩, hanswer⟩
  rcases Stands.served hanswer with ⟨hstands, hplace⟩
  have hserver := GoalServer.serve_start hserved
  rw [hserver] at hstands hplace ⊢
  rw [hanswer]
  have hsteady := h.steady.start hsome progress.status progress
  have hlast : place = run.server.history.length := by
    rw [GoalServer.length_append] at hplace
    omega
  subst hlast
  constructor
  · intro other found hfound
    change (run.calls.set index ⟨stage, _⟩)[other]? = some found at hfound
    rw [List.getElem?_set] at hfound
    split at hfound
    · rename_i heq
      subst heq
      split at hfound
      · cases hfound
        constructor
        · rcases hstage with rfl | rfl
          · exact ⟨hactivation, Or.inr ⟨_, goal, rfl, rfl⟩⟩
          · trivial
        · exact fun hsent => nomatch hsent
        · intro other found hanswered
          cases hanswered
          have hbegun := hsteady.begun
          dsimp only at hbegun
          exact ⟨hstands, by omega⟩
      · cases hfound
    · rename_i hne
      have hother : run.owner.activation ≠ some other := by
        rw [hactivation]
        exact fun heq => hne (Option.some.inj heq)
      have hopen : ¬run.Over := fun hover => hover.not_activation hcall hunresolved hactivation
      refine (h.calls other found hfound).free hother hopen _ ?_ id ⟨rfl, rfl, rfl⟩ ?_
      · exact hother
      · intro place snapshot hsnapshot
        have hlt := (List.getElem?_eq_some_iff.mp hsnapshot).1
        exact (List.getElem?_append_left hlt).trans hsnapshot
  · exact hsteady.setCall index stage _
  · intro hunprepared
    cases hprepared.symm.trans hunprepared
  · intro other hother
    change other < (run.calls.set index ⟨stage, _⟩).length
    rw [List.length_set]
    exact h.activation other hother

theorem Tracks.serve (h : run.Tracks origin) (index : Nat) (progress : GoalProgress) :
    (run.serve index progress).Tracks origin := by
  unfold GoalRun.serve
  split
  · rename_i stage request hcall
    dsimp only
    split
    · rename_i hstart
      rcases hstart with ⟨rfl, hserved⟩
      exact h.starts hcall hserved
    · rename_i hstart
      exact h.answered hcall hstart
  · exact h

/-! ## Notifications -/

theorem Steady.earlier (h : run.Steady origin) (hstands : run.Stands index goal)
    {current : CodexGoal} (hcurrent : run.owner.goal = some current)
    (hbudget : goal.tokenBudget = current.tokenBudget) (hlt : goal.updatedAt < current.updatedAt) :
    historical current goal = true := by
  rcases (h.held current hcurrent).1 with ⟨job, held, kept, hjob, hheld, rfl⟩
  rcases hstands with ⟨other, snapshot, omitted, hother, hsnapshot, rfl⟩
  rw [hjob] at hother
  cases hother
  have hprecedes : snapshot.Precedes held := by
    by_cases hle : index ≤ run.heldAt
    · exact precedes_of_le run.server.ordered hle hsnapshot hheld
    · have hlater := precedes_of_le run.server.ordered (Nat.le_of_not_le hle) hheld hsnapshot
      exact absurd hlt (Nat.not_lt.mpr hlater.updatedAt)
  unfold historical
  simp only [hbudget, Bool.and_eq_true, beq_iff_eq, decide_eq_true_eq]
  exact ⟨⟨⟨⟨⟨rfl, rfl⟩, rfl⟩, trivial⟩, hprecedes.tokensUsed⟩, hprecedes.timeUsedSeconds⟩

theorem Tracks.observe (h : run.Tracks origin) {omitted : Bool} (hprepared : run.prepared = true)
    (htimely : run.Timely (.notify index omitted)) : (run.observe index omitted).Tracks origin := by
  unfold GoalRun.observe
  split
  · rename_i job snapshot hjob hsnapshot
    dsimp only
    have hstands : run.Stands index (job.wire run.threadId omitted snapshot) :=
      ⟨job, snapshot, omitted, hjob, hsnapshot, rfl⟩
    rcases htimely hprepared job snapshot hjob hsnapshot with
      hfresh | ⟨current, hcurrent, hbudget, hlt⟩
    · have hverifies := hfresh.verifies
        (fun current hcurrent => (h.steady.held current hcurrent).1) hstands
      rcases hfresh with ⟨current, hcurrent, hplace⟩
      have hfresh : run.Fresh index (job.wire run.threadId omitted snapshot) :=
        ⟨current, hcurrent, hplace⟩
      have hlater : ¬(job.wire run.threadId omitted snapshot).updatedAt < current.updatedAt := by
        rcases (h.steady.held current hcurrent).1 with ⟨other, held, kept, -, hheld, rfl⟩
        exact Nat.not_lt.mpr (hfresh.precedes hheld hsnapshot).updatedAt
      rw [hcurrent] at hverifies ⊢
      dsimp only
      rw [if_neg hlater, hverifies, if_pos rfl]
      exact h.advance rfl (Advances.accept hfresh) (h.steady.accept hfresh hstands)
    · rw [hcurrent]
      dsimp only
      have hearlier : (job.wire run.threadId omitted snapshot).updatedAt < current.updatedAt := hlt
      rw [if_pos hearlier, h.steady.earlier hstands hcurrent hbudget hearlier, if_pos rfl]
      exact h
  · exact h

/-! ## Calls begin and fail -/

theorem Tracks.fail (h : run.Tracks origin) (index : Nat) : (run.fail index).Tracks origin := by
  unfold GoalRun.fail
  split
  · exact h
  · exact h
  · exact h
  · exact h
  · rename_i stage wait _ hunresolved _ hcall
    have hfits := h.calls index _ hcall
    apply h.setCall run hcall (fun heq => absurd heq hunresolved) rfl (Advances.refl run) h.steady
    exact ⟨trivial, fun hsent => ⟨(hfits.starts hsent).1, (hfits.starts hsent).2.1, Or.inr rfl⟩,
      hfits.answers⟩

theorem Tracks.join {call : GoalCall} (next : GoalRun) (hcalls : next.calls = run.calls ++ [call])
    (hothers : ∀ index found, run.calls[index]? = some found → next.Fits origin index found)
    (hfits : next.Fits origin run.calls.length call) (hsteady : next.Steady origin)
    (hprepared : next.prepared = true)
    (hactivation : ∀ index, next.owner.activation = some index → index < run.calls.length + 1) :
    next.Tracks origin := by
  constructor
  · intro index found hfound
    rw [hcalls] at hfound
    by_cases hlt : index < run.calls.length
    · rw [List.getElem?_append_left hlt] at hfound
      exact hothers index found hfound
    · have hindex := (List.getElem?_eq_some_iff.mp hfound).1
      rw [List.length_append, List.length_singleton] at hindex
      have hlast : index = run.calls.length := by omega
      subst hlast
      rw [List.getElem?_concat_length] at hfound
      cases hfound
      exact hfits
  · exact hsteady
  · intro hunprepared
    cases hprepared.symm.trans hunprepared
  · intro index hsome
    rw [hcalls, List.length_append, List.length_singleton]
    exact hactivation index hsome

theorem Steady.calls (h : run.Steady origin) (calls : List GoalCall) :
    Steady origin { run with calls } :=
  ⟨h.held, h.quiet, h.idle, h.started, h.gone, h.begun,
    h.kept.matched, h.kept.forward, h.kept.paused⟩

theorem Tracks.activate (h : run.Tracks origin) (hprepared : run.prepared = true) :
    run.activate.Tracks origin := by
  unfold GoalRun.activate
  split
  · exact h
  · rename_i hready
    rw [not_or, not_or, Bool.not_eq_true, Option.isSome_eq_false_iff,
      Option.isNone_iff_eq_none] at hready
    rcases hready with ⟨hnone, -, hstopped⟩
    have hstarted : run.startedAt = none := by
      cases hstarted : run.startedAt with
      | none => rfl
      | some place =>
        have hactivation := (h.steady.started place hstarted).1
        rw [hnone] at hactivation
        cases hactivation
    have howner : Steady origin { run with
        owner := { run.owner with activation := some run.calls.length } } :=
      h.steady.owner rfl fun _ => rfl
    refine Tracks.join _ rfl ?_ ?_ (howner.calls _) hprepared ?_
    · intro index found hfound
      have hlt := (List.getElem?_eq_some_iff.mp hfound).1
      have hother : run.owner.activation ≠ some index := by
        rw [hnone]
        exact fun heq => nomatch heq
      refine (h.calls index found hfound).free hother (fun hover => hstopped hover.stopped) _ ?_ id
        ⟨rfl, rfl, rfl⟩ fun _ _ hsnapshot => hsnapshot
      intro heq
      have hsame : run.calls.length = index := Option.some.inj heq
      omega
    · refine ⟨⟨rfl, hstarted⟩, fun hsent => ?_, fun place goal hanswered => ?_⟩
      · cases hsent
      · cases hanswered
    · intro index heq
      have hsame : run.calls.length = index := Option.some.inj heq
      omega

theorem Tracks.pause (h : run.Tracks origin) (hprepared : run.prepared = true)
    (force clears : Bool) : (run.pause force clears).Tracks origin := by
  unfold GoalRun.pause
  dsimp only
  have hmarks : Advances run { run with
      owner := { run.owner with stopped := true, activated := false } } :=
    Advances.owner rfl fun _ => rfl
  have hadvances : Advances run { run with
      owner := { run.owner with stopped := true, activated := false }
      calls := run.calls ++ [⟨.pauseWait force clears, .idle⟩] } :=
    { hmarks with
      ends := by
        intro hover
        refine ⟨rfl, fun index hsome => ?_⟩
        have hresolved := hover.resolved index hsome
        unfold GoalRun.stageOf at hresolved ⊢
        dsimp only
        rw [List.getElem?_append_left (h.activation index hsome)]
        exact hresolved }
  have howner : Steady origin { run with
      owner := { run.owner with stopped := true, activated := false } } :=
    h.steady.owner rfl id
  have hstopped : Tracks origin { run with
      owner := { run.owner with stopped := true, activated := false }
      calls := run.calls ++ [⟨.pauseWait force clears, .idle⟩] } := by
    refine Tracks.join _ rfl ?_ ?_ (howner.calls _) hprepared ?_
    · exact fun index found hfound => (h.calls index found hfound).advance hadvances
    · refine ⟨⟨hprepared, rfl⟩, fun hsent => ?_, fun place goal hanswered => ?_⟩
      · cases hsent
      · cases hanswered
    · exact fun index hsome => Nat.lt_succ_of_lt (h.activation index hsome)
  split
  · exact hstopped
  · rename_i hnone
    apply hstopped.pauseDecide List.getElem?_concat_length
    · refine ⟨rfl, fun index hsome => ?_⟩
      apply absurd _ hnone
      change run.owner.activation = some index at hsome
      rw [hsome]
      rfl
    · exact hprepared

/-! ## The whole run -/

theorem Tracks.begin (threadId : String) (job : Option GoalJob) (history : List Snapshot)
    (ordered : history.Pairwise Snapshot.Precedes) (preparation : Preparation) :
    (GoalRun.begin threadId job history ordered preparation).Tracks history.length := by
  constructor
  · intro index call hcall
    have hlt := (List.getElem?_eq_some_iff.mp hcall).1
    change index < 1 at hlt
    have hzero : index = 0 := by omega
    subst hzero
    cases hcall
    refine ⟨?_, fun hsent => ?_, fun place goal hanswered => ?_⟩
    · cases preparation with
      | start objective tokenBudget => rfl
      | resume expectedCreatedAt => rfl
    · cases hsent
    · cases hanswered
  · constructor
    · intro goal hgoal
      cases hgoal
    · intro _ earlier later horigin hle hactive
      have hsame : earlier = later := by
        rcases hactive with ⟨snapshot, hsnapshot, -⟩
        have hlt := (List.getElem?_eq_some_iff.mp hsnapshot).1
        change later < history.length at hlt
        omega
      rw [hsame]
      exact hactive
    · intro _ hsome
      cases hsome
    · intro place hstarted
      cases hstarted
    · intro hprepared
      cases hprepared
    · exact Nat.le_refl _
    · exact ⟨rfl, rfl, rfl⟩
  · exact fun _ => ⟨rfl, rfl⟩
  · intro index hsome
    cases hsome

theorem Tracks.step (h : run.Tracks origin) (action : GoalAction) (htimely : run.Timely action) :
    (run.step action).Tracks origin := by
  unfold GoalRun.step
  cases action with
  | progress progress =>
    dsimp only
    split
    · exact h
    · exact h.grow (GoalServer.grows_progress progress run.server)
  | serve index progress => exact h.serve index progress
  | settle index => exact h.settle index htimely
  | fail index => exact h.fail index
  | notify index omitted =>
    dsimp only
    split
    · rename_i hprepared
      exact h.observe hprepared htimely
    · exact h
  | activate =>
    dsimp only
    split
    · rename_i hprepared
      exact h.activate hprepared
    · exact h
  | pause force =>
    dsimp only
    split
    · rename_i hprepared
      exact h.pause hprepared force false
    · exact h
  | clear =>
    dsimp only
    split
    · rename_i hprepared
      exact h.pause hprepared false true
    · exact h

end GoalRun

/-- In a run whose snapshots arrive in time the owner never goes back to an earlier one and rejects
none, and the goal is not active when a pause resolves. -/
theorem goal_followed (threadId : String) (job : Option GoalJob) (history : List Snapshot)
    (ordered : history.Pairwise Snapshot.Precedes) (preparation : Preparation)
    (actions : List GoalAction)
    (h : Meets GoalRun.step GoalRun.Timely
      (GoalRun.begin threadId job history ordered preparation) actions) :
    Always GoalRun.step GoalRun.Kept (GoalRun.begin threadId job history ordered preparation)
      actions := by
  have hbegin := GoalRun.Tracks.begin threadId job history ordered preparation
  have htracks := always_of_meets
    (fun run action (hrun : GoalRun.Tracks history.length run) htimely => hrun.step action htimely)
    hbegin h
  exact htracks.mono fun run hrun => hrun.steady.kept

/-- A goal that is resumed, and whose snapshot is notified before a pause. -/
theorem goal_followed_resumed : Always GoalRun.step GoalRun.Kept
    (GoalRun.begin "root" (some ⟨5, "Work", none⟩) [⟨.paused, 5, 0, 0⟩] (List.pairwise_singleton _ _)
      (.resume 5))
    [.serve 0 ⟨.paused, 0, 0, 0, 0, true⟩, .settle 0, .notify 0 true, .pause false] := by
  apply goal_followed
  refine ⟨trivial, ?_, ?_, trivial, trivial⟩
  · intro call place goal hcall _ hcompares
    cases hcall
    cases hcompares
  · intro _ job snapshot hjob hsnapshot
    cases hjob
    cases hsnapshot
    exact Or.inl ⟨_, rfl, rfl, Or.inl (Nat.le_refl 0)⟩

/-- The notification of the goal's creation arrives after the goal was started in the same second:
the owner takes it for the later snapshot, and its pause does not send a request. -/
theorem goal_left_active :
    ¬∀ (threadId : String) (job : Option GoalJob) (history : List Snapshot)
      (ordered : history.Pairwise Snapshot.Precedes) (preparation : Preparation)
      (actions : List GoalAction), Always GoalRun.step GoalRun.Kept
        (GoalRun.begin threadId job history ordered preparation) actions := by
  intro h
  have hrun := h "root" none [] List.Pairwise.nil (.start "Work" none)
    [.serve 0 ⟨.paused, 0, 0, 0, 1, false⟩, .settle 0, .serve 0 ⟨.paused, 100, 0, 0, 100, false⟩,
      .settle 0, .activate, .serve 1 ⟨.paused, 0, 0, 0, 0, false⟩, .settle 1,
      .serve 1 ⟨.active, 0, 0, 0, 0, false⟩, .settle 1, .notify 0 false, .pause false, .settle 2]
  cases hrun.last.paused

end HarnessControl.Codex
