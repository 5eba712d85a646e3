import HarnessControl.Codex.RootCommands

/-!
# When a root turn is admitted

A run in which the turn is admitted late ends like the run in which it is admitted first, unless a
notification of the turn that is in the queue is handled before those that are buffered.  A
`turn/started` does not matter: it changes nothing once its turn is admitted.
-/

namespace HarnessControl.Codex

open HarnessControl.Library HarnessControl.Protocol HarnessControl.State HarnessControl.Harnesses

variable {host : CommandHost} {owner : OwnedCommands} {nativeTurn appTurn : String}

/-! ## What is compared -/

/-- The last status that was published for a background command. -/
def OwnedCommands.finalStatus (owner : OwnedCommands) (originTurnId item : String) :
    Option WorkStatus :=
  (owner.published.filter fun work =>
    work.originTurnId == originTurnId && work.nativeReference == item).getLast?.map
      NativeWorkObservation.status

/-- The same commands with the same statuses, published and held. -/
structure Agrees (first second : OwnedCommands) : Prop where
  commands : ∀ key, (first.commands.get? key).map (fun command => command.work.status) =
    (second.commands.get? key).map fun command => command.work.status
  published : ∀ originTurnId item,
    first.finalStatus originTurnId item = second.finalStatus originTurnId item
  busy : first.busy = second.busy

theorem Agrees.refl (owner : OwnedCommands) : Agrees owner owner :=
  ⟨fun _ => rfl, fun _ _ => rfl, rfl⟩

/-- The notification changes nothing once its turn is admitted. -/
def RootNotification.idle : RootNotification → Bool
  | .turnStarted _ => true
  | .item _ _ | .turnCompleted _ => false

def RootNotification.concerns (nativeTurn : String) (message : RootNotification) : Bool :=
  message.turnId == nativeTurn && !message.idle

def RootTask.concerns (nativeTurn : String) : RootTask → Bool
  | .observe message => message.concerns nativeTurn
  | .replay => false

/-- When a root is admitted, either nothing that is buffered or nothing in the queue concerns it, and
what is buffered is not replayed by a lost owner. -/
def Undisplaced (run : RootQueue) : RootAction → Prop
  | .admitRoot nativeTurn _ => run.owner.lost = false ∧
    ((∀ message ∈ run.owner.pending, message.concerns nativeTurn = false) ∨
      ∀ task ∈ run.queue, task.concerns nativeTurn = false)
  | .work => run.queue.head? = some .replay → run.owner.lost = false ∨ run.owner.pending = []
  | .notify _ => True

def notifications (actions : List RootAction) : List RootNotification :=
  actions.filterMap fun action =>
    match action with
    | .notify message => some message
    | _ => none

def RootAction.admits : RootAction → Bool
  | .admitRoot _ _ => true
  | .notify _ | .work => false

/-- No turn is admitted. -/
def Plain (actions : List RootAction) : Prop :=
  ∀ action ∈ actions, action.admits = false

theorem Plain.tail {action : RootAction} {rest : List RootAction} (h : Plain (action :: rest)) :
    Plain rest :=
  fun other hother => h other (List.mem_cons_of_mem action hother)

/-! ## The queue -/

namespace RootQueue

theorem run_drained {run : RootQueue} {actions : List RootAction} (hplain : Plain actions)
    (hdrained : (Library.run (step host) run actions).queue = []) :
    (Library.run (step host) run actions).owner =
      (run.queue ++ (notifications actions).map RootTask.observe).foldl (perform host) run.owner := by
  induction actions generalizing run with
  | nil =>
    change run.queue = [] at hdrained
    rw [hdrained]
    rfl
  | cons action rest ih =>
    rw [run_cons] at hdrained ⊢
    rw [ih hplain.tail hdrained]
    cases action with
    | notify message =>
      change ((run.queue ++ [RootTask.observe message]) ++ _).foldl _ _ = _
      rw [List.append_assoc]
      rfl
    | work =>
      change _ = (run.queue ++ (notifications rest).map RootTask.observe).foldl (perform host)
        run.owner
      unfold step
      cases hqueue : run.queue with
      | nil =>
        dsimp only
        rw [hqueue]
      | cons task others => rfl
    | admitRoot nativeTurn appTurn =>
      exact nomatch hplain _ List.mem_cons_self

theorem run_attached (actions : List RootAction) (hplain : Plain actions) :
    ∃ handled waiting, notifications actions = handled ++ waiting ∧
      Library.run (step host) attached actions =
        ⟨handled.foldl (OwnedCommands.observe host) .attached, waiting.map RootTask.observe⟩ := by
  have hgeneral : ∀ (handled waiting : List RootNotification) (rest : List RootAction), Plain rest →
      ∃ more others, waiting ++ notifications rest = more ++ others ∧
        Library.run (step host) ⟨handled.foldl (OwnedCommands.observe host) .attached,
          waiting.map RootTask.observe⟩ rest =
          ⟨(handled ++ more).foldl (OwnedCommands.observe host) .attached,
            others.map RootTask.observe⟩ := by
    intro handled waiting rest
    induction rest generalizing handled waiting with
    | nil =>
      intro _
      refine ⟨[], waiting, List.append_nil _, ?_⟩
      rw [List.append_nil]
      rfl
    | cons action rest ih =>
      intro hrest
      cases action with
      | notify message =>
        rcases ih handled (waiting ++ [message]) hrest.tail with ⟨more, others, hsplit, hrun⟩
        refine ⟨more, others, ?_, ?_⟩
        · rw [← hsplit, List.append_assoc]
          rfl
        · rw [run_cons, ← hrun, List.map_append]
          rfl
      | work =>
        cases waiting with
        | nil =>
          rcases ih handled [] hrest.tail with ⟨more, others, hsplit, hrun⟩
          exact ⟨more, others, hsplit, hrun⟩
        | cons message waiting =>
          rcases ih (handled ++ [message]) waiting hrest.tail with
            ⟨more, others, hsplit, hrun⟩
          refine ⟨message :: more, others, ?_, ?_⟩
          · rw [List.cons_append, List.cons_append, ← hsplit]
            rfl
          · rw [run_cons]
            rw [List.foldl_append, List.append_assoc] at hrun
            exact hrun
      | admitRoot nativeTurn appTurn =>
        exact nomatch hrest _ List.mem_cons_self
  rcases hgeneral [] [] actions hplain with ⟨handled, waiting, hsplit, hrun⟩
  exact ⟨handled, waiting, hsplit, hrun⟩

end RootQueue

/-! ## Notifications that are buffered -/

namespace OwnedCommands

/-- The commands and the active turns belong to turns that were admitted. -/
structure Admitted (owner : OwnedCommands) : Prop where
  active : ∀ turn ∈ owner.activeRoots, (owner.roots.get? turn).isSome = true
  commands : ∀ key command, owner.commands.get? key = some command →
    (owner.roots.get? command.turn).isSome = true

theorem completeTurn_unadmitted (h : owner.Admitted) {turnId : String}
    (hroot : owner.roots.get? turnId = none) : owner.completeTurn turnId = owner := by
  have hactive : owner.activeRoots.filter (· != turnId) = owner.activeRoots := by
    rw [List.filter_eq_self]
    intro turn hturn
    rw [bne_iff_ne]
    rintro rfl
    have hsome := h.active turn hturn
    rw [hroot] at hsome
    cases hsome
  have hother : ∀ key command, (key, command) ∈ owner.commands.entries →
      outlives turnId command = false := by
    intro key command hmem
    unfold outlives
    rw [Bool.and_eq_false_iff, beq_eq_false_iff_ne]
    refine Or.inl ?_
    rintro rfl
    have hsome := h.commands key command (Dict.get?_eq_some_iff.mpr hmem)
    rw [hroot] at hsome
    cases hsome
  have hcommands : (owner.commands.map fun command =>
      if outlives turnId command then outlive command else command) = owner.commands := by
    apply Dict.ext
    change owner.commands.entries.map _ = owner.commands.entries
    conv_rhs => rw [← List.map_id owner.commands.entries]
    apply List.map_congr_left
    intro entry hentry
    show (entry.1, if outlives turnId entry.2 then outlive entry.2 else entry.2) = entry
    rw [hother entry.1 entry.2 hentry, if_neg Bool.false_ne_true]
  have hpublished : owner.commands.values.filter (outlives turnId) = [] := by
    rw [List.filter_eq_nil_iff]
    intro command hcommand
    rcases List.mem_map.mp hcommand with ⟨entry, hentry, rfl⟩
    rw [hother entry.1 entry.2 hentry]
    exact Bool.false_ne_true
  unfold completeTurn
  rw [hactive, hcommands, hpublished, List.map_nil, List.append_nil]

theorem observe_unadmitted (h : owner.Admitted) {message : RootNotification}
    (hroot : owner.roots.get? message.turnId = none) (hlost : owner.lost = false) :
    owner.observe host message =
      (owner.buffer host message).getD { owner with lost := true } := by
  unfold observe
  rw [hlost, if_neg Bool.false_ne_true]
  cases message with
  | item turnId item =>
    change owner.roots.get? turnId = none at hroot
    unfold handle observeCommand
    dsimp only
    rw [hroot]
  | turnStarted turnId =>
    change owner.roots.get? turnId = none at hroot
    unfold handle
    dsimp only
    rw [if_pos hroot]
  | turnCompleted turnId =>
    change owner.roots.get? turnId = none at hroot
    unfold handle
    dsimp only
    rw [if_pos hroot, completeTurn_unadmitted h hroot, Option.getD_some]

theorem observe_lost (hlost : owner.lost = true) (messages : List RootNotification) :
    messages.foldl (observe host) owner = owner := by
  induction messages with
  | nil => rfl
  | cons message rest ih =>
    have hsame : owner.observe host message = owner := by
      unfold observe
      rw [hlost, if_pos rfl]
    rw [List.foldl_cons, hsame, ih]

def Room (host : CommandHost) (pending messages : List RootNotification) : Prop :=
  ∀ init message rest, messages = init ++ message :: rest →
    hasRoom host (pending ++ init) message = true

variable {message : RootNotification}

theorem Room.head {pending rest : List RootNotification}
    (h : Room host pending (message :: rest)) :
    hasRoom host pending message = true ∧ Room host (pending ++ [message]) rest := by
  constructor
  · have hroom := h [] message rest rfl
    rw [List.append_nil] at hroom
    exact hroom
  · intro init other others heq
    rw [List.append_assoc]
    exact h (message :: init) other others (congrArg (message :: ·) heq)

theorem Admitted.pending (h : owner.Admitted) (pending : List RootNotification) :
    Admitted { owner with pending } :=
  ⟨h.active, h.commands⟩

/-- The turn of the notification is not admitted. -/
def unadmitted (owner : OwnedCommands) (message : RootNotification) : Bool :=
  (owner.roots.get? message.turnId).isNone

/-- The notification is buffered or changes nothing. -/
def quiet (owner : OwnedCommands) (message : RootNotification) : Bool :=
  owner.unadmitted message || message.idle

theorem idle_of_quiet (hquiet : owner.quiet message = true)
    (hroot : owner.unadmitted message = false) : message.idle = true := by
  unfold quiet at hquiet
  rw [hroot, Bool.false_or] at hquiet
  exact hquiet

theorem observe_idle (hroot : owner.unadmitted message = false)
    (hidle : message.idle = true) : owner.observe host message = owner := by
  unfold observe
  split
  · rfl
  · cases message with
    | item turnId item => cases hidle
    | turnCompleted turnId => cases hidle
    | turnStarted turnId =>
      have hsome : owner.roots.get? turnId ≠ none := by
        intro hnone
        unfold unadmitted RootNotification.turnId at hroot
        dsimp only at hroot
        rw [hnone] at hroot
        cases hroot
      unfold handle
      dsimp only
      rw [if_neg hsome, Option.getD_some]

theorem observe_quiet (h : owner.Admitted) {messages : List RootNotification}
    (hquiet : ∀ message ∈ messages, owner.quiet message = true) (hlost : owner.lost = false)
    (hroom : Room host owner.pending (messages.filter owner.unadmitted)) :
    messages.foldl (observe host) owner =
      { owner with pending := owner.pending ++ messages.filter owner.unadmitted } := by
  induction messages generalizing owner with
  | nil => rw [List.foldl_nil, List.filter_nil, List.append_nil]
  | cons message rest ih =>
    have hrest : ∀ other ∈ rest, owner.quiet other = true :=
      fun other hother => hquiet other (List.mem_cons_of_mem message hother)
    rw [List.foldl_cons]
    by_cases hroot : owner.unadmitted message = true
    · rw [List.filter_cons_of_pos hroot] at hroom ⊢
      rw [observe_unadmitted h (Option.isNone_iff_eq_none.mp hroot) hlost]
      unfold buffer
      rw [if_pos hroom.head.1, Option.getD_some]
      rw [ih (h.pending (owner.pending ++ [message])) hrest hlost hroom.head.2]
      rw [List.append_assoc]
      rfl
    · rw [Bool.not_eq_true] at hroot
      have hidle := idle_of_quiet (hquiet message List.mem_cons_self) hroot
      rw [List.filter_cons_of_neg (by rw [hroot]; exact Bool.false_ne_true)] at hroom ⊢
      rw [observe_idle hroot hidle]
      exact ih h hrest hlost hroom

variable {messages : List RootNotification}

theorem kept_before
    (hlost : (messages.foldl (observe host) owner).lost = false) : owner.lost = false := by
  by_contra hover
  rw [Bool.not_eq_false] at hover
  rw [observe_lost hover, hover] at hlost
  cases hlost

theorem room_of_kept (h : owner.Admitted) {messages : List RootNotification}
    (hquiet : ∀ message ∈ messages, owner.quiet message = true)
    (hlost : (messages.foldl (observe host) owner).lost = false) :
    Room host owner.pending (messages.filter owner.unadmitted) := by
  induction messages generalizing owner with
  | nil =>
    intro init message rest heq
    cases init with
    | nil => cases heq
    | cons first others => cases heq
  | cons message rest ih =>
    have hrest : ∀ other ∈ rest, owner.quiet other = true :=
      fun other hother => hquiet other (List.mem_cons_of_mem message hother)
    have hbefore := kept_before hlost
    rw [List.foldl_cons] at hlost
    by_cases hroot : owner.unadmitted message = true
    · rw [List.filter_cons_of_pos hroot]
      rw [observe_unadmitted h (Option.isNone_iff_eq_none.mp hroot) hbefore] at hlost
      unfold buffer at hlost
      split at hlost
      · rename_i hroom
        have hroomy := ih (h.pending (owner.pending ++ [message])) hrest hlost
        intro init other others heq
        cases init with
        | nil =>
          cases heq
          rw [List.append_nil]
          exact hroom
        | cons first more =>
          injection heq with hfirst hmore
          subst hfirst
          have hlater := hroomy more other others hmore
          rw [List.append_assoc] at hlater
          exact hlater
      · have hafter := kept_before hlost
        cases hafter
    · rw [Bool.not_eq_true] at hroot
      have hidle := idle_of_quiet (hquiet message List.mem_cons_self) hroot
      rw [observe_idle hroot hidle] at hlost
      rw [List.filter_cons_of_neg (by rw [hroot]; exact Bool.false_ne_true)]
      exact ih h hrest hlost

/-! ## What an admitted owner keeps -/

/-- What is buffered had room and changes nothing. -/
structure Held (host : CommandHost) (owner : OwnedCommands) : Prop where
  admitted : owner.Admitted
  quiet : ∀ message ∈ owner.pending, owner.quiet message = true
  room : Room host [] owner.pending

/-- The notifications stay, and the commands belong to turns that were admitted. -/
structure Stays (owner next : OwnedCommands) : Prop where
  roots : next.roots = owner.roots
  pending : next.pending = owner.pending
  active : ∀ turn ∈ next.activeRoots, turn ∈ owner.activeRoots
  commands : ∀ key command, next.commands.get? key = some command →
    (owner.roots.get? command.turn).isSome = true

theorem Held.stays {next : OwnedCommands} (h : owner.Held host) (hstays : owner.Stays next) :
    next.Held host := by
  refine ⟨⟨fun turn hturn => ?_, fun key command hcommand => ?_⟩, ?_, ?_⟩
  · rw [hstays.roots]
    exact h.admitted.active turn (hstays.active turn hturn)
  · rw [hstays.roots]
    exact hstays.commands key command hcommand
  · intro message hmessage
    rw [hstays.pending] at hmessage
    unfold OwnedCommands.quiet unadmitted
    rw [hstays.roots]
    exact h.quiet message hmessage
  · rw [hstays.pending]
    exact h.room

theorem Held.buffer (h : owner.Held host) {message : RootNotification}
    (hroot : owner.roots.get? message.turnId = none) :
    ((owner.buffer host message).getD { owner with lost := true }).Held host := by
  unfold OwnedCommands.buffer
  split
  · rename_i hroom
    refine ⟨h.admitted.pending _, fun other hother => ?_, fun init other rest heq => ?_⟩
    · rcases List.mem_append.mp hother with hold | hnew
      · exact h.quiet other hold
      · rw [List.mem_singleton] at hnew
        subst hnew
        have hunadmitted : owner.unadmitted other = true := Option.isNone_iff_eq_none.mpr hroot
        show (owner.unadmitted other || other.idle) = true
        rw [hunadmitted, Bool.true_or]
    · change owner.pending ++ [message] = init ++ other :: rest at heq
      rcases List.eq_nil_or_concat rest with rfl | ⟨more, last, rfl⟩
      · rcases List.append_inj' heq rfl with ⟨rfl, hsame⟩
        cases hsame
        exact hroom
      · rw [List.concat_eq_append, ← List.cons_append, ← List.append_assoc] at heq
        exact h.room init other more (List.append_inj' heq rfl).1
  · exact ⟨⟨h.admitted.active, h.admitted.commands⟩, h.quiet, h.room⟩

theorem publishCommand_stays (command : NativeCommand) (owner : OwnedCommands) :
    (owner.publishCommand command).roots = owner.roots ∧
      (owner.publishCommand command).pending = owner.pending ∧
      (owner.publishCommand command).activeRoots = owner.activeRoots ∧
      (owner.publishCommand command).commands = owner.commands := by
  unfold publishCommand
  split
  · exact ⟨rfl, rfl, rfl, rfl⟩
  · exact ⟨rfl, rfl, rfl, rfl⟩

theorem Admitted.set (h : owner.Admitted) {base : OwnedCommands} {key : String × String}
    {command : NativeCommand} (hturn : (owner.roots.get? command.turn).isSome = true)
    (hroots : base.roots = owner.roots) (hpending : base.pending = owner.pending)
    (hactive : base.activeRoots = owner.activeRoots) (hcommands : base.commands = owner.commands) :
    owner.Stays ((base.setCommand key command).publishCommand command) := by
  rcases publishCommand_stays command (base.setCommand key command) with
    ⟨hsame, hheld, hstill, hset⟩
  refine ⟨hsame.trans hroots, hheld.trans hpending, ?_, ?_⟩
  · rw [hstill]
    change ∀ turn ∈ base.activeRoots, turn ∈ owner.activeRoots
    rw [hactive]
    exact fun _ hmem => hmem
  · rw [hset]
    intro other found hfound
    change (base.commands.set key command).get? other = some found at hfound
    rw [hcommands, Dict.get?_set] at hfound
    split at hfound
    · cases hfound
      exact hturn
    · exact h.commands other found hfound

theorem Admitted.stays_refl (h : owner.Admitted) : owner.Stays owner :=
  ⟨rfl, rfl, fun _ hmem => hmem, h.commands⟩

theorem Stays.erase {next : OwnedCommands} (h : owner.Stays next) (key : String × String) :
    owner.Stays { next with commands := next.commands.erase key } :=
  ⟨h.roots, h.pending, h.active, fun other found hfound =>
    h.commands other found (Dict.get?_of_erase hfound)⟩

theorem observeCommand_stays (h : owner.Admitted) {turnId : String} {item : CommandItem}
    {next : OwnedCommands} (hroot : (owner.roots.get? turnId).isSome = true)
    (hnext : owner.observeCommand host turnId item = some next) : owner.Stays next := by
  unfold observeCommand at hnext
  split at hnext
  · rename_i hnone
    rw [hnone] at hroot
    cases hroot
  · dsimp only at hnext
    split at hnext
    · split at hnext
      · split at hnext
        · cases hnext
        · cases hnext
          exact h.set hroot rfl rfl rfl rfl
      · rename_i command hcommand
        split at hnext
        · cases hnext
          exact h.stays_refl
        · split at hnext
          · cases hnext
          · cases hnext
            exact h.set (h.commands _ command hcommand) rfl rfl rfl rfl
    · split at hnext
      · cases hnext
        exact h.stays_refl
      · rename_i command hcommand
        split at hnext
        · cases hnext
          exact h.stays_refl
        · cases hnext
          have hset : ∀ ended : NativeCommand, ended.turn = command.turn →
              owner.Stays ((owner.setCommand (turnId, item.id) ended).publishCommand ended) := by
            intro ended hended
            apply h.set _ rfl rfl rfl rfl
            rw [hended]
            exact h.commands _ command hcommand
          split
          · exact hset _ rfl
          · apply Stays.erase
            exact hset _ rfl

theorem completeTurn_stays (h : owner.Admitted) (turnId : String) :
    owner.Stays (owner.completeTurn turnId) := by
  refine ⟨rfl, rfl, fun turn hturn => (List.mem_filter.mp hturn).1, fun key command hcommand => ?_⟩
  change (owner.commands.map _).get? key = some command at hcommand
  rw [Dict.get?_map] at hcommand
  rcases Option.map_eq_some_iff.mp hcommand with ⟨before, hbefore, rfl⟩
  have hturn := h.commands key before hbefore
  split
  · exact hturn
  · exact hturn

theorem roots_of_admitted (hroot : owner.unadmitted message = false) :
    (owner.roots.get? message.turnId).isSome = true := by
  unfold unadmitted at hroot
  rw [Option.isNone_eq_false_iff] at hroot
  exact hroot

theorem handle_turnStarted {turnId : String} (hroot : (owner.roots.get? turnId).isSome = true) :
    owner.handle host (.turnStarted turnId) = some owner := by
  rw [Option.isSome_iff_ne_none] at hroot
  unfold handle
  dsimp only
  rw [if_neg hroot]

theorem handle_turnCompleted {turnId : String} (hroot : (owner.roots.get? turnId).isSome = true) :
    owner.handle host (.turnCompleted turnId) = some (owner.completeTurn turnId) := by
  rw [Option.isSome_iff_ne_none] at hroot
  unfold handle
  dsimp only
  rw [if_neg hroot]

theorem observe_stays (h : owner.Admitted) {message : RootNotification}
    (hroot : owner.unadmitted message = false) : owner.Stays (owner.observe host message) := by
  have hsome := roots_of_admitted hroot
  have hlose : owner.Stays { owner with lost := true } := ⟨rfl, rfl, fun _ hmem => hmem, h.commands⟩
  unfold observe
  split
  · exact h.stays_refl
  · cases message with
    | item turnId item =>
      change (owner.roots.get? turnId).isSome = true at hsome
      unfold handle
      dsimp only
      cases hnext : owner.observeCommand host turnId item with
      | none => exact hlose
      | some next => exact observeCommand_stays h hsome hnext
    | turnStarted turnId =>
      change (owner.roots.get? turnId).isSome = true at hsome
      rw [handle_turnStarted hsome]
      exact h.stays_refl
    | turnCompleted turnId =>
      change (owner.roots.get? turnId).isSome = true at hsome
      rw [handle_turnCompleted hsome]
      exact completeTurn_stays h turnId

theorem Held.observe (h : owner.Held host) (message : RootNotification) :
    (owner.observe host message).Held host := by
  by_cases hroot : owner.unadmitted message = true
  · by_cases hlost : owner.lost = true
    · unfold OwnedCommands.observe
      rw [if_pos hlost]
      exact h
    · have hnone := Option.isNone_iff_eq_none.mp hroot
      rw [Bool.not_eq_true] at hlost
      rw [observe_unadmitted h.admitted hnone hlost]
      exact h.buffer hnone
  · rw [Bool.not_eq_true] at hroot
    exact h.stays (observe_stays h.admitted hroot)

theorem Held.observe_all (h : owner.Held host) (messages : List RootNotification) :
    (messages.foldl (OwnedCommands.observe host) owner).Held host := by
  induction messages generalizing owner with
  | nil => exact h
  | cons message rest ih => exact ih (h.observe message)

/-- The owner without what is buffered of turns that were admitted since. -/
def settle (owner : OwnedCommands) : OwnedCommands :=
  { owner with pending := owner.pending.filter owner.unadmitted }

theorem hasRoom_of_sublist {few many : List RootNotification}
    (hfew : few.Sublist many) (h : hasRoom host many message = true) :
    hasRoom host few message = true := by
  unfold hasRoom at h ⊢
  rw [Bool.and_eq_true, decide_eq_true_iff, decide_eq_true_iff] at h ⊢
  have hlength := hfew.length_le
  have hbytes : (few.map host.messageBytes).sum ≤ (many.map host.messageBytes).sum :=
    (hfew.map host.messageBytes).sum_le_sum fun _ _ => Nat.zero_le _
  omega

theorem Room.filter (h : Room host [] messages)
    (p : RootNotification → Bool) : Room host [] (messages.filter p) := by
  intro init message rest heq
  rcases List.filter_eq_append_iff.mp heq with ⟨first, second, rfl, hinit, hsecond⟩
  rcases List.filter_eq_cons_iff.mp hsecond with ⟨skipped, others, rfl, -, -, -⟩
  have hroom := h (first ++ skipped) message others (List.append_assoc _ _ _).symm
  apply hasRoom_of_sublist _ hroom
  rw [← hinit]
  exact List.filter_sublist.trans (List.sublist_append_left first skipped)

theorem Held.replay (h : owner.Held host) (hlost : owner.lost = false) :
    owner.replay host = owner.settle := by
  have hempty : Admitted { owner with pending := [] } := ⟨h.admitted.active, h.admitted.commands⟩
  unfold OwnedCommands.replay
  rw [observe_quiet hempty h.quiet hlost (h.room.filter _)]
  rfl

/-- The owner with another buffer. -/
def hold (pending : List RootNotification) (owner : OwnedCommands) : OwnedCommands :=
  { owner with pending }

theorem publishCommand_hold (pending : List RootNotification) (command : NativeCommand)
    (owner : OwnedCommands) : publishCommand command (owner.hold pending) =
      (publishCommand command owner).hold pending := by
  unfold publishCommand
  split
  · rfl
  · rfl

theorem observeCommand_hold {turnId : String} (item : CommandItem)
    (hroot : (owner.roots.get? turnId).isSome = true) (pending : List RootNotification) :
    observeCommand host turnId item (owner.hold pending) =
      (owner.observeCommand host turnId item).map (hold pending) := by
  rcases Option.isSome_iff_exists.mp hroot with ⟨origin, horigin⟩
  have hpublish : ∀ (command : NativeCommand) (base : OwnedCommands),
      publishCommand command ((base.hold pending).setCommand (turnId, item.id) command) =
        (publishCommand command (base.setCommand (turnId, item.id) command)).hold pending :=
    fun command base =>
      publishCommand_hold pending command (base.setCommand (turnId, item.id) command)
  have hroots : (owner.hold pending).roots = owner.roots := rfl
  have hcommands : (owner.hold pending).commands = owner.commands := rfl
  unfold observeCommand
  rw [hroots, horigin, hcommands]
  dsimp only
  by_cases hstatus : item.status = .inProgress
  · rw [if_pos hstatus, if_pos hstatus]
    cases hcommand : owner.commands.get? (turnId, item.id) with
    | none =>
      change (if maxCommands ≤ owner.commands.size then none else some _) = _
      by_cases hfull : maxCommands ≤ owner.commands.size
      · rw [if_pos hfull, if_pos hfull]
        rfl
      · rw [if_neg hfull, if_neg hfull]
        exact congrArg some (hpublish _ { owner with created := owner.created + 1 })
    | some command =>
      dsimp only
      split
      · rfl
      · split
        · rfl
        · exact congrArg some (hpublish _ owner)
  · rw [if_neg hstatus, if_neg hstatus]
    cases hcommand : owner.commands.get? (turnId, item.id) with
    | none => rfl
    | some command =>
      dsimp only
      split
      · rfl
      · apply congrArg some
        rw [hpublish _ owner]
        split
        · rfl
        · rfl

theorem observe_hold (hroot : owner.unadmitted message = false)
    (pending : List RootNotification) :
    observe host (owner.hold pending) message = (owner.observe host message).hold pending := by
  have hsome := roots_of_admitted hroot
  have hhandle : handle host message (owner.hold pending) =
      (owner.handle host message).map (hold pending) := by
    cases message with
    | item turnId item => exact observeCommand_hold item hsome pending
    | turnStarted turnId =>
      change (owner.roots.get? turnId).isSome = true at hsome
      have hheld : ((owner.hold pending).roots.get? turnId).isSome = true := hsome
      rw [handle_turnStarted hsome, handle_turnStarted hheld, Option.map_some]
    | turnCompleted turnId =>
      change (owner.roots.get? turnId).isSome = true at hsome
      have hheld : ((owner.hold pending).roots.get? turnId).isSome = true := hsome
      rw [handle_turnCompleted hsome, handle_turnCompleted hheld, Option.map_some]
      rfl
  unfold observe
  rw [hhandle]
  change (if owner.lost = true then _ else _) = _
  by_cases hlost : owner.lost = true
  · rw [if_pos hlost, if_pos hlost]
  · rw [if_neg hlost, if_neg hlost]
    cases owner.handle host message with
    | none => rfl
    | some next => rfl

theorem settle_observe (h : owner.Held host) {message : RootNotification}
    (hkept : (owner.observe host message).lost = false) :
    (owner.observe host message).settle = owner.settle.observe host message := by
  have hlost : owner.lost = false := @kept_before host owner [message] hkept
  by_cases hroot : owner.unadmitted message = true
  · have hnone := Option.isNone_iff_eq_none.mp hroot
    have hsettled : owner.settle.Admitted := h.admitted.pending _
    rw [observe_unadmitted h.admitted hnone hlost] at hkept ⊢
    rw [observe_unadmitted hsettled hnone hlost]
    unfold buffer at hkept ⊢
    split at hkept
    · rename_i hroom
      have hfewer : hasRoom host owner.settle.pending message = true :=
        hasRoom_of_sublist List.filter_sublist hroom
      rw [if_pos hfewer, if_pos hroom, Option.getD_some, Option.getD_some]
      show hold ((owner.pending ++ [message]).filter owner.unadmitted) owner =
        hold (owner.pending.filter owner.unadmitted ++ [message]) owner
      rw [List.filter_append, List.filter_cons_of_pos hroot, List.filter_nil]
    · cases hkept
  · rw [Bool.not_eq_true] at hroot
    have hstays : owner.Stays (owner.observe host message) := observe_stays h.admitted hroot
    have hsame : (owner.observe host message).unadmitted = owner.unadmitted := by
      funext other
      unfold unadmitted
      rw [hstays.roots]
    show hold ((owner.observe host message).pending.filter (owner.observe host message).unadmitted)
      (owner.observe host message) = observe host (hold _ owner) message
    rw [hsame, hstays.pending, observe_hold hroot]

theorem settle_observe_all (h : owner.Held host) {messages : List RootNotification}
    (hkept : (messages.foldl (observe host) owner).lost = false) :
    (messages.foldl (observe host) owner).settle = messages.foldl (observe host) owner.settle := by
  induction messages generalizing owner with
  | nil => rfl
  | cons message rest ih =>
    rw [List.foldl_cons] at hkept ⊢
    rw [ih (h.observe message) hkept, settle_observe h (kept_before hkept), List.foldl_cons]

theorem Held.replay_later (h : owner.Held host) {messages : List RootNotification}
    (hkept : (messages.foldl (OwnedCommands.observe host) owner).lost = false) :
    (messages.foldl (OwnedCommands.observe host) owner).replay host =
      messages.foldl (OwnedCommands.observe host) (owner.replay host) := by
  rw [(h.observe_all messages).replay hkept, h.replay (kept_before hkept),
    settle_observe_all h hkept]

theorem Admitted.observe (h : owner.Admitted) (message : RootNotification) :
    (owner.observe host message).Admitted ∧
      (owner.observe host message).roots = owner.roots ∧
      owner.pending <+: (owner.observe host message).pending := by
  by_cases hroot : owner.unadmitted message = true
  · by_cases hlost : owner.lost = true
    · unfold OwnedCommands.observe
      rw [if_pos hlost]
      exact ⟨h, rfl, List.prefix_refl _⟩
    · rw [Bool.not_eq_true] at hlost
      rw [observe_unadmitted h (Option.isNone_iff_eq_none.mp hroot) hlost]
      unfold buffer
      split
      · exact ⟨h.pending _, rfl, List.prefix_append _ _⟩
      · exact ⟨⟨h.active, h.commands⟩, rfl, List.prefix_refl _⟩
  · rw [Bool.not_eq_true] at hroot
    have hstays : owner.Stays (owner.observe host message) := observe_stays h hroot
    refine ⟨⟨fun turn hturn => ?_, fun key command hcommand => ?_⟩, hstays.roots, ?_⟩
    · rw [hstays.roots]
      exact h.active turn (hstays.active turn hturn)
    · rw [hstays.roots]
      exact hstays.commands key command hcommand
    · exact hstays.pending ▸ List.prefix_refl owner.pending

theorem Admitted.observe_all (h : owner.Admitted) (messages : List RootNotification) :
    (messages.foldl (OwnedCommands.observe host) owner).Admitted ∧
      (messages.foldl (OwnedCommands.observe host) owner).roots = owner.roots ∧
      owner.pending <+: (messages.foldl (OwnedCommands.observe host) owner).pending := by
  induction messages generalizing owner with
  | nil => exact ⟨h, rfl, List.prefix_refl _⟩
  | cons message rest ih =>
    rcases h.observe message with ⟨hnext, hroots, hpending⟩
    rcases ih hnext with ⟨hlast, hsame, hlater⟩
    exact ⟨hlast, hsame.trans hroots, hpending.trans hlater⟩

theorem observe_filter {base : OwnedCommands} (h : base.Admitted) (hroots : base.roots = owner.roots)
    {messages : List RootNotification} (hquiet : ∀ message ∈ messages, owner.quiet message = true) :
    (messages.filter owner.unadmitted).foldl (observe host) base =
      messages.foldl (observe host) base := by
  induction messages generalizing base with
  | nil => rfl
  | cons message rest ih =>
    have hrest : ∀ other ∈ rest, owner.quiet other = true :=
      fun other hother => hquiet other (List.mem_cons_of_mem message hother)
    rw [List.foldl_cons]
    by_cases hroot : owner.unadmitted message = true
    · rw [List.filter_cons_of_pos hroot, List.foldl_cons]
      rcases h.observe message with ⟨hnext, hsame, -⟩
      exact ih hnext (hsame.trans hroots) hrest
    · rw [List.filter_cons_of_neg hroot]
      rw [Bool.not_eq_true] at hroot
      have hbase : base.unadmitted message = false := by
        unfold unadmitted
        rw [hroots]
        exact hroot
      rw [observe_idle hbase (idle_of_quiet (hquiet message List.mem_cons_self) hroot)]
      exact ih h hroots hrest

theorem replay_later_of_quiet (h : owner.Admitted) {messages : List RootNotification}
    (hquiet : ∀ message ∈ messages, owner.quiet message = true)
    (hkept : (messages.foldl (observe host) owner).lost = false) :
    (messages.foldl (observe host) owner).replay host =
      messages.foldl (observe host) (owner.replay host) := by
  rw [observe_quiet h hquiet (kept_before hkept) (room_of_kept h hquiet hkept)]
  rcases (h.pending []).observe_all owner.pending with ⟨hreplayed, hroots, -⟩
  show (owner.pending ++ messages.filter owner.unadmitted).foldl (observe host) _ = _
  rw [List.foldl_append]
  exact observe_filter hreplayed hroots hquiet

/-! ## The buffer of a late admission -/

theorem attached_admitted : Admitted attached :=
  ⟨fun _ hturn => (List.not_mem_nil hturn).elim, fun _ _ hcommand => nomatch hcommand⟩

theorem observe_attached (hkept : (messages.foldl (observe host) attached).lost = false) :
    messages.foldl (observe host) attached = attached.hold messages ∧ Room host [] messages := by
  have hquiet : ∀ message ∈ messages, attached.quiet message = true := fun _ _ => rfl
  have hall : messages.filter attached.unadmitted = messages :=
    List.filter_eq_self.mpr fun _ _ => rfl
  have hroom := room_of_kept attached_admitted hquiet hkept
  refine ⟨?_, ?_⟩
  · rw [observe_quiet attached_admitted hquiet rfl hroom, hall]
    rfl
  · rw [hall] at hroom
    exact hroom

/-- The owner that admits its first turn while notifications are buffered. -/
def admittedLate (nativeTurn appTurn : String) (buffered : List RootNotification) : OwnedCommands :=
  (attached.admitRoot nativeTurn appTurn).hold buffered

theorem admittedLate_admitted (nativeTurn appTurn : String) (buffered : List RootNotification) :
    (admittedLate nativeTurn appTurn buffered).Admitted := by
  refine ⟨fun turn hturn => ?_, fun _ _ hcommand => nomatch hcommand⟩
  rw [List.mem_singleton.mp hturn]
  exact congrArg Option.isSome (Dict.get?_set_self Dict.empty nativeTurn appTurn)

theorem admittedLate_quiet {buffered : List RootNotification}
    (h : message.concerns nativeTurn = false) :
    (admittedLate nativeTurn appTurn buffered).quiet message = true := by
  unfold RootNotification.concerns at h
  rw [Bool.and_eq_false_iff, beq_eq_false_iff_ne, Bool.not_eq_false'] at h
  unfold quiet
  rw [Bool.or_eq_true]
  rcases h with hturn | hidle
  · refine Or.inl ?_
    show ((Dict.set Dict.empty nativeTurn appTurn).get? message.turnId).isNone = true
    rw [Dict.get?_set_of_ne _ _ hturn]
    rfl
  · exact Or.inr hidle

theorem admittedLate_replay {buffered waiting : List RootNotification}
    (hroom : Room host [] buffered)
    (hdisplaced : (∀ message ∈ buffered, message.concerns nativeTurn = false) ∨
      ∀ message ∈ waiting, message.concerns nativeTurn = false)
    (hkept : (waiting.foldl (observe host) (admittedLate nativeTurn appTurn buffered)).lost = false ∨
      (waiting.foldl (observe host) (admittedLate nativeTurn appTurn buffered)).pending = []) :
    (waiting.foldl (observe host) (admittedLate nativeTurn appTurn buffered)).replay host =
      waiting.foldl (observe host)
        (buffered.foldl (observe host) (attached.admitRoot nativeTurn appTurn)) := by
  have hadmitted := admittedLate_admitted nativeTurn appTurn buffered
  rcases hkept with hlost | hnone
  · rcases hdisplaced with hbuffered | hwaiting
    · have hheld : Held host (admittedLate nativeTurn appTurn buffered) :=
        ⟨hadmitted, fun message hmessage => admittedLate_quiet (hbuffered message hmessage), hroom⟩
      exact hheld.replay_later hlost
    · exact replay_later_of_quiet hadmitted
        (fun message hmessage => admittedLate_quiet (hwaiting message hmessage)) hlost
  · -- nothing was buffered
    have hprefix : buffered <+:
        (waiting.foldl (observe host) (admittedLate nativeTurn appTurn buffered)).pending :=
      (hadmitted.observe_all waiting).2.2
    rw [hnone] at hprefix
    have hempty : buffered = [] := List.prefix_nil.mp hprefix
    subst hempty
    have hsame : ∀ final : OwnedCommands, final.pending = [] → final.replay host = final := by
      intro final hfinal
      unfold OwnedCommands.replay
      rw [hfinal, List.foldl_nil, ← hfinal]
    exact hsame _ hnone

end OwnedCommands

/-! ## The two runs -/

open OwnedCommands

theorem replay_meets {waiting : List RootNotification} {rest : List RootTask}
    {actions : List RootAction} (hplain : Plain actions)
    (hmeets : Meets (RootQueue.step host) Undisplaced
      ⟨owner, waiting.map RootTask.observe ++ .replay :: rest⟩ actions)
    (hdrained : (Library.run (RootQueue.step host)
      ⟨owner, waiting.map RootTask.observe ++ .replay :: rest⟩ actions).queue = []) :
    (waiting.foldl (observe host) owner).lost = false ∨
      (waiting.foldl (observe host) owner).pending = [] := by
  induction actions generalizing owner waiting rest with
  | nil =>
    change waiting.map RootTask.observe ++ .replay :: rest = [] at hdrained
    exact absurd hdrained (List.append_ne_nil_of_right_ne_nil _ (List.cons_ne_nil _ _))
  | cons action others ih =>
    rw [run_cons] at hdrained
    cases action with
    | notify message =>
      have hqueue : (waiting.map RootTask.observe ++ .replay :: rest) ++ [.observe message] =
          waiting.map RootTask.observe ++ .replay :: (rest ++ [.observe message]) := by
        rw [List.append_assoc, List.cons_append]
      have hlater : Meets (RootQueue.step host) Undisplaced
          ⟨owner, (waiting.map RootTask.observe ++ .replay :: rest) ++ [.observe message]⟩ others :=
        hmeets.2
      change (Library.run (RootQueue.step host)
        ⟨owner, (waiting.map RootTask.observe ++ .replay :: rest) ++ [.observe message]⟩
          others).queue = [] at hdrained
      rw [hqueue] at hlater hdrained
      exact ih hplain.tail hlater hdrained
    | work =>
      cases waiting with
      | nil => exact hmeets.1 rfl
      | cons message waiting =>
        have hlater : Meets (RootQueue.step host) Undisplaced
            ⟨owner.observe host message, waiting.map RootTask.observe ++ .replay :: rest⟩
            others := hmeets.2
        have hkept := ih hplain.tail hlater hdrained
        exact hkept
    | admitRoot nativeTurn appTurn =>
      exact nomatch hplain _ List.mem_cons_self

theorem perform_observe (messages : List RootNotification) (owner : OwnedCommands) :
    (messages.map RootTask.observe).foldl (RootQueue.perform host) owner =
      messages.foldl (observe host) owner :=
  List.foldl_map

theorem run_admitted {before after : List RootAction} (hbefore : Plain before)
    (hafter : Plain after)
    (hmeets : Meets (RootQueue.step host) Undisplaced .attached
      (before ++ .admitRoot nativeTurn appTurn :: after))
    (hdrained : (Library.run (RootQueue.step host) .attached
      (before ++ .admitRoot nativeTurn appTurn :: after)).queue = []) :
    (Library.run (RootQueue.step host) .attached
      (before ++ .admitRoot nativeTurn appTurn :: after)).owner =
        (notifications before ++ notifications after).foldl (observe host)
          (attached.admitRoot nativeTurn appTurn) := by
  rcases RootQueue.run_attached before hbefore with ⟨buffered, waiting, hsplit, hrun⟩
  rw [run_append, run_cons] at hdrained ⊢
  rcases hmeets.final with ⟨⟨hlost, hdisplaced⟩, hlater⟩
  rw [hrun] at hlost hdisplaced hlater hdrained ⊢
  rcases observe_attached hlost with ⟨hheld, hroom⟩
  rw [hheld] at hlost hdisplaced hlater hdrained ⊢
  change Meets (RootQueue.step host) Undisplaced ⟨admittedLate nativeTurn appTurn buffered,
    waiting.map RootTask.observe ++ [.replay]⟩ after at hlater
  change (Library.run (RootQueue.step host) ⟨admittedLate nativeTurn appTurn buffered,
    waiting.map RootTask.observe ++ [.replay]⟩ after).queue = [] at hdrained
  change (Library.run (RootQueue.step host) ⟨admittedLate nativeTurn appTurn buffered,
    waiting.map RootTask.observe ++ [.replay]⟩ after).owner = _
  have hkept := replay_meets hafter hlater hdrained
  have hundisplaced : (∀ message ∈ buffered, message.concerns nativeTurn = false) ∨
      ∀ message ∈ waiting, message.concerns nativeTurn = false := by
    refine hdisplaced.imp_right fun hqueue message hmessage => ?_
    exact hqueue (.observe message) (List.mem_map_of_mem hmessage)
  rw [RootQueue.run_drained hafter hdrained, List.foldl_append, List.foldl_append,
    perform_observe, perform_observe, hsplit, List.foldl_append, List.foldl_append]
  rw [← admittedLate_replay hroom hundisplaced hkept]
  rfl

/-- In a drained run in which the admission displaces nothing, and which admits the turn once, the
commands, what is published and `busy` are as if it had been admitted first. -/
theorem admission_settled {before after other : List RootAction} (hbefore : Plain before)
    (hafter : Plain after) (hother : Plain other)
    (hsame : notifications other = notifications (before ++ after))
    (hdrained : (Library.run (RootQueue.step host) .attached
      (before ++ .admitRoot nativeTurn appTurn :: after)).queue = [])
    (hfirst : (Library.run (RootQueue.step host) .attached
      (.admitRoot nativeTurn appTurn :: other)).queue = [])
    (hmeets : Meets (RootQueue.step host) Undisplaced .attached
      (before ++ .admitRoot nativeTurn appTurn :: after)) :
    Agrees (Library.run (RootQueue.step host) .attached
        (before ++ .admitRoot nativeTurn appTurn :: after)).owner
      (Library.run (RootQueue.step host) .attached (.admitRoot nativeTurn appTurn :: other)).owner := by
  have hearly : (Library.run (RootQueue.step host) .attached
      (.admitRoot nativeTurn appTurn :: other)).owner =
        (notifications other).foldl (observe host) (attached.admitRoot nativeTurn appTurn) := by
    rw [run_cons] at hfirst ⊢
    rw [RootQueue.run_drained hother hfirst]
    exact perform_observe (notifications other) (attached.admitRoot nativeTurn appTurn)
  have happend : notifications (before ++ after) = notifications before ++ notifications after :=
    List.filterMap_append
  rw [run_admitted hbefore hafter hmeets hdrained, hearly, hsame, happend]
  exact Agrees.refl _

/-! ## A completion that overtakes its start -/

def plainHost : CommandHost where
  summary := id
  publishContent := none
  messageBytes := fun _ => 300

/-- `npm run dev`, as it starts and as it ends. -/
def commandItem (status : CommandItemStatus) : CommandItem where
  id := "item-1"
  command := "npm run dev"
  processId := some "4242"
  status
  exitCode := none
  aggregatedOutput := none

def commandStarts : RootAction := .notify (.item "turn" (commandItem .inProgress))

def commandEnds : RootAction := .notify (.item "turn" (commandItem .completed))

/-- The turn is admitted while both notifications are buffered. -/
theorem admission_settled_buffered :
    Agrees (Library.run (RootQueue.step plainHost) .attached
        ([commandStarts, commandEnds, .work, .work] ++ .admitRoot "turn" "app-turn" :: [.work])).owner
      (Library.run (RootQueue.step plainHost) .attached (.admitRoot "turn" "app-turn" ::
        [commandStarts, commandEnds, .work, .work, .work])).owner := by
  apply admission_settled
  · unfold Plain
    decide
  · unfold Plain
    decide
  · unfold Plain
    decide
  · rfl
  · decide
  · decide
  · exact ⟨trivial, trivial, nofun, nofun, ⟨rfl, Or.inr (by decide)⟩, fun _ => Or.inl rfl, trivial⟩

/-- The turn is admitted while the start of a command is buffered and its end is in the queue: the
command never ends and the owner stays busy. -/
theorem completion_overtaken :
    notifications [commandStarts, .work, commandEnds, .work, .work] =
      notifications [commandStarts, commandEnds, .work, .work, .work] ∧
    (Library.run (RootQueue.step plainHost) .attached
      ([commandStarts, .work, commandEnds] ++
        .admitRoot "turn" "app-turn" :: [.work, .work])).queue = [] ∧
    (Library.run (RootQueue.step plainHost) .attached (.admitRoot "turn" "app-turn" ::
      [commandStarts, commandEnds, .work, .work, .work])).queue = [] ∧
    (Library.run (RootQueue.step plainHost) .attached
      ([commandStarts, .work, commandEnds] ++
        .admitRoot "turn" "app-turn" :: [.work, .work])).owner.busy = true ∧
    (Library.run (RootQueue.step plainHost) .attached (.admitRoot "turn" "app-turn" ::
      [commandStarts, commandEnds, .work, .work, .work])).owner.busy = false ∧
    ¬ Agrees (Library.run (RootQueue.step plainHost) .attached
        ([commandStarts, .work, commandEnds] ++
          .admitRoot "turn" "app-turn" :: [.work, .work])).owner
      (Library.run (RootQueue.step plainHost) .attached (.admitRoot "turn" "app-turn" ::
        [commandStarts, commandEnds, .work, .work, .work])).owner := by
  refine ⟨rfl, by decide, by decide, by decide, by decide, fun hagrees => ?_⟩
  have hbusy := hagrees.busy
  revert hbusy
  decide

end HarnessControl.Codex
