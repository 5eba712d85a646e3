import HarnessControl.Library.Fallible
import HarnessControl.OpenCode.TextProjection
import Mathlib.Data.List.Induction

/-!
# What was streamed of a part

The output tells of each part the deltas, which make up its text while it is open, and at most one
completed text.  Publishing a part settles its account, and leaves every other account alone.
-/

namespace HarnessControl.OpenCode

open HarnessControl.Library

variable {Reference : Type}

/-! ## Accounts -/

def deltaOf (id : String) : TextOutput Reference → List Text
  | .delta _ _ itemId _ delta => if itemId = id then [delta] else []
  | .completed .. => []

def deltas (id : String) (output : List (TextOutput Reference)) : List Text :=
  output.flatMap (deltaOf id)

def completionOf (id : String) : TextOutput Reference → List (RetainedContent Reference)
  | .delta .. => []
  | .completed _ _ itemId _ content => if itemId = id then [content] else []

def completions (id : String) (output : List (TextOutput Reference)) :
    List (RetainedContent Reference) :=
  output.flatMap (completionOf id)

theorem deltas_append (id : String) (first second : List (TextOutput Reference)) :
    deltas id (first ++ second) = deltas id first ++ deltas id second := List.flatMap_append

theorem completions_append (id : String) (first second : List (TextOutput Reference)) :
    completions id (first ++ second) = completions id first ++ completions id second :=
  List.flatMap_append

section

variable (turnId : String) (type : PartType) (itemId messageId : String)

theorem deltas_chunks (chunks : List Text) :
    deltas itemId (chunks.map (@TextOutput.delta Reference turnId type itemId
      messageId)) = chunks := by
  induction chunks with
  | nil => rfl
  | cons chunk rest ih =>
    show (if itemId = itemId then [chunk] else []) ++ deltas itemId _ = [chunk] ++ rest
    rw [if_pos rfl]
    exact congrArg _ ih

theorem deltas_chunks_of_ne {id : String} (h : itemId ≠ id) (chunks : List Text) :
    deltas id (chunks.map (@TextOutput.delta Reference turnId type itemId
      messageId)) = [] := by
  induction chunks with
  | nil => rfl
  | cons chunk rest ih =>
    show (if itemId = id then [chunk] else []) ++ deltas id _ = []
    rw [if_neg h]
    exact ih

theorem completions_chunks (id : String) (chunks : List Text) :
    completions id (chunks.map (@TextOutput.delta Reference turnId type itemId
      messageId)) = [] := by
  induction chunks with
  | nil => rfl
  | cons chunk rest ih => exact ih

end

/-- Nothing was emitted of a part. -/
def Silent (id : String) (output : List (TextOutput Reference)) : Prop :=
  deltas id output = [] ∧ completions id output = []

structure Held (part : TextPart) (output : List (TextOutput Reference)) : Prop where
  emitted : part.emitted = 0
  completedEmitted : part.completedEmitted = false
  silent : Silent part.id output

/-- A part of which nothing is missing. -/
structure Settled (scope : TextScope Reference) (part : TextPart)
    (output : List (TextOutput Reference)) : Prop where
  emitted : part.emitted = part.text.length
  completedEmitted : part.completedEmitted = part.closed
  streamed : part.closed = false → (deltas part.id output).flatten = part.text
  completed : if part.closed then
      ∃ content, retainedContent part.text scope.publishContent = .ok content ∧
        completions part.id output = [content]
    else completions part.id output = []

/-- A part that may be published. -/
structure Due (scope : TextScope Reference) (part : TextPart)
    (output : List (TextOutput Reference)) : Prop where
  streamed : part.closed = false → (deltas part.id output).flatten = part.text.take part.emitted
  completed : if part.completedEmitted then
      part.closed = true ∧
        ∃ content, retainedContent part.text scope.publishContent = .ok content ∧
          completions part.id output = [content]
    else completions part.id output = []

variable {scope : TextScope Reference} {part : TextPart} {output : List (TextOutput Reference)}

theorem Held.due (h : Held part output) : Due scope part output where
  streamed _ := by
    rw [h.emitted, List.take_zero, h.silent.1, List.flatten_nil]
  completed := by
    rw [h.completedEmitted]
    exact h.silent.2

theorem Settled.due (h : Settled scope part output) : Due scope part output where
  streamed hopen := by
    rw [h.emitted, List.take_length]
    exact h.streamed hopen
  completed := by
    have hcompleted := h.completed
    rw [h.completedEmitted]
    split
    · rename_i hclosed
      rw [if_pos hclosed] at hcompleted
      exact ⟨hclosed, hcompleted⟩
    · rename_i hopen
      rwa [if_neg hopen] at hcompleted

def Accounted (scope : TextScope Reference) (self : OpenCodeText Reference) (id : String) : Prop :=
  match self.parts.get? id with
  | none => Silent id self.output
  | some part => part.id = id ∧
    if self.owners.get? part.messageID = some true then Settled scope part self.output
    else Held part self.output

structure SameAccount (before after : OpenCodeText Reference) (id : String) : Prop where
  part : after.parts.get? id = before.parts.get? id
  deltas : deltas id after.output = deltas id before.output
  completions : completions id after.output = completions id before.output

variable {before after final : OpenCodeText Reference} {id : String}

theorem SameAccount.refl (before : OpenCodeText Reference) (id : String) :
    SameAccount before before id := ⟨rfl, rfl, rfl⟩

theorem SameAccount.trans (h : SameAccount before after id) (h' : SameAccount after final id) :
    SameAccount before final id :=
  ⟨h'.part.trans h.part, h'.deltas.trans h.deltas, h'.completions.trans h.completions⟩

theorem Settled.of_output {output' : List (TextOutput Reference)} (h : Settled scope part output)
    (hdeltas : deltas part.id output' = deltas part.id output)
    (hcompletions : completions part.id output' = completions part.id output) :
    Settled scope part output' where
  emitted := h.emitted
  completedEmitted := h.completedEmitted
  streamed hopen := (congrArg _ hdeltas).trans (h.streamed hopen)
  completed := by
    rw [hcompletions]
    exact h.completed

theorem Held.of_output {output' : List (TextOutput Reference)} (h : Held part output)
    (hdeltas : deltas part.id output' = deltas part.id output)
    (hcompletions : completions part.id output' = completions part.id output) :
    Held part output' :=
  ⟨h.emitted, h.completedEmitted, hdeltas.trans h.silent.1, hcompletions.trans h.silent.2⟩

theorem Accounted.of_same (h : Accounted scope before id) (hsame : SameAccount before after id)
    (howners : after.owners = before.owners) : Accounted scope after id := by
  unfold Accounted at h ⊢
  rw [hsame.part, howners]
  split
  · rename_i hnone
    rw [hnone] at h
    exact ⟨hsame.deltas.trans h.1, hsame.completions.trans h.2⟩
  · rename_i part hpart
    rw [hpart] at h
    obtain ⟨rfl, haccount⟩ := h
    refine ⟨rfl, ?_⟩
    split
    · rename_i howned
      rw [if_pos howned] at haccount
      exact haccount.of_output hsame.deltas hsame.completions
    · rename_i howned
      rw [if_neg howned] at haccount
      exact haccount.of_output hsame.deltas hsame.completions

theorem Accounted.stored (h : Accounted scope before id)
    (hpart : before.parts.get? id = some part) :
    part.id = id ∧ if before.owners.get? part.messageID = some true then
      Settled scope part before.output else Held part before.output := by
  unfold Accounted at h
  rw [hpart] at h
  exact h

theorem Accounted.absent (h : Accounted scope before id) (hpart : before.parts.get? id = none) :
    Silent id before.output := by
  unfold Accounted at h
  rw [hpart] at h
  exact h

theorem Accounted.intro {stored : TextPart} (hpart : before.parts.get? id = some stored)
    (hid : stored.id = id)
    (h : if before.owners.get? stored.messageID = some true then
        Settled scope stored before.output
      else Held stored before.output) : Accounted scope before id := by
  unfold Accounted
  rw [hpart]
  exact ⟨hid, h⟩

/-! ## The order of the output -/

/-- Nothing is streamed of a part after its completed text. -/
def Ordered (id : String) (output : List (TextOutput Reference)) : Prop :=
  ∀ first last event, output = first ++ event :: last → completionOf id event ≠ [] →
    deltas id last = []

theorem Ordered.of_no_completions (h : completions id output = []) : Ordered id output := by
  rintro first last event rfl hevent
  rw [completions_append, List.append_eq_nil_iff] at h
  exact absurd (List.append_eq_nil_iff.mp h.2).1 hevent

theorem Ordered.append {new : List (TextOutput Reference)} (h : Ordered id output)
    (hnew : deltas id new = [] ∨ completions id (output ++ new) = []) :
    Ordered id (output ++ new) := by
  obtain hnew | hnew := hnew
  · intro first last event heq hevent
    obtain ⟨rest, hfirst, htail⟩ | ⟨rest, hfirst, htail⟩ := List.append_eq_append_iff.mp heq
    · -- the completed text is new
      rw [htail, deltas_append] at hnew
      exact (List.append_eq_nil_iff.mp (List.append_eq_nil_iff.mp hnew).2).2
    · -- the completed text was there before
      cases rest with
      | nil =>
        rw [List.nil_append] at htail
        rw [← htail] at hnew
        exact (List.append_eq_nil_iff.mp hnew).2
      | cons other rest =>
        rw [List.cons_append, List.cons.injEq] at htail
        obtain ⟨rfl, rfl⟩ := htail
        rw [deltas_append, h first rest event hfirst hevent, hnew]
        rfl
  · exact Ordered.of_no_completions hnew

/-! ## Publishing -/

namespace OpenCodeText

/-- The part may be published. -/
def Ready (scope : TextScope Reference) (part : TextPart) (before : OpenCodeText Reference) : Prop :=
  if before.owners.get? part.messageID = some true then Due scope part before.output
  else Held part before.output

structure Published (scope : TextScope Reference) (part : TextPart)
    (before after : OpenCodeText Reference) : Prop where
  owners : after.owners = before.owners
  others : ∀ id, id ≠ part.id → SameAccount before after id
  account : Ready scope part before → Accounted scope after part.id
  ordered : Ready scope part before → (∀ id, Ordered id before.output) →
    ∀ id, Ordered id after.output
  stored : ∃ stored, after.parts.get? part.id = some stored ∧ stored.closed = part.closed
  /-- Of a closed part nothing is streamed. -/
  closed : part.closed = true → ∀ id, deltas id after.output = deltas id before.output

theorem publish_spec (h : before.publish scope part = .ok after) :
    Published scope part before after := by
  unfold publish at h
  split at h
  · rename_i howned
    obtain rfl := Except.ok.inj h
    exact {
      owners := rfl
      others := fun id hne => ⟨Dict.get?_set_of_ne _ _ hne, rfl, rfl⟩
      ordered := fun _ hordered => hordered
      account := fun haccount => by
        unfold Ready at haccount
        rw [if_neg howned] at haccount
        apply Accounted.intro (Dict.get?_set_self _ _ _) rfl
        rw [if_neg howned]
        exact haccount
      stored := ⟨part, Dict.get?_set_self _ _ _, rfl⟩
      closed := fun _ _ => rfl }
  · rename_i howned
    rw [not_not] at howned
    split at h
    · rename_i hclosed
      dsimp only at h
      split at h
      · rename_i hcompleted
        obtain rfl := Except.ok.inj h
        exact {
          owners := rfl
          others := fun id hne => ⟨Dict.get?_set_of_ne _ _ hne, rfl, rfl⟩
          ordered := fun _ hordered => hordered
          account := fun haccount => by
            unfold Ready at haccount
            rw [if_pos howned] at haccount
            have hdue := haccount.completed
            rw [if_pos hcompleted] at hdue
            obtain ⟨-, hcontent⟩ := hdue
            have hset := Dict.get?_set_self before.parts part.id
              { part with completedEmitted := true, emitted := part.text.length }
            refine Accounted.intro hset (Eq.refl part.id) ?_
            rw [if_pos howned]
            exact {
              emitted := rfl
              completedEmitted := hclosed.symm
              streamed := fun hopen => absurd (hclosed.symm.trans hopen) (by decide)
              completed := by
                rw [if_pos hclosed]
                exact hcontent }
          stored := ⟨_, Dict.get?_set_self _ _ _, rfl⟩
          closed := fun _ _ => rfl }
      · rename_i hcompleted
        obtain ⟨content, hcontent, rfl⟩ := map_ok.mp h
        have hdeltas : ∀ id, deltas id (before.output ++
            [.completed scope.turnId part.type part.id part.messageID content]) =
              deltas id before.output := by
          intro id
          rw [deltas_append]
          exact List.append_nil _
        have hcompletions : ∀ id, completions id (before.output ++
            [.completed scope.turnId part.type part.id part.messageID content]) =
              completions id before.output ++ if part.id = id then [content] else [] := by
          intro id
          rw [completions_append]
          show _ ++ ((if part.id = id then [content] else []) ++ []) = _
          rw [List.append_nil]
        exact {
          owners := rfl
          others := fun id hne => by
            refine ⟨Dict.get?_set_of_ne _ _ hne, hdeltas id, ?_⟩
            rw [hcompletions, if_neg (Ne.symm hne), List.append_nil]
          ordered := fun _ hordered id => (hordered id).append (Or.inl rfl)
          account := fun haccount => by
            unfold Ready at haccount
            rw [if_pos howned] at haccount
            have hdue := haccount.completed
            rw [if_neg hcompleted] at hdue
            have hset := Dict.get?_set_self before.parts part.id
              { part with completedEmitted := true, emitted := part.text.length }
            refine Accounted.intro hset (Eq.refl part.id) ?_
            rw [if_pos howned]
            exact {
              emitted := rfl
              completedEmitted := hclosed.symm
              streamed := fun hopen => absurd (hclosed.symm.trans hopen) (by decide)
              completed := by
                rw [if_pos hclosed]
                refine ⟨content, hcontent, ?_⟩
                rw [hcompletions, if_pos rfl, hdue]
                rfl }
          stored := ⟨_, Dict.get?_set_self _ _ _, rfl⟩
          closed := fun _ => hdeltas }
    · rename_i hopen
      obtain rfl := Except.ok.inj h
      rw [Bool.not_eq_true] at hopen
      have hsilent : Ready scope part before → completions part.id before.output = [] := by
        intro haccount
        unfold Ready at haccount
        rw [if_pos howned] at haccount
        have hdue := haccount.completed
        split at hdue
        · exact absurd (hopen.symm.trans hdue.1) (by decide)
        · exact hdue
      exact {
        owners := rfl
        ordered := fun haccount hordered id => by
          apply (hordered id).append
          by_cases hid : part.id = id
          · right
            rw [completions_append, completions_chunks, List.append_nil, ← hid]
            exact hsilent haccount
          · left
            exact deltas_chunks_of_ne _ _ _ _ hid _
        others := fun id hne => by
          refine ⟨Dict.get?_set_of_ne _ _ hne, ?_, ?_⟩
          · rw [deltas_append, deltas_chunks_of_ne _ _ _ _ (Ne.symm hne), List.append_nil]
          · rw [completions_append, completions_chunks, List.append_nil]
        account := fun haccount => by
          have hdue := hsilent haccount
          unfold Ready at haccount
          rw [if_pos howned] at haccount
          have hcompleted : part.completedEmitted = false := by
            rw [← Bool.not_eq_true]
            intro hcompleted
            have hclosed := haccount.completed
            rw [if_pos hcompleted] at hclosed
            exact absurd (hopen.symm.trans hclosed.1) (by decide)
          have hset := Dict.get?_set_self before.parts part.id
            { part with emitted := part.text.length }
          refine Accounted.intro hset (Eq.refl part.id) ?_
          rw [if_pos howned]
          exact {
            emitted := rfl
            completedEmitted := hcompleted.trans hopen.symm
            streamed := fun _ => by
              rw [deltas_append, deltas_chunks, List.flatten_append, flatten_textChunks,
                haccount.streamed hopen]
              exact List.take_append_drop _ _
            completed := by
              rw [if_neg (by rw [hopen]; decide), completions_append, completions_chunks,
                List.append_nil]
              exact hdue }
        stored := ⟨_, Dict.get?_set_self _ _ _, rfl⟩
        closed := fun hclosed => absurd (hopen.symm.trans hclosed) (by decide) }

/-- What a step does to the account of a part: nothing, or it settles it. -/
def Touched (scope : TextScope Reference) (before after : OpenCodeText Reference) (id : String) :
    Prop :=
  SameAccount before after id ∨
    Accounted scope after id ∧ ∀ stored, after.parts.get? id = some stored → stored.closed = true →
      deltas id after.output = deltas id before.output

theorem Published.touched (h : Published scope part before after) (hready : Ready scope part before)
    (id : String) : Touched scope before after id := by
  by_cases hid : id = part.id
  · subst hid
    refine Or.inr ⟨h.account hready, fun stored hstored hclosed => ?_⟩
    obtain ⟨other, hother, hsame⟩ := h.stored
    obtain rfl := Option.some.inj (hother.symm.trans hstored)
    exact h.closed (hsame.symm.trans hclosed) _
  · exact Or.inl (h.others id hid)

theorem Ready.of_same (h : Ready scope part before) (hsame : SameAccount before after part.id)
    (howners : after.owners = before.owners) : Ready scope part after := by
  unfold Ready at h ⊢
  rw [howners]
  split
  · rename_i howned
    rw [if_pos howned] at h
    refine ⟨fun hopen => (congrArg _ hsame.deltas).trans (h.streamed hopen), ?_⟩
    rw [hsame.completions]
    exact h.completed
  · rename_i howned
    rw [if_neg howned] at h
    exact h.of_output hsame.deltas hsame.completions

/-- Publishing the parts of a message settles their accounts. -/
theorem publishParts_spec {messageID : String} {parts : List TextPart}
    (h : publishParts scope messageID parts before = .ok after)
    (hnodup : (parts.map TextPart.id).Nodup) (hready : ∀ part ∈ parts, Ready scope part before)
    (hordered : ∀ id, Ordered id before.output) :
    after.owners = before.owners ∧ (∀ id, Ordered id after.output) ∧
      (∀ part ∈ parts, part.messageID = messageID → Accounted scope after part.id) ∧
      (∀ id, (∀ part ∈ parts, part.id = id → part.messageID ≠ messageID) →
        SameAccount before after id) ∧
      ∀ id, Touched scope before after id := by
  induction parts generalizing before with
  | nil =>
    obtain rfl := Except.ok.inj h
    exact ⟨rfl, hordered, fun _ hin => absurd hin List.not_mem_nil,
      fun id _ => SameAccount.refl _ id, fun id => Or.inl (SameAccount.refl _ id)⟩
  | cons first rest ih =>
    rw [List.map_cons, List.nodup_cons] at hnodup
    unfold publishParts at h
    split at h
    · rename_i hmessage
      obtain ⟨middle, hmiddle, h⟩ := bind_ok.mp h
      have hpublished := publish_spec hmiddle
      have hfirst := hready first List.mem_cons_self
      have hother : ∀ part ∈ rest, part.id ≠ first.id := by
        intro part hin heq
        exact hnodup.1 (List.mem_map.mpr ⟨part, hin, heq⟩)
      obtain ⟨howners, horder, haccounts, hsame, htouched⟩ := ih h hnodup.2
        (fun part hin => (hready part (List.mem_cons_of_mem _ hin)).of_same
          (hpublished.others _ (hother part hin)) hpublished.owners)
        (hpublished.ordered hfirst hordered)
      have hkept : SameAccount middle after first.id :=
        hsame first.id fun part hin heq => absurd heq (hother part hin)
      refine ⟨howners.trans hpublished.owners, horder, ?_, ?_, ?_⟩
      · intro part hin hpart
        obtain rfl | hin := List.mem_cons.mp hin
        · exact (hpublished.account hfirst).of_same hkept howners
        · exact haccounts part hin hpart
      · intro id hnone
        have hid : id ≠ first.id := by
          rintro rfl
          exact hnone first List.mem_cons_self rfl hmessage
        exact (hpublished.others id hid).trans
          (hsame id fun part hin => hnone part (List.mem_cons_of_mem _ hin))
      · intro id
        by_cases hid : id = first.id
        · subst hid
          obtain hstep | ⟨haccount, hfrozen⟩ := hpublished.touched hfirst first.id
          · exact Or.inl (hstep.trans hkept)
          · refine Or.inr ⟨haccount.of_same hkept howners, fun stored hstored hclosed => ?_⟩
            rw [hkept.part] at hstored
            exact hkept.deltas.trans (hfrozen stored hstored hclosed)
        · have hstep := hpublished.others id hid
          obtain hlater | ⟨haccount, hfrozen⟩ := htouched id
          · exact Or.inl (hstep.trans hlater)
          · refine Or.inr ⟨haccount, fun stored hstored hclosed => ?_⟩
            exact (hfrozen stored hstored hclosed).trans hstep.deltas
    · rename_i hmessage
      obtain ⟨howners, horder, haccounts, hsame, htouched⟩ := ih h hnodup.2
        (fun part hin => hready part (List.mem_cons_of_mem _ hin)) hordered
      refine ⟨howners, horder, ?_, ?_, htouched⟩
      · intro part hin hpart
        obtain rfl | hin := List.mem_cons.mp hin
        · exact absurd hpart hmessage
        · exact haccounts part hin hpart
      · intro id hnone
        exact hsame id fun part hin => hnone part (List.mem_cons_of_mem _ hin)

/-! ## One event -/

/-- The accounts of all parts. -/
structure Books (scope : TextScope Reference) (before : OpenCodeText Reference) : Prop where
  accounts : ∀ id, Accounted scope before id
  ordered : ∀ id, Ordered id before.output

/-- The books are kept, and nothing is streamed of a part that is closed then. -/
structure Kept (scope : TextScope Reference) (before after : OpenCodeText Reference) : Prop where
  books : Books scope after
  closed : ∀ id stored, after.parts.get? id = some stored → stored.closed = true →
    deltas id after.output = deltas id before.output

theorem Kept.refl (h : Books scope before) : Kept scope before before := ⟨h, fun _ _ _ _ => rfl⟩

theorem Kept.of_touched (h : Books scope before) (howners : after.owners = before.owners)
    (htouched : ∀ id, Touched scope before after id) (hordered : ∀ id, Ordered id after.output) :
    Kept scope before after where
  books := by
    refine ⟨fun id => ?_, hordered⟩
    obtain hsame | ⟨haccount, -⟩ := htouched id
    · exact (h.accounts id).of_same hsame howners
    · exact haccount
  closed id stored hstored hclosed := by
    obtain hsame | ⟨-, hfrozen⟩ := htouched id
    · exact hsame.deltas
    · exact hfrozen stored hstored hclosed

theorem Kept.publish (h : Books scope before) (hready : Ready scope part before)
    (hpublish : before.publish scope part = .ok after) : Kept scope before after :=
  Kept.of_touched h (publish_spec hpublish).owners ((publish_spec hpublish).touched hready)
    ((publish_spec hpublish).ordered hready h.ordered)

theorem bounded_eq (h : before.bounded = .ok after) : after = before := by
  unfold bounded at h
  rw [ite_error_ok] at h
  exact (Except.ok.inj h.2).symm

theorem Ready.stored (h : Accounted scope before id) (hpart : before.parts.get? id = some part) :
    Ready scope part before := by
  obtain ⟨-, haccount⟩ := h.stored hpart
  unfold Ready
  split
  · rename_i howned
    rw [if_pos howned] at haccount
    exact haccount.due
  · rename_i howned
    rw [if_neg howned] at haccount
    exact haccount

theorem Ready.updated (h : Ready scope part before) (hopen : part.closed = false)
    (hemitted : before.owners.get? part.messageID = some true → part.emitted ≤ part.text.length)
    {text : Text} {closed : Bool} (htext : closed = false → part.text <+: text) :
    Ready scope { part with text := text, closed := closed } before := by
  unfold Ready at h ⊢
  by_cases howned : before.owners.get? part.messageID = some true
  · rw [if_pos howned] at h
    rw [if_pos howned]
    exact {
      streamed := fun hstill => by
        obtain ⟨more, rfl⟩ := htext hstill
        show (deltas part.id before.output).flatten = (part.text ++ more).take part.emitted
        rw [List.take_append_of_le_length (hemitted howned)]
        exact h.streamed hopen
      completed := by
        have hcompleted := h.completed
        by_cases hemit : part.completedEmitted = true
        · rw [if_pos hemit] at hcompleted
          exact absurd (hopen.symm.trans hcompleted.1) (by decide)
        · rw [if_neg hemit] at hcompleted
          rw [if_neg hemit]
          exact hcompleted }
  · rw [if_neg howned] at h
    rw [if_neg howned]
    exact ⟨h.emitted, h.completedEmitted, h.silent⟩

theorem Ready.current (h : Accounted scope before id) (messageID : String) (type : PartType) :
    let part := (before.parts.get? id).getD ⟨id, messageID, type, [], 0, false, false⟩
    Ready scope part before ∧
      (before.owners.get? part.messageID = some true → part.emitted ≤ part.text.length) := by
  cases hpart : before.parts.get? id with
  | none =>
    have hsilent := h.absent hpart
    have hheld : Held ⟨id, messageID, type, [], 0, false, false⟩ before.output :=
      ⟨rfl, rfl, hsilent⟩
    refine ⟨?_, fun _ => Nat.le_refl _⟩
    unfold Ready
    split
    · exact hheld.due
    · exact hheld
  | some part =>
    refine ⟨Ready.stored h hpart, fun howned => ?_⟩
    obtain ⟨-, haccount⟩ := h.stored hpart
    rw [Option.getD_some] at howned ⊢
    rw [if_pos howned] at haccount
    exact haccount.emitted.le

theorem replace_spec {text : Text} {replaced : TextPart}
    (h : before.replace part text = .ok (after, replaced)) :
    after.owners = before.owners ∧ after.parts = before.parts ∧ after.output = before.output ∧
      replaced = { part with text := text } := by
  unfold replace at h
  dsimp only at h
  rw [ite_error_ok] at h
  obtain ⟨rfl, rfl⟩ := Prod.mk.inj (Except.ok.inj h.2)
  exact ⟨rfl, rfl, rfl, rfl⟩

theorem Books.of_eq (h : Books scope before) (howners : after.owners = before.owners)
    (hparts : after.parts = before.parts) (houtput : after.output = before.output) :
    Books scope after := by
  refine ⟨fun id => ?_, fun id => ?_⟩
  · exact (h.accounts id).of_same ⟨by rw [hparts], by rw [houtput], by rw [houtput]⟩ howners
  · rw [houtput]
    exact h.ordered id

theorem Ready.of_eq (h : Ready scope part before) (howners : after.owners = before.owners)
    (houtput : after.output = before.output) : Ready scope part after := by
  unfold Ready at h ⊢
  rw [howners, houtput]
  exact h

theorem Kept.replaced {middle : OpenCodeText Reference} (h : Books scope before)
    (howners : middle.owners = before.owners) (hparts : middle.parts = before.parts)
    (houtput : middle.output = before.output) (hready : Ready scope part before)
    (hpublish : middle.publish scope part = .ok after) : Kept scope before after := by
  have hkept := Kept.publish (h.of_eq howners hparts houtput) (hready.of_eq howners houtput) hpublish
  refine ⟨hkept.books, fun id stored hstored hclosed => ?_⟩
  rw [hkept.closed id stored hstored hclosed, houtput]

theorem updatedText_extends {info : PartInfo} {delta text : Option Text} {closed : Bool}
    (h : updatedText part info delta = .ok (text, closed)) :
    closed = false → part.text <+: text.getD part.text := by
  unfold updatedText at h
  split at h
  · split at h
    · cases h
    · obtain ⟨rfl, rfl⟩ := Prod.mk.inj (Except.ok.inj h)
      exact nofun
  · split at h
    · split at h
      · rename_i hprefix
        obtain ⟨rfl, rfl⟩ := Prod.mk.inj (Except.ok.inj h)
        exact fun _ => List.isPrefixOf_iff_prefix.mp hprefix
      · split at h
        · obtain ⟨rfl, rfl⟩ := Prod.mk.inj (Except.ok.inj h)
          exact fun _ => List.prefix_rfl
        · cases h
    · obtain ⟨rfl, rfl⟩ := Prod.mk.inj (Except.ok.inj h)
      exact fun _ => List.prefix_append _ _
    · obtain ⟨rfl, rfl⟩ := Prod.mk.inj (Except.ok.inj h)
      exact fun _ => List.prefix_rfl

theorem replaceIf_spec {text : Option Text} {replaced : TextPart}
    (h : before.replaceIf part text = .ok (after, replaced)) :
    after.owners = before.owners ∧ after.parts = before.parts ∧ after.output = before.output ∧
      replaced = { part with text := text.getD part.text } := by
  unfold replaceIf at h
  split at h
  · obtain ⟨rfl, rfl⟩ := Prod.mk.inj (Except.ok.inj h)
    exact ⟨rfl, rfl, rfl, rfl⟩
  · exact replace_spec h

theorem partUpdated_kept (h : Books scope before) {info : PartInfo} {delta : Option Text}
    (hstep : before.partUpdated scope info delta = .ok after) : Kept scope before after := by
  unfold partUpdated at hstep
  split at hstep
  · obtain rfl := Except.ok.inj hstep
    exact Kept.refl h
  · dsimp only at hstep
    rw [ite_error_ok] at hstep
    obtain ⟨-, hstep⟩ := hstep
    obtain ⟨hready, hemitted⟩ := Ready.current (h.accounts info.id) info.messageID info.type
    generalize (before.parts.get? info.id).getD
      ⟨info.id, info.messageID, info.type, [], 0, false, false⟩ = part at hstep hready hemitted
    split at hstep
    · rw [ite_error_ok] at hstep
      exact Kept.publish h hready hstep.2
    · rename_i hopen
      rw [Bool.not_eq_true] at hopen
      obtain ⟨⟨text, closed⟩, htext, hstep⟩ := bind_ok.mp hstep
      obtain ⟨⟨middle, replaced⟩, hreplace, hstep⟩ := bind_ok.mp hstep
      obtain ⟨published, hpublish, hbounded⟩ := bind_ok.mp hstep
      obtain rfl := bounded_eq hbounded
      obtain ⟨howners, hparts, houtput, rfl⟩ := replaceIf_spec hreplace
      exact Kept.replaced h howners hparts houtput
        (hready.updated hopen hemitted (updatedText_extends htext)) hpublish

theorem partDelta_kept (h : Books scope before) {info : PartDelta}
    (hstep : before.partDelta scope info = .ok after) : Kept scope before after := by
  unfold partDelta at hstep
  split at hstep
  · obtain rfl := Except.ok.inj hstep
    exact Kept.refl h
  split at hstep
  · obtain rfl := Except.ok.inj hstep
    exact Kept.refl h
  split at hstep
  · cases hstep
  · rename_i part hpart
    rw [ite_error_ok, ite_error_ok] at hstep
    obtain ⟨-, hclosed, hstep⟩ := hstep
    obtain ⟨⟨middle, replaced⟩, hreplace, hstep⟩ := bind_ok.mp hstep
    obtain ⟨published, hpublish, hbounded⟩ := bind_ok.mp hstep
    obtain rfl := bounded_eq hbounded
    obtain ⟨howners, hparts, houtput, rfl⟩ := replace_spec hreplace
    have hready := Ready.stored (h.accounts info.partID) hpart
    obtain ⟨-, haccount⟩ := (h.accounts info.partID).stored hpart
    apply Kept.replaced h howners hparts houtput _ hpublish
    by_cases hopen : part.closed = true
    · -- nothing is added to a closed part
      have hnone : info.delta = [] := by
        by_contra hsome
        exact hclosed (by rw [hopen, decide_eq_true hsome]; rfl)
      rw [hnone, List.append_nil]
      exact hready
    · rw [Bool.not_eq_true] at hopen
      apply hready.updated hopen _ fun _ => List.prefix_append _ _
      intro howned
      rw [if_pos howned] at haccount
      exact haccount.emitted.le

theorem Books.part_id (h : Books scope before) {entry : String × TextPart}
    (hin : entry ∈ before.parts.entries) : entry.2.id = entry.1 :=
  ((h.accounts entry.1).stored (Dict.get?_eq_some_iff.mpr hin)).1

theorem Books.ids (h : Books scope before) :
    before.parts.values.map TextPart.id = before.parts.keys := by
  unfold Dict.values Dict.keys
  rw [List.map_map]
  apply List.map_congr_left
  intro entry hin
  exact h.part_id hin

theorem messageUpdated_kept (h : Books scope before) {info : MessageInfo}
    (hstep : before.messageUpdated scope info = .ok after) : Kept scope before after := by
  unfold messageUpdated at hstep
  split at hstep
  · obtain rfl := Except.ok.inj hstep
    exact Kept.refl h
  split at hstep
  · obtain rfl := Except.ok.inj hstep
    exact Kept.refl h
  · rename_i parentID _ _
    dsimp only at hstep
    rw [ite_error_ok] at hstep
    obtain ⟨hprevious, hstep⟩ := hstep
    obtain ⟨published, hpublish, hbounded⟩ := bind_ok.mp hstep
    obtain rfl := bounded_eq hbounded
    -- a message that was owned before is owned still
    have howned : ∀ messageID, before.owners.get? messageID = some true →
        (before.owners.set info.id (decide (parentID = scope.promptId))).get? messageID =
          some true := by
      intro messageID hbefore
      by_cases hid : messageID = info.id
      · subst hid
        rw [Dict.get?_set_self]
        by_contra hne
        exact hprevious ⟨by rw [hbefore]; rfl, by rw [hbefore]; exact Ne.symm hne⟩
      · rw [Dict.get?_set_of_ne _ _ hid]
        exact hbefore
    have hready : ∀ part ∈ before.parts.values, Ready scope part
        { before with
          owners := before.owners.set info.id (decide (parentID = scope.promptId)) } := by
      intro part hin
      obtain ⟨entry, hentry, rfl⟩ := List.mem_map.mp hin
      obtain ⟨-, haccount⟩ := (h.accounts entry.1).stored (Dict.get?_eq_some_iff.mpr hentry)
      unfold Ready
      by_cases hbefore : before.owners.get? entry.2.messageID = some true
      · rw [if_pos hbefore] at haccount
        rw [if_pos (howned _ hbefore)]
        exact haccount.due
      · rw [if_neg hbefore] at haccount
        split
        · exact haccount.due
        · exact haccount
    have hnodup : (before.parts.values.map TextPart.id).Nodup := by
      rw [h.ids]
      exact before.parts.nodup
    obtain ⟨howners, hordered, haccounts, hsame, htouched⟩ :=
      publishParts_spec hpublish hnodup hready h.ordered
    refine ⟨⟨fun id => ?_, hordered⟩, fun id stored hstored hclosed => ?_⟩
    · by_cases hmessage : ∃ part ∈ before.parts.values, part.id = id ∧ part.messageID = info.id
      · obtain ⟨part, hin, rfl, hpart⟩ := hmessage
        exact haccounts part hin hpart
      · -- the part is of another message, whose owner did not change
        have hother := hsame id fun part hin hid hpart => hmessage ⟨part, hin, hid, hpart⟩
        unfold Accounted
        rw [hother.part]
        have haccount := h.accounts id
        cases hpart : before.parts.get? id with
        | none =>
          have hsilent := haccount.absent hpart
          exact ⟨hother.deltas.trans hsilent.1, hother.completions.trans hsilent.2⟩
        | some part =>
          obtain ⟨hid, hstored⟩ := haccount.stored hpart
          have hne : part.messageID ≠ info.id := fun heq =>
            hmessage ⟨part, Dict.mem_values_of_get? hpart, hid, heq⟩
          subst hid
          refine ⟨rfl, ?_⟩
          rw [howners]
          show if (before.owners.set info.id _).get? part.messageID = some true then _ else _
          rw [Dict.get?_set_of_ne _ _ hne]
          split
          · rename_i hbefore
            rw [if_pos hbefore] at hstored
            exact hstored.of_output hother.deltas hother.completions
          · rename_i hbefore
            rw [if_neg hbefore] at hstored
            exact hstored.of_output hother.deltas hother.completions
    · obtain hother | ⟨-, hfrozen⟩ := htouched id
      · exact hother.deltas
      · exact hfrozen stored hstored hclosed

theorem observe_kept (h : Books scope before) {event : TextEvent}
    (hstep : before.observe scope event = .ok after) : Kept scope before after := by
  unfold observe at hstep
  split at hstep
  · obtain rfl := Except.ok.inj hstep
    exact Kept.refl h
  · obtain rfl := Except.ok.inj hstep
    exact Kept.refl h
  · obtain rfl := Except.ok.inj hstep
    exact Kept.refl h
  · exact messageUpdated_kept h hstep
  · exact partUpdated_kept h hstep
  · exact partDelta_kept h hstep
  · obtain rfl := bounded_eq hstep
    exact Kept.refl h

theorem Books.opened (scope : TextScope Reference) : Books scope opened :=
  ⟨fun _ => ⟨rfl, rfl⟩, fun _ => Ordered.of_no_completions rfl⟩

theorem observeAll_concat {events : List TextEvent} {event : TextEvent}
    (h : observeAll scope before (events ++ [event]) = .ok after) :
    ∃ middle, observeAll scope before events = .ok middle ∧ middle.observe scope event = .ok after := by
  induction events generalizing before with
  | nil =>
    obtain ⟨middle, hmiddle, hlast⟩ := bind_ok.mp h
    obtain rfl := Except.ok.inj hlast
    exact ⟨before, rfl, hmiddle⟩
  | cons first rest ih =>
    obtain ⟨next, hnext, h⟩ := bind_ok.mp h
    obtain ⟨middle, hmiddle, hlast⟩ := ih h
    exact ⟨middle, bind_ok.mpr ⟨next, hnext, hmiddle⟩, hlast⟩

theorem run_kept {events : List TextEvent} (h : observeAll scope opened events = .ok after) :
    Books scope after ∧ ∀ id stored, after.parts.get? id = some stored → stored.closed = true →
      ∃ earlier before, earlier <+: events ∧ observeAll scope opened earlier = .ok before ∧
        (∀ part, before.parts.get? id = some part → part.closed = false) ∧
        deltas id after.output = deltas id before.output := by
  induction events using List.reverseRecOn generalizing after with
  | nil =>
    obtain rfl := Except.ok.inj h
    exact ⟨Books.opened scope, fun id stored hstored => nomatch hstored⟩
  | append_singleton events event ih =>
    obtain ⟨middle, hmiddle, hlast⟩ := observeAll_concat h
    obtain ⟨hbooks, hclosing⟩ := ih hmiddle
    have hkept := observe_kept hbooks hlast
    refine ⟨hkept.books, fun id stored hstored hclosed => ?_⟩
    have hsame := hkept.closed id stored hstored hclosed
    by_cases hbefore : ∃ part, middle.parts.get? id = some part ∧ part.closed = true
    · obtain ⟨part, hpart, hpartClosed⟩ := hbefore
      obtain ⟨earlier, before, hprefix, hrun, hopen, hdeltas⟩ := hclosing id part hpart hpartClosed
      exact ⟨earlier, before, hprefix.trans (List.prefix_append _ _), hrun, hopen,
        hsame.trans hdeltas⟩
    · refine ⟨events, middle, List.prefix_append _ _, hmiddle, fun part hpart => ?_, hsame⟩
      rw [← Bool.not_eq_true]
      exact fun hpartClosed => hbefore ⟨part, hpart, hpartClosed⟩

end OpenCodeText

/-! ## The text of parts -/

def rootScope : TextScope Unit := ⟨"session", "prompt", "turn", none⟩

/-- A part shows a preview, and is closed with another text. -/
def replacedPreview : List TextEvent :=
  [.messageUpdated (some ⟨"message", "session", "assistant", some "prompt"⟩),
    .partUpdated (some ⟨"part", "message", "session", .text, some (Utf16.text "preview"), false⟩)
      none,
    .partUpdated (some ⟨"part", "message", "session", .text, some (Utf16.text "final"), true⟩) none]

def closedPart (text : Text) : List TextEvent :=
  [.messageUpdated (some ⟨"message", "session", "assistant", some "prompt"⟩),
    .partUpdated (some ⟨"part", "message", "session", .text, some text, true⟩) none]

theorem closedPart_run {text : Text}
    (hbytes : ¬(8 * 1024 * 1024 : Int) <
      0 + (OpenCodeText.byteLength text - OpenCodeText.byteLength []))
    {content : RetainedContent Unit} (hcontent : retainedContent text none = .ok content) :
    OpenCodeText.observeAll rootScope .opened (closedPart text) = .ok
      ⟨Dict.empty.set "message" true,
        Dict.empty.set "part" ⟨"part", "message", .text, text, text.length, true, true⟩,
        0 + (OpenCodeText.byteLength text - OpenCodeText.byteLength []),
        [.completed "turn" .text "part" "message" content]⟩ := by
  let owned : OpenCodeText Unit := ⟨Dict.empty.set "message" true, Dict.empty, 0, []⟩
  have hreplace : owned.replace ⟨"part", "message", .text, [], 0, false, false⟩ text = .ok
      ({ owned with bytes := 0 + (OpenCodeText.byteLength text - OpenCodeText.byteLength []) },
        ⟨"part", "message", .text, text, 0, false, false⟩) := if_neg hbytes
  show (((owned.replace ⟨"part", "message", .text, [], 0, false, false⟩ text).bind fun (self, part) =>
    (self.publish rootScope { part with closed := true }).bind OpenCodeText.bounded).bind .ok) = _
  rw [hreplace]
  show (((retainedContent text none).map _).bind OpenCodeText.bounded).bind _ = _
  rw [hcontent]
  rfl

def letters (count : Nat) : Text := List.replicate count 97

theorem codePoints_letters (count : Nat) :
    Utf16.codePoints (letters count) = List.replicate count [97] := by
  induction count with
  | zero => rfl
  | succ count ih =>
    cases count with
    | zero => rfl
    | succ count => exact congrArg ([97] :: ·) ih

theorem length_stringified_letters (count : Nat) :
    (stringified (letters count)).length = count + 2 := by
  have hletters : (List.replicate count [97]).flatMap escapePoint = List.replicate count 'a' := by
    induction count with
    | zero => rfl
    | succ count ih => exact congrArg ('a' :: ·) ih
  unfold stringified
  rw [codePoints_letters, hletters, List.length_append, List.length_cons, List.length_replicate]
  rfl

theorem byteLength_letters (count : Nat) : OpenCodeText.byteLength (letters count) = count := by
  have hunits : letters count = Utf16.units (List.replicate count 'a') := by
    induction count with
    | zero => rfl
    | succ count ih => exact congrArg (97 :: ·) ih
  have hbytes : (Utf8.encode (List.replicate count 'a')).length = count := by
    induction count with
    | zero => rfl
    | succ count ih => exact congrArg (· + 1) (ih (List.cons.inj hunits).2)
  unfold OpenCodeText.byteLength
  rw [hunits, Utf16.toUtf8_units, hbytes]

theorem letters_truncated : retainedContent (letters 49152) (none : Option (ContentPublisher Unit)) =
    .ok (.truncated ((stringified (letters 49152)).take 4096) none) := by
  have hlength := length_stringified_letters 49152
  have hbytes := Utf8.length_le_encode (stringified (letters 49152))
  unfold retainedContent
  dsimp only
  rw [if_neg (by omega)]

theorem replacedPreview_accepted :
    ((OpenCodeText.observeAll rootScope .opened replacedPreview).toOption.any fun self =>
      (self.parts.get? "part").any fun part => self.owners.get? part.messageID == some true &&
        part.closed) = true := by
  decide +kernel

end HarnessControl.OpenCode
