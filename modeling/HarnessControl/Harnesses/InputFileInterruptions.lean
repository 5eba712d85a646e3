import HarnessControl.Harnesses.InputFileEffects

/-!
# Interrupted calls of the file store

Memory and disk agree after a call that is carried out.  They part where the call fails to save a
record that it has already changed in memory, and where a body stays after its record has gone;
any other failure leaves a store as well-kept as before.
-/

namespace HarnessControl.Harnesses

open HarnessControl.Library HarnessControl.Protocol HarnessControl.State

/-! ## Agreement -/

/-- What the record of a file says of its delivery and its owners. -/
def InputFileMetadata.marks (metadata : InputFileMetadata) : Bool × Bool × List String :=
  (metadata.sealed, metadata.retained, metadata.owners)

/-- Memory and disk hold the same marks of every file. -/
def InputFileStore.Agrees (store : InputFileStore) : Prop :=
  ∀ fileId, (store.entries.get? fileId).map InputFileMetadata.marks =
    (store.records.get? fileId).map InputFileMetadata.marks

/-- A failure that leaves memory and disk in agreement: not at a record that the call has changed
in memory, and not at a body whose record is gone. -/
def FileEffect.harmless : FileEffect → Bool
  | .saveRecord (some previous) metadata => decide (previous = metadata)
  | .removeBody _ => false
  | _ => true

variable {host : InputFileHost} {scope : InputFileScope} {store : InputFileStore}
  {fileId : String} {metadata : InputFileMetadata} {body : Bytes} {α : Type}

theorem InputFileStore.Sound.agrees (h : store.Sound host) : store.Agrees := by
  intro fileId
  rw [h.records]

/-- Wherever the sequence is interrupted, the store stays well-kept or memory and disk part. -/
abbrev FileFares (host : InputFileHost) (trace : List FileEffect) (store : InputFileStore) :
    Prop :=
  fileEffects.Fares (InputFileStore.Sound host) InputFileStore.Agrees
    (fun effect => effect.harmless = true) trace store

theorem FileFares.storage {effect : FileEffect} {trace : List FileEffect}
    (hstored : effect.stored = true) (hharmless : effect.harmless = true)
    (hfail : ∀ part, (effect.fail part store).Sound host)
    (h : FileFares host trace (effect.perform store)) : FileFares host (effect :: trace) store :=
  Effects.Fares.storage hstored (fun part _ => hfail part)
    (fun _ hnot => absurd hharmless hnot) h

theorem FileFares.andThen {plan : FilePlan α} {β : Type} {next : α → FilePlan β}
    (h : FileFares host plan.trace store)
    (hnext : ∀ value, plan.outcome = .ok value →
      FileFares host (next value).trace (plan.leaves store)) :
    FileFares host (plan.andThen next).trace store := by
  unfold FilePlan.andThen
  cases houtcome : plan.outcome with
  | error error => exact h
  | ok value => exact h.append (hnext value houtcome)

/-! ## Records -/

theorem InputFileMetadata.replacePlan_fares (hsound : store.Sound host)
    (hentry : store.entries.get? fileId = some metadata) (next : InputFileMetadata)
    (hreference : next.reference = metadata.reference) (hscope : next.scope = metadata.scope)
    (hmatches : next.sealed = true → metadata.sealed = true ∨
      ∃ body, store.bodies.get? fileId = some body ∧ metadata.reference.matches host body = true)
    (hretained : next.retained = true → next.sealed = true) (value : α) :
    FileFares host (metadata.replacePlan next value).trace store := by
  have hid : next.reference.fileId = fileId := by
    rw [hreference]
    exact hsound.keyed fileId metadata hentry
  apply Effects.Fares.memory rfl
  apply Effects.Fares.storage rfl
  · -- nothing has been changed in memory
    intro part hharmless
    have hsame : metadata = next := of_decide_eq_true hharmless
    change InputFileStore.Sound host { store with
      entries := store.entries.set next.reference.fileId next }
    rw [hid, ← hsame, Dict.set_get? hentry]
    exact hsound
  · intro part hharmful hagrees
    have hmarks := hagrees fileId
    change ((store.entries.set next.reference.fileId next).get? fileId).map _ =
      (store.records.get? fileId).map _ at hmarks
    rw [hid, Dict.get?_set_self, hsound.records, hentry, Option.map_some, Option.map_some,
      Option.some.injEq] at hmarks
    apply hharmful
    apply decide_eq_true
    unfold InputFileMetadata.marks at hmarks
    rw [Prod.mk.injEq, Prod.mk.injEq] at hmarks
    cases metadata
    cases next
    simp_all only
  · apply Effects.Fares.nil
    have hsaved := (InputFileMetadata.replacePlan_does store metadata next value).store
    change (metadata.replacePlan next value).leaves store = store.save next at hsaved
    change ((metadata.replacePlan next value).leaves store).Sound host
    rw [hsaved]
    rcases hsound.bodied fileId metadata hentry with ⟨body, hbody, -, hsealed⟩
    apply hsound.save hentry hbody hreference _ hretained
    intro hnext
    rcases hmatches hnext with hbefore | ⟨stored, hstored, hdigest⟩
    · exact hsealed hbefore
    · rw [hbody] at hstored
      cases hstored
      exact hdigest

theorem InputFileStore.deletePlan_fares (hsound : store.Sound host)
    (hentry : store.entries.get? fileId = some metadata) :
    FileFares host (store.deletePlan metadata).trace store := by
  have hid := hsound.keyed fileId metadata hentry
  have hcopies : ∀ copies, InputFileStore.Sound host { store with copies } := hsound.copies
  have hcopy : FileFares host
      (if (store.copies.get? fileId).isSome then
        [.removeCopy fileId, .removeDirectory fileId] else []) store := by
    split
    · apply FileFares.storage rfl rfl (fun _ => hsound)
      apply FileFares.storage rfl rfl (fun _ => hcopies _)
      exact Effects.Fares.nil (hcopies _)
    · exact Effects.Fares.nil hsound
  unfold InputFileStore.deletePlan
  dsimp only
  rw [hid]
  split
  · exact Effects.Fares.nil hsound
  · split
    · exact hcopy
    · apply Effects.Fares.append hcopy
      have hleft := hcopy.completed
      generalize hstore : fileEffects.execute _ store = left at hleft ⊢
      have hleftEntry : left.entries.get? fileId = some metadata := by
        rw [← hstore]
        split
        · exact hentry
        · exact hentry
      apply FileFares.storage rfl rfl (fun _ => hleft)
      apply Effects.Fares.storage rfl
      · intro part hharmless
        cases hharmless
      · -- the record is gone, the entry is not
        intro part _ hagrees
        have hmarks := hagrees fileId
        change (left.entries.get? fileId).map _ =
          ((left.records.erase fileId).get? fileId).map _ at hmarks
        rw [hleftEntry, Dict.get?_erase_self] at hmarks
        cases hmarks
      · apply Effects.Fares.memory rfl
        exact Effects.Fares.nil (hleft.without fileId)

/-! ## Uploads -/

theorem InputFileStore.Sound.orphan (h : store.Sound host)
    (hnone : store.entries.get? fileId = none) (body : Bytes) :
    InputFileStore.Sound host { store with bodies := store.bodies.set fileId body } := by
  refine { h with bodied := ?_ }
  intro other found hfound
  rcases h.bodied other found hfound with ⟨stored, hstored, hrest⟩
  have hne : other ≠ fileId := by
    rintro rfl
    rw [hnone] at hfound
    cases hfound
  exact ⟨stored, (Dict.get?_set_of_ne _ _ hne).trans hstored, hrest⟩

theorem InputFileStore.createPlan_trace (store : InputFileStore) (host : InputFileHost)
    (scope : InputFileScope) (commandId : String) (description : InputFileDescription) :
    (store.createPlan host scope commandId description).trace = [] ∨
    store.entries.get? (host.fileId scope commandId) = none ∧
      ((store.createPlan host scope commandId description).trace =
        [.saveRecord none (freshUpload host scope commandId description)] ∨
      (store.createPlan host scope commandId description).trace =
        [.createBody (host.fileId scope commandId),
          .saveRecord none (freshUpload host scope commandId description)]) := by
  unfold InputFileStore.createPlan
  dsimp only
  cases store.entries.get? (host.fileId scope commandId) with
  | some existing =>
    left
    dsimp only
    split
    · rfl
    · split
      · rfl
      · rfl
  | none =>
    dsimp only
    split
    · exact Or.inl rfl
    · split
      · exact Or.inl rfl
      · split
        · exact Or.inl rfl
        · split
          · exact Or.inl rfl
          · exact Or.inr ⟨rfl, Or.inl rfl⟩
          · exact Or.inr ⟨rfl, Or.inr rfl⟩

theorem InputFileStore.createPlan_fares (hsound : store.Sound host) {commandId : String}
    {description : InputFileDescription} (hsmall : description.byteLength ≤ maxFileBytes) :
    FileFares host (store.createPlan host scope commandId description).trace store := by
  have hcompleted : (fileEffects.execute
      (store.createPlan host scope commandId description).trace store).Sound host := by
    have hleaves := (store.createPlan_does host scope commandId description).store
    change fileEffects.execute _ store = _ at hleaves
    rw [hleaves]
    rcases store.create_cases host scope commandId description with
      ⟨error, heq⟩ | ⟨existing, body, -, -, -, heq⟩ | ⟨hnone, hquota, heq⟩
    · rw [heq]
      exact hsound
    · rw [heq]
      exact hsound
    · rw [heq]
      exact hsound.upload hnone hsmall hquota
  rcases store.createPlan_trace host scope commandId description with
    htrace | ⟨hnone, htrace | htrace⟩
  · rw [htrace]
    exact Effects.Fares.nil hsound
  · rw [htrace] at hcompleted ⊢
    apply FileFares.storage rfl rfl (fun _ => hsound)
    exact Effects.Fares.nil hcompleted
  · rw [htrace] at hcompleted ⊢
    apply FileFares.storage rfl rfl
    · intro part
      change InputFileStore.Sound host (if part = 0 then store else _)
      split
      · exact hsound
      · exact hsound.orphan hnone []
    · apply FileFares.storage rfl rfl (fun _ => hsound.orphan hnone [])
      exact Effects.Fares.nil hcompleted

theorem InputFileMetadata.appendPlan_fares (hsound : store.Sound host)
    (hentry : store.entries.get? fileId = some metadata)
    (hbody : store.bodies.get? fileId = some body) (offset : Nat) (dataBase64 : String) :
    FileFares host (metadata.appendPlan body offset dataBase64).trace store := by
  have hid := hsound.keyed fileId metadata hentry
  unfold InputFileMetadata.appendPlan
  dsimp only
  rw [hid]
  split
  · exact Effects.Fares.nil hsound
  · split
    · exact Effects.Fares.nil hsound
    · split
      · exact Effects.Fares.nil hsound
      · rename_i hfits
        rw [not_or, not_or, Bool.not_eq_true, not_not, not_lt] at hfits
        have hextended : ∀ bytes : Bytes,
            bytes.length ≤ (decodeBase64 dataBase64).length →
            ((FileEffect.extendBody fileId bytes).perform store).Sound host := by
          intro bytes hlength
          apply hsound.extend hentry hfits.1
          rw [hbody, Option.getD_some, List.length_append]
          have hlimit := hfits.2.2
          omega
        apply FileFares.storage rfl rfl
        · intro part
          apply hextended
          rw [List.length_take]
          exact Nat.min_le_right _ _
        · exact Effects.Fares.nil (hextended _ (Nat.le_refl _))

theorem InputFileStore.operationPlan_fares (hsound : store.Sound host) (scope : InputFileScope)
    (commandId : String) (request : InputFileRequest) :
    FileFares host (store.operationPlan host scope commandId request).trace store := by
  unfold InputFileStore.operationPlan
  split
  · exact Effects.Fares.nil hsound
  · cases request with
    | create description =>
      dsimp only
      split
      · exact Effects.Fares.nil hsound
      · rename_i hsmall
        exact store.createPlan_fares hsound (not_lt.mp hsmall)
    | append fileId offset dataBase64 =>
      dsimp only
      cases hrequire : store.require scope fileId with
      | none => exact Effects.Fares.nil hsound
      | some found =>
        rcases InputFileStore.require_eq_some.mp hrequire with ⟨hentry, -, hbody⟩
        exact InputFileMetadata.appendPlan_fares hsound hentry hbody offset dataBase64
    | sealUpload fileId =>
      dsimp only
      cases hrequire : store.require scope fileId with
      | none => exact Effects.Fares.nil hsound
      | some found =>
        rcases InputFileStore.require_eq_some.mp hrequire with ⟨hentry, -, hbody⟩
        dsimp only
        unfold InputFileMetadata.sealPlan
        split
        · exact Effects.Fares.nil hsound
        · split
          · exact Effects.Fares.nil hsound
          · rename_i hmatches
            exact InputFileMetadata.replacePlan_fares hsound hentry
              { found.1 with sealed := true } rfl rfl
              (fun _ => Or.inr ⟨found.2, hbody, not_not.mp hmatches⟩) (fun _ => rfl) _
    | read fileId =>
      dsimp only
      cases store.require scope fileId with
      | none => exact Effects.Fares.nil hsound
      | some found => exact Effects.Fares.nil hsound
    | release fileId =>
      dsimp only
      cases hrequire : store.require scope fileId with
      | none => exact Effects.Fares.nil hsound
      | some found =>
        rcases InputFileStore.require_eq_some.mp hrequire with ⟨hentry, -, -⟩
        dsimp only
        unfold InputFileStore.releasePlan
        split
        · exact Effects.Fares.nil hsound
        · apply (InputFileStore.deletePlan_fares hsound hentry).andThen
          intro _ _
          exact Effects.Fares.nil (InputFileStore.deletePlan_fares hsound hentry).completed

/-! ## Delivery -/

theorem Deliverable.retainPlan_fares (h : Deliverable host scope store fileId)
    (hsound : store.Sound host) (hentry : store.entries.get? fileId = some metadata)
    (value : α) : FileFares host (metadata.retainPlan value).trace store := by
  rcases h with ⟨found, body, hfound, -, hsealed, -, -⟩
  rw [hentry] at hfound
  cases hfound
  exact InputFileMetadata.replacePlan_fares hsound hentry { metadata with retained := true }
    rfl rfl (fun _ => Or.inl hsealed) (fun _ => hsealed) value

theorem InputFileStore.projectPlan_fares (hsound : store.Sound host)
    (h : Deliverable host scope store fileId) (regular : Bool) :
    FileFares host (store.projectPlan host fileId regular).trace store := by
  unfold InputFileStore.projectPlan
  cases hentry : store.entries.get? fileId with
  | none => exact Effects.Fares.nil hsound
  | some metadata =>
    cases store.bodies.get? fileId with
    | none => exact Effects.Fares.nil hsound
    | some body =>
      dsimp only
      split
      · exact Effects.Fares.nil hsound
      · split
        · exact Effects.Fares.nil hsound
        · cases store.copies.get? fileId with
          | none =>
            have hcopies : ∀ copies, InputFileStore.Sound host { store with copies } :=
              hsound.copies
            apply FileFares.storage rfl rfl
            · intro part
              change InputFileStore.Sound host (if part = 0 then store else _)
              split
              · exact hsound
              · exact hcopies _
            · have hcopied : Deliverable host scope
                  ((FileEffect.writeCopy fileId body).perform store) fileId := h
              exact hcopied.retainPlan_fares (hcopies _) hentry _
          | some copy =>
            cases copy with
            | irregular => exact Effects.Fares.nil hsound
            | regular bytes =>
              dsimp only
              split
              · exact Effects.Fares.nil hsound
              · exact h.retainPlan_fares hsound hentry _

theorem InputFileStore.projectAllPlan_fares (files : List TurnFile) {store : InputFileStore}
    (hsound : store.Sound host)
    (h : ∀ file ∈ files, Deliverable host scope store file.reference.fileId)
    (regular : String → Bool) :
    FileFares host (store.projectAllPlan host regular files).trace store := by
  induction files generalizing store with
  | nil => exact Effects.Fares.nil hsound
  | cons file files ih =>
    have hfile := h file List.mem_cons_self
    have hfirst := InputFileStore.projectPlan_fares hsound hfile
      (regular file.reference.fileId)
    have hkept := (InputFileStore.project_changes hsound hfile
      (regular file.reference.fileId)).2
    rw [← (store.projectPlan_does host _ _).store] at hkept
    unfold InputFileStore.projectAllPlan
    apply hfirst.andThen
    intro projected _
    apply ih hfirst.completed
    intro other hother
    exact hkept _ (h other (List.mem_cons_of_mem _ hother))

theorem InputFileStore.retainAllTrace_fares (references : List InputFileReference)
    {store : InputFileStore} (hsound : store.Sound host)
    (h : ∀ reference ∈ references, Deliverable host scope store reference.fileId) :
    FileFares host (store.retainAllTrace references) store := by
  induction references generalizing store with
  | nil => exact Effects.Fares.nil hsound
  | cons reference references ih =>
    have hfile := h reference List.mem_cons_self
    unfold InputFileStore.retainAllTrace
    cases hentry : store.entries.get? reference.fileId with
    | none => exact ih hsound fun other hother => h other (List.mem_cons_of_mem _ hother)
    | some metadata =>
      have hfirst := hfile.retainPlan_fares hsound hentry ()
      apply Effects.Fares.append hfirst
      apply ih hfirst.completed
      intro other hother
      have hretain := (InputFileMetadata.replacePlan_does store metadata
        { metadata with retained := true } ()).store
      change (metadata.retainPlan ()).leaves store = store.retain metadata at hretain
      change Deliverable host scope ((metadata.retainPlan ()).leaves store) _
      rw [hretain]
      exact (h other (List.mem_cons_of_mem _ hother)).retain hsound hentry

/-! ## Ownership -/

theorem InputFileStore.retireFilePlan_fares (hsound : store.Sound host)
    (hentry : store.entries.get? fileId = some metadata) (scope : InputFileScope) :
    FileFares host (store.retireFilePlan scope metadata).trace store := by
  unfold InputFileStore.retireFilePlan
  dsimp only
  split
  · exact InputFileStore.deletePlan_fares hsound hentry
  · exact InputFileMetadata.replacePlan_fares hsound hentry
      { metadata with owners := metadata.owners.filter fun owner => owner != scope.owner } rfl rfl
      Or.inl (hsound.delivered fileId metadata hentry) ()

theorem InputFileStore.retireAllPlan_fares (records : List InputFileMetadata)
    {store : InputFileStore} (hsound : store.Sound host) (h : Listed store records) :
    FileFares host (store.retireAllPlan scope records).trace store := by
  induction records generalizing store with
  | nil => exact Effects.Fares.nil hsound
  | cons metadata records ih =>
    unfold InputFileStore.retireAllPlan
    split
    · rename_i howned
      have hentry := h.stored metadata List.mem_cons_self
      have hfirst := InputFileStore.retireFilePlan_fares hsound hentry scope
      have hchanges : FileChanges host scope true store _ ∧ _ :=
        InputFileStore.retireFile_changes hentry howned
      have hothers := hchanges.2
      rw [← (store.retireFilePlan_does scope metadata).store] at hothers
      apply hfirst.andThen
      intro _ _
      exact ih hfirst.completed (h.rest hothers)
    · exact ih hsound (h.rest fun _ _ => rfl)

theorem InputFileStore.forkAllPlan_fares (records : List InputFileMetadata)
    {store : InputFileStore} (hsound : store.Sound host) (h : Listed store records)
    (targetOwner : String) :
    FileFares host (store.forkAllPlan scope targetOwner records).trace store := by
  induction records generalizing store with
  | nil => exact Effects.Fares.nil hsound
  | cons metadata records ih =>
    unfold InputFileStore.forkAllPlan
    split
    · split
      · exact Effects.Fares.nil hsound
      · have hentry := h.stored metadata List.mem_cons_self
        have hfirst := InputFileMetadata.replacePlan_fares hsound hentry
          { metadata with owners := metadata.owners ++ [targetOwner] } rfl rfl
          Or.inl (hsound.delivered _ metadata hentry) ()
        have hleaves := (InputFileMetadata.replacePlan_does store metadata
          { metadata with owners := metadata.owners ++ [targetOwner] } ()).store
        apply hfirst.andThen
        intro _ _
        apply ih hfirst.completed
        change Listed (FilePlan.leaves _ store) records
        rw [hleaves]
        exact h.rest fun other hne => Dict.get?_set_of_ne _ _ hne
    · exact ih hsound (h.rest fun _ _ => rfl)

/-! ## Calls -/

theorem InputFileStore.trace_fares (hsound : store.Sound host) (action : InputFileAction) :
    FileFares host (store.trace host action) store := by
  cases action with
  | operation scope commandId request =>
    exact InputFileStore.operationPlan_fares hsound scope commandId request
  | materialize scope files regular =>
    change FileFares host (store.materializePlan host scope files regular).trace store
    unfold InputFileStore.materializePlan
    split
    · exact Effects.Fares.nil hsound
    · split
      · exact Effects.Fares.nil hsound
      · rename_i hnone
        rw [List.findSome?_eq_none_iff] at hnone
        apply InputFileStore.projectAllPlan_fares files hsound
        intro file hfile
        exact InputFileStore.deliverable_of_none (hnone file hfile)
  | nativeImages scope references =>
    change FileFares host (store.nativeImagesPlan host scope references).trace store
    unfold InputFileStore.nativeImagesPlan
    split
    · exact Effects.Fares.nil hsound
    · split
      · exact Effects.Fares.nil hsound
      · rename_i hnone
        rw [List.findSome?_eq_none_iff] at hnone
        apply InputFileStore.retainAllTrace_fares references hsound
        intro reference hreference
        exact InputFileStore.deliverable_of_none (hnone reference hreference)
  | retire scope => exact InputFileStore.retireAllPlan_fares _ hsound hsound.listed
  | fork scope targetOwner =>
    change FileFares host (store.forkPlan scope targetOwner).trace store
    unfold InputFileStore.forkPlan
    split
    · exact Effects.Fares.nil hsound
    · exact InputFileStore.forkAllPlan_fares _ hsound hsound.listed targetOwner
  | restart => exact Effects.Fares.nil hsound
  | tamper fileId copy => exact Effects.Fares.nil hsound

/-- The step is not interrupted, or by a harmless failure. -/
def FileAttempt.Spared (host : InputFileHost) (store : InputFileStore) (attempt : FileAttempt) :
    Prop :=
  fileEffects.Spared (fun effect => effect.harmless = true) attempt.failure
    (store.trace host attempt.action)

instance (attempt : FileAttempt) : Decidable (attempt.Spared host store) :=
  inferInstanceAs (Decidable (fileEffects.Spared _ attempt.failure
    (store.trace host attempt.action)))

theorem InputFileStore.attempt_sound (hsound : store.Sound host) {attempt : FileAttempt}
    (hspared : attempt.Spared host store) : (store.attempt host attempt).Sound host := by
  have hfares := InputFileStore.trace_fares hsound attempt.action
  unfold FileAttempt.Spared at hspared
  unfold InputFileStore.attempt
  split
  · cases hopened : store.reopen host with
    | none => exact hsound
    | some opened =>
      rw [Option.getD_some, hsound.reopen hopened]
      exact hsound
  · exact hsound.copies _
  · exact hfares.attempt hspared

theorem InputFileStore.attempt_breaks (hsound : store.Sound host) {attempt : FileAttempt}
    (hspared : ¬attempt.Spared host store) : ¬(store.attempt host attempt).Agrees := by
  have hfares := InputFileStore.trace_fares hsound attempt.action
  unfold FileAttempt.Spared at hspared
  unfold InputFileStore.attempt
  split
  · rename_i haction
    rw [haction] at hspared
    exact absurd Effects.Spared.nil hspared
  · rename_i haction
    rw [haction] at hspared
    exact absurd Effects.Spared.nil hspared
  · exact hfares.breaks hspared

end HarnessControl.Harnesses
