import HarnessControl.Harnesses.InputFileChanges

/-!
# Calls of the file store

Each call of the store is a sequence of changes to files of its scope, a new upload, or an upload
that grows by one chunk.
-/

namespace HarnessControl.Harnesses

open HarnessControl.Library HarnessControl.Protocol HarnessControl.State

variable {host : InputFileHost} {scope : InputFileScope} {retiring : Bool}
  {store : InputFileStore} {fileId : String} {metadata : InputFileMetadata} {body : Bytes}

theorem InputFileStore.require_eq_some :
    store.require scope fileId = some (metadata, body) ↔
      store.entries.get? fileId = some metadata ∧ metadata.owned scope = true ∧
        store.bodies.get? fileId = some body := by
  unfold InputFileStore.require
  simp only [Option.bind_eq_bind, Option.bind_eq_some_iff, Option.filter_eq_some_iff,
    Option.pure_def, Option.some.injEq, Prod.mk.injEq]
  constructor
  · rintro ⟨found, ⟨hentry, howned⟩, stored, hbody, rfl, rfl⟩
    exact ⟨hentry, howned, hbody⟩
  · rintro ⟨hentry, howned, hbody⟩
    exact ⟨metadata, ⟨hentry, howned⟩, body, hbody, rfl, rfl⟩

/-! ## Requests -/

theorem InputFileStore.operation_refused {request : InputFileRequest}
    (h : ¬harnessInputFileOperationSchema request = true) (scope : InputFileScope) (commandId : String) :
    store.operation host scope commandId request = store.throws schemaRefused := by
  unfold InputFileStore.operation
  rw [if_pos h]

theorem InputFileStore.operation_create {description : InputFileDescription}
    (h : harnessInputFileOperationSchema (.create description) = true) (scope : InputFileScope)
    (commandId : String) :
    store.operation host scope commandId (.create description) =
      if maxFileBytes < description.byteLength then store.throws schemaRefused
      else store.create host scope commandId description := by
  unfold InputFileStore.operation
  rw [if_neg (not_not.mpr h)]

def InputFileStore.perform (host : InputFileHost) (metadata : InputFileMetadata) (body : Bytes)
    (store : InputFileStore) : InputFileRequest → FileCall InputFileResult
  | .create _ => store.throws schemaRefused
  | .append _ offset dataBase64 => store.append metadata body offset dataBase64
  | .sealUpload _ => store.sealUpload host metadata body
  | .read _ => store.returns (metadata.result body)
  | .release _ => store.release metadata

theorem InputFileStore.operation_target {request : InputFileRequest}
    (h : harnessInputFileOperationSchema request = true) (htarget : request.target = some fileId)
    (commandId : String) :
    store.operation host scope commandId request =
      match store.require scope fileId with
      | none => store.throws fileUnavailable
      | some (metadata, body) => store.perform host metadata body request := by
  unfold InputFileStore.operation
  rw [if_neg (not_not.mpr h)]
  cases request with
  | create description => cases htarget
  | append named offset dataBase64 =>
    cases htarget
    rfl
  | sealUpload named =>
    cases htarget
    rfl
  | read named =>
    cases htarget
    rfl
  | release named =>
    cases htarget
    rfl

theorem InputFileStore.operation_cases (store : InputFileStore) (host : InputFileHost)
    (scope : InputFileScope) (commandId : String) {request : InputFileRequest}
    (htarget : request.target = some fileId) :
    (∃ error, store.operation host scope commandId request = store.throws error) ∨
    ∃ metadata body, harnessInputFileOperationSchema request = true ∧
      store.entries.get? fileId = some metadata ∧ metadata.owned scope = true ∧
      store.bodies.get? fileId = some body ∧
      store.operation host scope commandId request =
        store.perform host metadata body request := by
  by_cases hadmits : harnessInputFileOperationSchema request = true
  · rw [InputFileStore.operation_target hadmits htarget]
    cases hrequire : store.require scope fileId with
    | none => exact Or.inl ⟨_, rfl⟩
    | some found =>
      rcases found with ⟨metadata, body⟩
      rcases InputFileStore.require_eq_some.mp hrequire with ⟨hentry, howned, hbody⟩
      exact Or.inr ⟨metadata, body, hadmits, hentry, howned, hbody, rfl⟩
  · exact Or.inl ⟨_, InputFileStore.operation_refused hadmits scope commandId⟩

/-! ## Single files -/

theorem InputFileStore.delete_changes (hentry : store.entries.get? fileId = some metadata)
    (hid : metadata.reference.fileId = fileId) (howned : metadata.owned scope = true)
    (hfinal : metadata.retained = false ∨ retiring = true ∧
      (metadata.owners.filter fun owner => owner != scope.owner) = []) :
    FileChanges host scope retiring store (store.delete metadata).store := by
  unfold InputFileStore.delete
  dsimp only
  rw [hid]
  split
  · exact Relation.ReflTransGen.refl
  · have hcopied : FileChange host scope retiring store
        { store with copies := store.copies.erase fileId } :=
      FileChange.copied hentry howned fun other hne => Dict.get?_erase_of_ne _ hne
    split
    · exact Relation.ReflTransGen.single hcopied
    · have hdeleted : FileChange host scope retiring
          { store with copies := store.copies.erase fileId }
          (InputFileStore.without fileId { store with copies := store.copies.erase fileId }) :=
        FileChange.deleted hentry howned hfinal
      exact (Relation.ReflTransGen.single hcopied).tail hdeleted

theorem InputFileStore.sealUpload_changes (hentry : store.entries.get? fileId = some metadata)
    (howned : metadata.owned scope = true) (hbody : store.bodies.get? fileId = some body) :
    FileChanges host scope retiring store (store.sealUpload host metadata body).store := by
  unfold InputFileStore.sealUpload
  split
  · exact Relation.ReflTransGen.refl
  · split
    · exact Relation.ReflTransGen.refl
    · rename_i hmatches
      rw [not_not] at hmatches
      apply Relation.ReflTransGen.single
      exact FileChange.marked hentry howned hbody hmatches rfl rfl (List.Subset.refl _) rfl id

theorem InputFileStore.release_changes (hentry : store.entries.get? fileId = some metadata)
    (hid : metadata.reference.fileId = fileId) (howned : metadata.owned scope = true) :
    FileChanges host scope retiring store (store.release metadata).store := by
  unfold InputFileStore.release
  split
  · exact Relation.ReflTransGen.refl
  · rename_i hretained
    rw [Bool.not_eq_true] at hretained
    have hchanges : FileChanges host scope retiring store (store.delete metadata).store :=
      InputFileStore.delete_changes hentry hid howned (Or.inl hretained)
    dsimp only
    split
    · exact hchanges
    · exact hchanges

theorem InputFileStore.operation_changes (hsound : store.Sound host) (commandId : String)
    {request : InputFileRequest} (htarget : request.target = some fileId)
    (happend : ∀ fileId offset dataBase64, request ≠ .append fileId offset dataBase64) :
    FileChanges host scope false store (store.operation host scope commandId request).store := by
  rcases store.operation_cases host scope commandId htarget with
    ⟨error, heq⟩ | ⟨metadata, body, -, hentry, howned, hbody, heq⟩
  · rw [heq]
    exact Relation.ReflTransGen.refl
  · rw [heq]
    cases request with
    | create description => exact Relation.ReflTransGen.refl
    | append fileId offset dataBase64 => exact absurd rfl (happend fileId offset dataBase64)
    | sealUpload fileId => exact InputFileStore.sealUpload_changes hentry howned hbody
    | read fileId => exact Relation.ReflTransGen.refl
    | release fileId =>
      exact InputFileStore.release_changes hentry (hsound.keyed _ metadata hentry) howned

/-! ## Delivery -/

def Deliverable (host : InputFileHost) (scope : InputFileScope) (store : InputFileStore)
    (fileId : String) : Prop :=
  ∃ metadata body, store.entries.get? fileId = some metadata ∧ metadata.owned scope = true ∧
    metadata.sealed = true ∧ store.bodies.get? fileId = some body ∧
    metadata.reference.matches host body = true

theorem InputFileStore.deliverable_of_none {integrity : HarnessError}
    {reference : InputFileReference}
    (h : store.undeliverable host scope integrity reference = none) :
    Deliverable host scope store reference.fileId := by
  unfold InputFileStore.undeliverable at h
  split at h
  · cases h
  · rename_i metadata body hrequire
    rcases InputFileStore.require_eq_some.mp hrequire with ⟨hentry, howned, hbody⟩
    split at h
    · cases h
    · rename_i hmarks
      rw [not_or, Bool.not_eq_false, not_not] at hmarks
      split at h
      · cases h
      · split at h
        · cases h
        · rename_i hmatches
          rw [not_not, hmarks.2] at hmatches
          exact ⟨metadata, body, hentry, howned, hmarks.1, hbody, hmatches⟩

theorem Deliverable.retain {other : String} (h : Deliverable host scope store other)
    (hsound : store.Sound host) (hentry : store.entries.get? fileId = some metadata) :
    Deliverable host scope (store.retain metadata) other := by
  rcases h with ⟨found, body, hfound, howned, hsealed, hbody, hmatches⟩
  by_cases hother : other = fileId
  · subst hother
    rw [hentry] at hfound
    cases hfound
    refine ⟨{ metadata with retained := true }, body, ?_, howned, hsealed, hbody, hmatches⟩
    change (store.entries.set metadata.reference.fileId _).get? other = _
    rw [hsound.keyed other metadata hentry, Dict.get?_set_self]
  · refine ⟨found, body, ?_, howned, hsealed, hbody, hmatches⟩
    change (store.entries.set metadata.reference.fileId _).get? other = _
    rw [hsound.keyed fileId metadata hentry, Dict.get?_set_of_ne _ _ hother]
    exact hfound

theorem Deliverable.retained (h : Deliverable host scope store fileId)
    (hentry : store.entries.get? fileId = some metadata) :
    FileChange host scope retiring store (store.retain metadata) := by
  rcases h with ⟨found, body, hfound, howned, hsealed, hbody, hmatches⟩
  rw [hentry] at hfound
  cases hfound
  exact FileChange.marked hentry howned hbody hmatches rfl rfl (List.Subset.refl _) hsealed
    fun _ => rfl

theorem InputFileStore.project_changes (hsound : store.Sound host)
    (h : Deliverable host scope store fileId) (regular : Bool) :
    FileChanges host scope false store (store.project host fileId regular).store ∧
      ∀ other, Deliverable host scope store other →
        Deliverable host scope (store.project host fileId regular).store other := by
  rcases h with ⟨metadata, body, hentry, howned, hsealed, hbody, hmatches⟩
  have hfile : Deliverable host scope store fileId :=
    ⟨metadata, body, hentry, howned, hsealed, hbody, hmatches⟩
  unfold InputFileStore.project
  rw [hentry, hbody]
  dsimp only
  split
  · exact ⟨Relation.ReflTransGen.refl, fun _ hother => hother⟩
  · split
    · exact ⟨Relation.ReflTransGen.refl, fun _ hother => hother⟩
    · split
      · exact ⟨Relation.ReflTransGen.refl, fun _ hother => hother⟩
      · split
        · exact ⟨Relation.ReflTransGen.refl, fun _ hother => hother⟩
        · exact ⟨Relation.ReflTransGen.single (hfile.retained hentry),
            fun _ hother => hother.retain hsound hentry⟩
      · -- the copy is written first
        have hcopied : FileChange host scope false store
            { store with copies := store.copies.set fileId (.regular body) } :=
          FileChange.copied hentry howned fun other hne => Dict.get?_set_of_ne _ _ hne
        have hsound' := hcopied.sound hsound
        have hfile' : Deliverable host scope
            { store with copies := store.copies.set fileId (.regular body) } fileId := hfile
        refine ⟨(Relation.ReflTransGen.single hcopied).tail (hfile'.retained hentry), ?_⟩
        intro other hother
        have hother' : Deliverable host scope
            { store with copies := store.copies.set fileId (.regular body) } other := hother
        exact hother'.retain hsound' hentry

theorem InputFileStore.projectAll_changes (files : List TurnFile) {store : InputFileStore}
    (hsound : store.Sound host)
    (h : ∀ file ∈ files, Deliverable host scope store file.reference.fileId)
    (regular : String → Bool) :
    FileChanges host scope false store (store.projectAll host regular files).store := by
  induction files generalizing store with
  | nil => exact Relation.ReflTransGen.refl
  | cons file files ih =>
    have hfirst := InputFileStore.project_changes hsound (h file List.mem_cons_self)
      (regular file.reference.fileId)
    unfold InputFileStore.projectAll
    dsimp only
    split
    · exact hfirst.1
    · apply hfirst.1.trans
      apply ih (FileChanges.sound hfirst.1 hsound)
      intro other hother
      exact hfirst.2 _ (h other (List.mem_cons_of_mem _ hother))

theorem InputFileStore.materialize_changes (hsound : store.Sound host) (files : List TurnFile)
    (regular : String → Bool) :
    FileChanges host scope false store (store.materialize host scope files regular).store := by
  unfold InputFileStore.materialize
  split
  · exact Relation.ReflTransGen.refl
  · split
    · exact Relation.ReflTransGen.refl
    · rename_i hnone
      rw [List.findSome?_eq_none_iff] at hnone
      apply InputFileStore.projectAll_changes files hsound
      intro file hfile
      exact InputFileStore.deliverable_of_none (hnone file hfile)

theorem InputFileStore.retainAll_changes (references : List InputFileReference)
    {store : InputFileStore} (hsound : store.Sound host)
    (h : ∀ reference ∈ references, Deliverable host scope store reference.fileId) :
    FileChanges host scope false store (store.retainAll references) := by
  induction references generalizing store with
  | nil => exact Relation.ReflTransGen.refl
  | cons reference references ih =>
    rcases h reference List.mem_cons_self with ⟨metadata, body, hentry, hrest⟩
    have hfile : Deliverable host scope store reference.fileId :=
      ⟨metadata, body, hentry, hrest⟩
    have hretained : FileChange host scope false store (store.retain metadata) :=
      hfile.retained hentry
    unfold InputFileStore.retainAll
    rw [List.foldl_cons, hentry]
    apply (Relation.ReflTransGen.single hretained).trans
    apply ih (hretained.sound hsound)
    intro other hother
    exact (h other (List.mem_cons_of_mem _ hother)).retain hsound hentry

theorem InputFileStore.nativeImages_changes (hsound : store.Sound host)
    (references : List InputFileReference) :
    FileChanges host scope false store (store.nativeImages host scope references).store := by
  unfold InputFileStore.nativeImages
  split
  · exact Relation.ReflTransGen.refl
  · split
    · exact Relation.ReflTransGen.refl
    · rename_i hnone
      rw [List.findSome?_eq_none_iff] at hnone
      apply InputFileStore.retainAll_changes references hsound
      intro reference hreference
      exact InputFileStore.deliverable_of_none (hnone reference hreference)

/-! ## Ownership -/

/-- The records of a list stand in the store, each under its own id. -/
structure Listed (store : InputFileStore) (records : List InputFileMetadata) : Prop where
  stored : ∀ metadata ∈ records,
    store.entries.get? metadata.reference.fileId = some metadata
  nodup : (records.map fun metadata => metadata.reference.fileId).Nodup

theorem InputFileStore.Sound.listed (h : store.Sound host) : Listed store store.entries.values := by
  constructor
  · intro metadata hmetadata
    rcases List.mem_map.mp hmetadata with ⟨⟨fileId, found⟩, hentry, rfl⟩
    have hget : store.entries.get? fileId = some found := Dict.get?_eq_some_iff.mpr hentry
    change store.entries.get? found.reference.fileId = some found
    rw [h.keyed fileId found hget]
    exact hget
  · have hkeys : store.entries.values.map (fun metadata => metadata.reference.fileId) =
        store.entries.keys := by
      unfold Dict.values Dict.keys
      rw [List.map_map]
      apply List.map_congr_left
      intro entry hentry
      exact h.keyed entry.1 entry.2 (Dict.get?_eq_some_iff.mpr hentry)
    rw [hkeys]
    exact store.entries.nodup

theorem Listed.rest {after : InputFileStore} {first : InputFileMetadata}
    {rest : List InputFileMetadata} (h : Listed store (first :: rest))
    (hsame : ∀ other, other ≠ first.reference.fileId →
      after.entries.get? other = store.entries.get? other) : Listed after rest := by
  have hnodup := h.nodup
  rw [List.map_cons, List.nodup_cons] at hnodup
  refine ⟨fun metadata hmetadata => ?_, hnodup.2⟩
  rw [hsame]
  · exact h.stored metadata (List.mem_cons_of_mem _ hmetadata)
  · intro heq
    apply hnodup.1
    rw [← heq]
    exact List.mem_map_of_mem (f := fun metadata : InputFileMetadata => metadata.reference.fileId)
      hmetadata

theorem InputFileStore.delete_entries (store : InputFileStore) (metadata : InputFileMetadata)
    {other : String} (hne : other ≠ metadata.reference.fileId) :
    (store.delete metadata).store.entries.get? other = store.entries.get? other := by
  unfold InputFileStore.delete
  dsimp only
  split
  · rfl
  · split
    · rfl
    · exact Dict.get?_erase_of_ne _ hne

theorem InputFileStore.retireFile_changes
    (hentry : store.entries.get? metadata.reference.fileId = some metadata)
    (howned : metadata.owned scope = true) :
    FileChanges host scope true store (store.retireFile scope metadata).store ∧
      ∀ other, other ≠ metadata.reference.fileId →
        (store.retireFile scope metadata).store.entries.get? other =
          store.entries.get? other := by
  unfold InputFileStore.retireFile
  dsimp only
  split
  · rename_i hempty
    exact ⟨InputFileStore.delete_changes hentry rfl howned (Or.inr ⟨rfl, hempty⟩),
      fun other hne => store.delete_entries metadata hne⟩
  · exact ⟨Relation.ReflTransGen.single (FileChange.disowned rfl hentry howned),
      fun other hne => Dict.get?_set_of_ne _ _ hne⟩

theorem InputFileStore.retireAll_changes (records : List InputFileMetadata)
    {store : InputFileStore} (h : Listed store records) :
    FileChanges host scope true store (store.retireAll scope records).store := by
  induction records generalizing store with
  | nil => exact Relation.ReflTransGen.refl
  | cons metadata records ih =>
    unfold InputFileStore.retireAll
    split
    · rename_i howned
      have hfirst : FileChanges host scope true store (store.retireFile scope metadata).store ∧ _ :=
        InputFileStore.retireFile_changes (h.stored metadata List.mem_cons_self) howned
      dsimp only
      split
      · exact hfirst.1
      · exact hfirst.1.trans (ih (h.rest hfirst.2))
    · exact ih (h.rest fun _ _ => rfl)

theorem InputFileStore.retire_changes (hsound : store.Sound host) :
    FileChanges host scope true store (store.retire scope).store :=
  InputFileStore.retireAll_changes _ hsound.listed

theorem InputFileStore.pin_change (hsound : store.Sound host) {targetOwner : String}
    (hentry : store.entries.get? metadata.reference.fileId = some metadata)
    (hpinnable : metadata.pinnable scope targetOwner = true) :
    FileChange host scope false store
      (store.save { metadata with owners := metadata.owners ++ [targetOwner] }) := by
  unfold InputFileMetadata.pinnable at hpinnable
  simp only [Bool.and_eq_true] at hpinnable
  have hsealed := hsound.delivered _ metadata hentry hpinnable.1.1
  rcases hsound.bodied _ metadata hentry with ⟨body, hbody, -, hmatches⟩
  exact FileChange.marked hentry hpinnable.1.2 hbody (hmatches hsealed) rfl rfl
    (List.subset_append_left _ _) hsealed id

theorem InputFileStore.forkAll_changes (records : List InputFileMetadata)
    {store : InputFileStore} (hsound : store.Sound host) (h : Listed store records)
    (targetOwner : String) :
    FileChanges host scope false store (store.forkAll scope targetOwner records).store := by
  induction records generalizing store with
  | nil => exact Relation.ReflTransGen.refl
  | cons metadata records ih =>
    unfold InputFileStore.forkAll
    split
    · rename_i hpinnable
      split
      · exact Relation.ReflTransGen.refl
      · have hpinned : FileChange host scope false store _ :=
          InputFileStore.pin_change hsound (h.stored metadata List.mem_cons_self) hpinnable
        apply (Relation.ReflTransGen.single hpinned).trans
        apply ih (hpinned.sound hsound)
        exact h.rest fun other hne => Dict.get?_set_of_ne _ _ hne
    · exact ih hsound (h.rest fun _ _ => rfl)

theorem InputFileStore.fork_changes (hsound : store.Sound host) (targetOwner : String) :
    FileChanges host scope false store (store.fork scope targetOwner).store := by
  unfold InputFileStore.fork
  split
  · exact Relation.ReflTransGen.refl
  · exact InputFileStore.forkAll_changes _ hsound hsound.listed targetOwner

theorem InputFileStore.forkAll_holds (records : List InputFileMetadata)
    {store : InputFileStore} (hsound : store.Sound host) (h : Listed store records)
    {targetOwner : String} (hreturned : (store.forkAll scope targetOwner records).outcome = .ok ())
    {metadata : InputFileMetadata} (hmember : metadata ∈ records)
    (hretained : metadata.retained = true) (howned : metadata.owned scope = true) {body : Bytes}
    (hbody : store.bodies.get? metadata.reference.fileId = some body) :
    (store.forkAll scope targetOwner records).store.Holds targetOwner metadata.reference
      metadata.scope.place body := by
  induction records generalizing store with
  | nil => cases hmember
  | cons first records ih =>
    have hfirst := h.stored first List.mem_cons_self
    unfold InputFileStore.forkAll at hreturned ⊢
    split at hreturned
    · rename_i hpinnable
      split at hreturned
      · cases hreturned
      · rename_i hroom
        have hpinned : FileChange host scope false store _ :=
          InputFileStore.pin_change hsound hfirst hpinnable
        have hsound' := hpinned.sound hsound
        have hlisted : Listed (store.save { first with
            owners := first.owners ++ [targetOwner] }) records :=
          h.rest fun other hne => Dict.get?_set_of_ne _ _ hne
        rw [if_pos hpinnable, if_neg hroom]
        rcases List.mem_cons.mp hmember with rfl | hrest
        · -- the rest of the fork keeps the new owner
          have hchanges : FileChanges host scope false _ _ :=
            InputFileStore.forkAll_changes records hsound' hlisted targetOwner
          apply hchanges.holds hsound' _ fun hfalse => nomatch hfalse
          refine ⟨_, Dict.get?_set_self _ _ _, rfl, rfl, hretained, ?_, hbody⟩
          exact List.mem_append_right _ (List.mem_singleton_self _)
        · exact ih hsound' hlisted hreturned hrest hbody
    · rename_i hunpinnable
      have hlisted : Listed store records := h.rest fun _ _ => rfl
      rw [if_neg hunpinnable]
      rcases List.mem_cons.mp hmember with rfl | hrest
      · -- the target owns the file already
        have hchanges : FileChanges host scope false store _ :=
          InputFileStore.forkAll_changes records hsound hlisted targetOwner
        apply hchanges.holds hsound _ fun hfalse => nomatch hfalse
        refine ⟨metadata, hfirst, rfl, rfl, hretained, ?_, hbody⟩
        unfold InputFileMetadata.pinnable at hunpinnable
        rw [hretained, howned, Bool.true_and, Bool.true_and, Bool.not_eq_true', Bool.not_eq_false,
          List.contains_iff_mem] at hunpinnable
        exact hunpinnable
      · exact ih hsound hlisted hreturned hrest hbody

end HarnessControl.Harnesses
