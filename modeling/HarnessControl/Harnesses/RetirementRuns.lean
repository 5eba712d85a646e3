import HarnessControl.Harnesses.Retirement

/-!
# What a retirement leaves

Whatever fails in it, a retirement that throws before the binding is gone has changed nothing; one
that throws later has only taken the conversation from the owners of its files, and one that returns
has taken it from all of them.
-/

namespace HarnessControl.Harnesses

open HarnessControl.Library HarnessControl.Protocol HarnessControl.State

variable {host : InputFileHost} {scope : InputFileScope} {before middle after store : InputFileStore}
  {metadata : InputFileMetadata} {fileId : String}

/-! ## Keys -/

/-- What was not there before is written under its own id. -/
structure WritesKeyed (before after : InputFileStore) : Prop where
  entries : ∀ fileId metadata, after.entries.get? fileId = some metadata →
    metadata.reference.fileId = fileId ∨ before.entries.get? fileId = some metadata
  records : ∀ fileId metadata, after.records.get? fileId = some metadata →
    metadata.reference.fileId = fileId ∨ before.records.get? fileId = some metadata

theorem WritesKeyed.refl (store : InputFileStore) : WritesKeyed store store :=
  ⟨fun _ _ h => Or.inr h, fun _ _ h => Or.inr h⟩

theorem WritesKeyed.trans (h : WritesKeyed before middle) (h' : WritesKeyed middle after) :
    WritesKeyed before after := by
  constructor
  · intro fileId metadata hfound
    rcases h'.entries fileId metadata hfound with hid | hmiddle
    · exact Or.inl hid
    · exact h.entries fileId metadata hmiddle
  · intro fileId metadata hfound
    rcases h'.records fileId metadata hfound with hid | hmiddle
    · exact Or.inl hid
    · exact h.records fileId metadata hmiddle

theorem get?_set_keyed {files : Dict String InputFileMetadata} {found : InputFileMetadata}
    (h : (files.set metadata.reference.fileId metadata).get? fileId = some found) :
    found.reference.fileId = fileId ∨ files.get? fileId = some found := by
  rw [Dict.get?_set] at h
  split at h
  · rename_i heq
    cases h
    exact Or.inl heq.symm
  · exact Or.inr h

theorem get?_erase_keyed {files : Dict String InputFileMetadata} {other : String}
    {found : InputFileMetadata} (h : (files.erase other).get? fileId = some found) :
    files.get? fileId = some found := by
  by_cases heq : fileId = other
  · rw [heq, Dict.get?_erase_self] at h
    cases h
  · rw [Dict.get?_erase_of_ne _ heq] at h
    exact h

theorem WritesKeyed.save (store : InputFileStore) (metadata : InputFileMetadata) :
    WritesKeyed store (store.save metadata) :=
  ⟨fun _ _ h => get?_set_keyed h, fun _ _ h => get?_set_keyed h⟩

theorem WritesKeyed.delete (store : InputFileStore) (metadata : InputFileMetadata) :
    WritesKeyed store (store.delete metadata).store := by
  unfold InputFileStore.delete
  dsimp only
  split
  · exact WritesKeyed.refl store
  · split
    · exact ⟨fun _ _ h => Or.inr h, fun _ _ h => Or.inr h⟩
    · exact ⟨fun _ _ h => Or.inr (get?_erase_keyed h), fun _ _ h => Or.inr (get?_erase_keyed h)⟩

theorem WritesKeyed.perform (store : InputFileStore) (host : InputFileHost)
    (metadata : InputFileMetadata) (body : Bytes) (request : InputFileRequest) :
    WritesKeyed store (store.perform host metadata body request).store := by
  cases request with
  | create description => exact WritesKeyed.refl store
  | read fileId => exact WritesKeyed.refl store
  | append fileId offset dataBase64 =>
    change WritesKeyed store (store.append metadata body offset dataBase64).store
    rcases store.append_cases metadata body offset dataBase64 with
      ⟨error, heq⟩ | ⟨-, -, -, ⟨-, -, heq⟩ | ⟨-, -, -, heq⟩⟩
    · rw [heq]
      exact WritesKeyed.refl store
    · rw [heq]
      exact WritesKeyed.refl store
    · rw [heq]
      exact ⟨fun _ _ h => Or.inr h, fun _ _ h => Or.inr h⟩
  | sealUpload fileId =>
    change WritesKeyed store (store.sealUpload host metadata body).store
    unfold InputFileStore.sealUpload
    split
    · exact WritesKeyed.refl store
    · split
      · exact WritesKeyed.refl store
      · exact WritesKeyed.save store _
  | release fileId =>
    change WritesKeyed store (store.release metadata).store
    unfold InputFileStore.release
    dsimp only
    split
    · exact WritesKeyed.refl store
    · split
      · exact WritesKeyed.delete store metadata
      · exact WritesKeyed.delete store metadata

theorem WritesKeyed.create (store : InputFileStore) (host : InputFileHost) (scope : InputFileScope)
    (commandId : String) (description : InputFileDescription) :
    WritesKeyed store (store.create host scope commandId description).store := by
  rcases store.create_cases host scope commandId description with
    ⟨error, heq⟩ | ⟨existing, body, -, -, -, heq⟩ | ⟨-, -, heq⟩
  · rw [heq]
    exact WritesKeyed.refl store
  · rw [heq]
    exact WritesKeyed.refl store
  · rw [heq]
    exact ⟨fun _ _ h => get?_set_keyed h, fun _ _ h => get?_set_keyed h⟩

theorem WritesKeyed.operation (store : InputFileStore) (host : InputFileHost)
    (scope : InputFileScope) (commandId : String) (request : InputFileRequest) :
    WritesKeyed store (store.operation host scope commandId request).store := by
  cases htarget : request.target with
  | some fileId =>
    rcases store.operation_cases host scope commandId htarget with
      ⟨error, heq⟩ | ⟨metadata, body, -, -, -, -, heq⟩
    · rw [heq]
      exact WritesKeyed.refl store
    · rw [heq]
      exact WritesKeyed.perform store host metadata body request
  | none =>
    cases request with
    | create description =>
      by_cases hadmits : harnessInputFileOperationSchema (.create description) = true
      · rw [InputFileStore.operation_create hadmits]
        split
        · exact WritesKeyed.refl store
        · exact WritesKeyed.create store host scope commandId description
      · rw [InputFileStore.operation_refused hadmits]
        exact WritesKeyed.refl store
    | append fileId offset dataBase64 => cases htarget
    | sealUpload fileId => cases htarget
    | read fileId => cases htarget
    | release fileId => cases htarget

theorem WritesKeyed.project (store : InputFileStore) (host : InputFileHost) (fileId : String)
    (regular : Bool) : WritesKeyed store (store.project host fileId regular).store := by
  unfold InputFileStore.project
  split
  · split
    · exact WritesKeyed.refl store
    · split
      · exact WritesKeyed.refl store
      · split
        · exact WritesKeyed.refl store
        · split
          · exact WritesKeyed.refl store
          · exact WritesKeyed.save store _
        · exact ⟨fun _ _ h => get?_set_keyed h, fun _ _ h => get?_set_keyed h⟩
  · exact WritesKeyed.refl store

theorem WritesKeyed.projectAll (host : InputFileHost) (regular : String → Bool)
    (files : List TurnFile) (store : InputFileStore) :
    WritesKeyed store (store.projectAll host regular files).store := by
  induction files generalizing store with
  | nil => exact WritesKeyed.refl store
  | cons file files ih =>
    unfold InputFileStore.projectAll
    dsimp only
    split
    · exact WritesKeyed.project store host _ _
    · exact (WritesKeyed.project store host _ _).trans (ih _)

theorem WritesKeyed.materialize (store : InputFileStore) (host : InputFileHost)
    (scope : InputFileScope) (files : List TurnFile) (regular : String → Bool) :
    WritesKeyed store (store.materialize host scope files regular).store := by
  unfold InputFileStore.materialize
  split
  · exact WritesKeyed.refl store
  · split
    · exact WritesKeyed.refl store
    · exact WritesKeyed.projectAll host regular files store

theorem WritesKeyed.retainAll (references : List InputFileReference) (store : InputFileStore) :
    WritesKeyed store (store.retainAll references) := by
  induction references generalizing store with
  | nil => exact WritesKeyed.refl store
  | cons reference references ih =>
    unfold InputFileStore.retainAll
    rw [List.foldl_cons]
    split
    · exact ih store
    · exact (WritesKeyed.save store _).trans (ih _)

theorem WritesKeyed.nativeImages (store : InputFileStore) (host : InputFileHost)
    (scope : InputFileScope) (references : List InputFileReference) :
    WritesKeyed store (store.nativeImages host scope references).store := by
  unfold InputFileStore.nativeImages
  split
  · exact WritesKeyed.refl store
  · split
    · exact WritesKeyed.refl store
    · exact WritesKeyed.retainAll references store

theorem WritesKeyed.retireAll (scope : InputFileScope) (files : List InputFileMetadata)
    (store : InputFileStore) : WritesKeyed store (store.retireAll scope files).store := by
  induction files generalizing store with
  | nil => exact WritesKeyed.refl store
  | cons metadata files ih =>
    have hfirst : WritesKeyed store (store.retireFile scope metadata).store := by
      unfold InputFileStore.retireFile
      dsimp only
      split
      · exact WritesKeyed.delete store metadata
      · exact WritesKeyed.save store _
    unfold InputFileStore.retireAll
    dsimp only
    split
    · split
      · exact hfirst
      · exact hfirst.trans (ih _)
    · exact ih store

theorem WritesKeyed.forkAll (scope : InputFileScope) (targetOwner : String)
    (files : List InputFileMetadata) (store : InputFileStore) :
    WritesKeyed store (store.forkAll scope targetOwner files).store := by
  induction files generalizing store with
  | nil => exact WritesKeyed.refl store
  | cons metadata files ih =>
    unfold InputFileStore.forkAll
    split
    · split
      · exact WritesKeyed.refl store
      · exact (WritesKeyed.save store _).trans (ih _)
    · exact ih store

/-- Files stand under their own ids, in memory and on disk. -/
structure InputFileStore.Keyed (store : InputFileStore) : Prop where
  entries : ∀ fileId metadata, store.entries.get? fileId = some metadata →
    metadata.reference.fileId = fileId
  records : ∀ fileId metadata, store.records.get? fileId = some metadata →
    metadata.reference.fileId = fileId

theorem InputFileStore.Keyed.writes (h : before.Keyed) (hwrites : WritesKeyed before after) :
    after.Keyed := by
  constructor
  · intro fileId metadata hfound
    rcases hwrites.entries fileId metadata hfound with hid | hbefore
    · exact hid
    · exact h.entries fileId metadata hbefore
  · intro fileId metadata hfound
    rcases hwrites.records fileId metadata hfound with hid | hbefore
    · exact hid
    · exact h.records fileId metadata hbefore

theorem InputFileRun.step_keyed {run : InputFileRun} (h : run.store.Keyed) (host : InputFileHost)
    (action : InputFileAction) : (run.step host action).store.Keyed := by
  cases action with
  | operation scope commandId request =>
    have hwrites := WritesKeyed.operation run.store host scope commandId request
    unfold InputFileRun.step
    dsimp only
    split
    · exact h.writes hwrites
    · rw [InputFileRun.accept_store]
      exact h.writes hwrites
  | materialize scope files regular =>
    exact h.writes (WritesKeyed.materialize run.store host scope files regular)
  | nativeImages scope references =>
    exact h.writes (WritesKeyed.nativeImages run.store host scope references)
  | retire scope => exact h.writes (WritesKeyed.retireAll scope run.store.entries.values run.store)
  | fork scope targetOwner =>
    change (run.store.fork scope targetOwner).store.Keyed
    unfold InputFileStore.fork
    split
    · exact h
    · exact h.writes (WritesKeyed.forkAll scope targetOwner run.store.entries.values run.store)
  | restart =>
    unfold InputFileRun.step
    dsimp only
    split
    · exact h
    · rename_i opened hopened
      unfold InputFileStore.reopen at hopened
      dsimp only at hopened
      split at hopened
      · cases hopened
        exact ⟨h.records, h.records⟩
      · cases hopened
  | tamper fileId copy => exact ⟨h.entries, h.records⟩

/-! ## Giving up files -/

variable {failure : Option FileFailure} {failures : String → Option FileFailure}
  {files : List InputFileMetadata}

def InputFileMetadata.disowned (metadata : InputFileMetadata) (scope : InputFileScope) :
    InputFileMetadata :=
  { metadata with owners := metadata.owners.filter fun owner => owner != scope.owner }

theorem disowned_owned (metadata : InputFileMetadata) (scope : InputFileScope) :
    (metadata.disowned scope).owned scope = false := by
  have hmember : scope.owner ∉ metadata.owners.filter fun owner => owner != scope.owner := by
    intro hfound
    exact bne_iff_ne.mp (List.mem_filter.mp hfound).2 rfl
  unfold InputFileMetadata.owned
  rw [Bool.and_eq_false_iff]
  left
  rw [← Bool.not_eq_true, List.contains_iff_mem]
  exact hmember

/-- The file is gone, or has lost the owner, in memory and on disk. -/
def GivenUp (scope : InputFileScope) (metadata : InputFileMetadata) (after : InputFileStore) :
    Prop :=
  after.entries.get? metadata.reference.fileId = after.records.get? metadata.reference.fileId ∧
    (after.entries.get? metadata.reference.fileId = none ∨
      after.entries.get? metadata.reference.fileId = some (metadata.disowned scope))

structure GivesUp (scope : InputFileScope) (metadata : InputFileMetadata) (before : InputFileStore)
    (call : FileCall Unit) : Prop where
  elsewhere : ∀ fileId, fileId ≠ metadata.reference.fileId →
    call.store.entries.get? fileId = before.entries.get? fileId ∧
      call.store.records.get? fileId = before.records.get? fileId
  entry : call.store.entries.get? metadata.reference.fileId =
      before.entries.get? metadata.reference.fileId ∨
    call.store.entries.get? metadata.reference.fileId = none ∨
    call.store.entries.get? metadata.reference.fileId = some (metadata.disowned scope)
  done : call.outcome = .ok () → GivenUp scope metadata call.store
  keyed : WritesKeyed before call.store

theorem GivesUp.throws {call : FileCall Unit} {error : HarnessError}
    (hentries : call.store.entries = before.entries)
    (hrecords : call.store.records = before.records ∨
      call.store.records = before.records.erase metadata.reference.fileId)
    (houtcome : call.outcome = .error error) : GivesUp scope metadata before call := by
  constructor
  · intro fileId hne
    rw [hentries]
    refine ⟨rfl, ?_⟩
    rcases hrecords with heq | heq
    · rw [heq]
    · rw [heq, Dict.get?_erase_of_ne _ hne]
  · exact Or.inl (by rw [hentries])
  · intro hok
    rw [houtcome] at hok
    cases hok
  · constructor
    · intro fileId found hfound
      exact Or.inr (hentries ▸ hfound)
    · intro fileId found hfound
      rcases hrecords with heq | heq
      · exact Or.inr (heq ▸ hfound)
      · rw [heq] at hfound
        exact Or.inr (get?_erase_keyed hfound)

theorem GivesUp.deleted {bodies : Dict String Bytes} {copies : Dict String WorkspaceCopy} :
    GivesUp scope metadata before (InputFileStore.returns
      ⟨before.entries.erase metadata.reference.fileId, before.records.erase metadata.reference.fileId,
        bodies, copies⟩ ()) where
  elsewhere := fun _ hne => ⟨Dict.get?_erase_of_ne _ hne, Dict.get?_erase_of_ne _ hne⟩
  entry := Or.inr (Or.inl (Dict.get?_erase_self _ _))
  done := fun _ => ⟨(Dict.get?_erase_self _ _).trans (Dict.get?_erase_self _ _).symm,
    Or.inl (Dict.get?_erase_self _ _)⟩
  keyed := ⟨fun _ _ h => Or.inr (get?_erase_keyed h), fun _ _ h => Or.inr (get?_erase_keyed h)⟩

theorem clearCopyUnder_files (failure : Option FileFailure) (fileId : String)
    (store : InputFileStore) :
    (store.clearCopyUnder failure fileId).store.entries = store.entries ∧
      (store.clearCopyUnder failure fileId).store.records = store.records := by
  unfold InputFileStore.clearCopyUnder
  split
  · exact ⟨rfl, rfl⟩
  · exact ⟨rfl, rfl⟩
  · split
    · exact ⟨rfl, rfl⟩
    · dsimp only
      split
      · exact ⟨rfl, rfl⟩
      · exact ⟨rfl, rfl⟩

theorem deleteUnder_gives_up (failure : Option FileFailure) (scope : InputFileScope)
    (metadata : InputFileMetadata) (store : InputFileStore) :
    GivesUp scope metadata store (store.deleteUnder failure metadata) := by
  rcases clearCopyUnder_files failure metadata.reference.fileId store with ⟨hentries, hrecords⟩
  unfold InputFileStore.deleteUnder
  dsimp only
  split
  · exact GivesUp.throws hentries (Or.inl hrecords) rfl
  · split
    · exact GivesUp.throws hentries (Or.inl hrecords) rfl
    · split
      · exact GivesUp.throws hentries (Or.inl hrecords) rfl
      · split
        · -- the record is gone, the body is not
          refine GivesUp.throws hentries (Or.inr ?_) rfl
          change Dict.erase _ _ = _
          rw [hrecords]
        · rw [hentries, hrecords]
          exact GivesUp.deleted

theorem retireFileUnder_gives_up (failure : Option FileFailure) (scope : InputFileScope)
    (metadata : InputFileMetadata) (store : InputFileStore) :
    GivesUp scope metadata store (store.retireFileUnder failure scope metadata) := by
  unfold InputFileStore.retireFileUnder
  dsimp only
  split
  · exact deleteUnder_gives_up failure scope metadata store
  · split
    · constructor
      · exact fun fileId hne => ⟨Dict.get?_set_of_ne _ _ hne, rfl⟩
      · exact Or.inr (Or.inr (Dict.get?_set_self _ _ _))
      · exact fun hok => nomatch hok
      · have hentries : ∀ fileId found,
            (store.entries.set (metadata.disowned scope).reference.fileId
              (metadata.disowned scope)).get? fileId = some found →
            found.reference.fileId = fileId ∨ store.entries.get? fileId = some found :=
          fun _ _ hfound => get?_set_keyed hfound
        exact ⟨hentries, fun _ _ h => Or.inr h⟩
    · constructor
      · exact fun fileId hne => ⟨Dict.get?_set_of_ne _ _ hne, Dict.get?_set_of_ne _ _ hne⟩
      · exact Or.inr (Or.inr (Dict.get?_set_self _ _ _))
      · exact fun _ => ⟨(Dict.get?_set_self _ _ _).trans (Dict.get?_set_self _ _ _).symm,
          Or.inr (Dict.get?_set_self _ _ _)⟩
      · exact WritesKeyed.save store (metadata.disowned scope)

/-- What the loop does to the files of a list, stopped or not. -/
structure GivesUpAll (scope : InputFileScope) (files : List InputFileMetadata)
    (before : InputFileStore) (call : FileCall Unit) : Prop where
  elsewhere : ∀ fileId, (∀ metadata ∈ files, metadata.owned scope = true →
      fileId ≠ metadata.reference.fileId) →
    call.store.entries.get? fileId = before.entries.get? fileId ∧
      call.store.records.get? fileId = before.records.get? fileId
  each : ∀ metadata ∈ files, metadata.owned scope = true →
    call.store.entries.get? metadata.reference.fileId =
        before.entries.get? metadata.reference.fileId ∨
      call.store.entries.get? metadata.reference.fileId = none ∨
      call.store.entries.get? metadata.reference.fileId = some (metadata.disowned scope)
  done : call.outcome = .ok () → ∀ metadata ∈ files, metadata.owned scope = true →
    GivenUp scope metadata call.store
  keyed : WritesKeyed before call.store

theorem ne_of_mem_rest {other : InputFileMetadata} {rest : List InputFileMetadata}
    (hnodup : ((metadata :: rest).map fun file => file.reference.fileId).Nodup)
    (hother : other ∈ rest) : metadata.reference.fileId ≠ other.reference.fileId := by
  rw [List.map_cons, List.nodup_cons] at hnodup
  intro heq
  apply hnodup.1
  rw [heq]
  exact List.mem_map_of_mem (f := fun file : InputFileMetadata => file.reference.fileId) hother

theorem retireAllUnder_gives_up (failures : String → Option FileFailure) (scope : InputFileScope)
    (files : List InputFileMetadata) (store : InputFileStore)
    (hnodup : (files.map fun metadata => metadata.reference.fileId).Nodup) :
    GivesUpAll scope files store (store.retireAllUnder failures scope files) := by
  induction files generalizing store with
  | nil =>
    constructor
    · exact fun _ _ => ⟨rfl, rfl⟩
    · intro _ hnone
      cases hnone
    · intro _ _ hnone
      cases hnone
    · exact WritesKeyed.refl store
  | cons metadata rest ih =>
    have hrest := (List.nodup_cons.mp hnodup).2
    unfold InputFileStore.retireAllUnder
    split
    · rename_i howned
      have hfirst := retireFileUnder_gives_up (failures metadata.reference.fileId) scope metadata
        store
      dsimp only
      split
      · -- the first file stops the loop
        constructor
        · exact fun fileId hne => hfirst.elsewhere fileId (hne metadata List.mem_cons_self howned)
        · intro other hother hotherOwned
          rcases List.mem_cons.mp hother with rfl | hother
          · exact hfirst.entry
          · exact Or.inl (hfirst.elsewhere _ (ne_of_mem_rest hnodup hother).symm).1
        · exact fun hok => nomatch hok
        · exact hfirst.keyed
      · rename_i hok
        have hall := ih (store.retireFileUnder (failures metadata.reference.fileId) scope
          metadata).store hrest
        have hkept := hall.elsewhere metadata.reference.fileId
          fun other hother _ => ne_of_mem_rest hnodup hother
        constructor
        · intro fileId hne
          have hthere := hfirst.elsewhere fileId (hne metadata List.mem_cons_self howned)
          have hafter := hall.elsewhere fileId
            fun other hother => hne other (List.mem_cons_of_mem _ hother)
          exact ⟨hafter.1.trans hthere.1, hafter.2.trans hthere.2⟩
        · intro other hother hotherOwned
          rcases List.mem_cons.mp hother with rfl | hother
          · rw [hkept.1]
            exact hfirst.entry
          · have hthere := hfirst.elsewhere _ (ne_of_mem_rest hnodup hother).symm
            rw [← hthere.1]
            exact hall.each other hother hotherOwned
        · intro hdone other hother hotherOwned
          rcases List.mem_cons.mp hother with rfl | hother
          · rcases hfirst.done hok with ⟨hsame, hgiven⟩
            unfold GivenUp
            rw [hkept.1, hkept.2]
            exact ⟨hsame, hgiven⟩
          · exact hall.done hdone other hother hotherOwned
        · exact hfirst.keyed.trans hall.keyed
    · rename_i howned
      have hall := ih store hrest
      constructor
      · intro fileId hne
        exact hall.elsewhere fileId fun other hother => hne other (List.mem_cons_of_mem _ hother)
      · intro other hother hotherOwned
        rcases List.mem_cons.mp hother with rfl | hother
        · exact absurd hotherOwned howned
        · exact hall.each other hother hotherOwned
      · intro hdone other hother hotherOwned
        rcases List.mem_cons.mp hother with rfl | hother
        · exact absurd hotherOwned howned
        · exact hall.done hdone other hother hotherOwned
      · exact hall.keyed

theorem InputFileStore.Keyed.nodup (h : store.Keyed) :
    (store.entries.values.map fun metadata => metadata.reference.fileId).Nodup := by
  have hkeys : store.entries.values.map (fun metadata => metadata.reference.fileId) =
      store.entries.keys := by
    unfold Dict.values Dict.keys
    rw [List.map_map]
    apply List.map_congr_left
    intro entry hentry
    exact h.entries entry.1 entry.2 (Dict.get?_eq_some_iff.mpr hentry)
  rw [hkeys]
  exact store.entries.nodup

theorem InputFileStore.Keyed.listed (h : store.Keyed)
    (hentry : store.entries.get? fileId = some metadata) :
    metadata ∈ store.entries.values ∧ metadata.reference.fileId = fileId :=
  ⟨Dict.mem_values_of_get? hentry, h.entries fileId metadata hentry⟩

/-- Each file stands as it was, or is a file of the scope that has lost the owner. -/
structure Disowns (scope : InputFileScope) (before after : InputFileStore) : Prop where
  lost : ∀ fileId metadata, after.entries.get? fileId = some metadata →
    before.entries.get? fileId = some metadata ∨
      ∃ old, before.entries.get? fileId = some old ∧ old.owned scope = true ∧
        metadata = old.disowned scope
  foreign : ∀ fileId metadata, before.entries.get? fileId = some metadata →
    metadata.owned scope = false → after.entries.get? fileId = some metadata ∧
      after.records.get? fileId = before.records.get? fileId

theorem Disowns.refl (scope : InputFileScope) (store : InputFileStore) :
    Disowns scope store store :=
  ⟨fun _ _ h => Or.inl h, fun _ _ h _ => ⟨h, rfl⟩⟩

/-- No file of the scope lists the owner, in memory or, where both agreed before, on disk. -/
structure Disowned (scope : InputFileScope) (before after : InputFileStore) : Prop where
  entries : ∀ fileId metadata, after.entries.get? fileId = some metadata →
    metadata.owned scope = false
  records : ∀ fileId metadata, after.records.get? fileId = some metadata →
    before.records.get? fileId = before.entries.get? fileId → metadata.owned scope = false

theorem GivesUpAll.apart {call : FileCall Unit} (h : GivesUpAll scope before.entries.values before call)
    (hkeyed : before.Keyed) (hapart : ∀ metadata, before.entries.get? fileId = some metadata →
      metadata.owned scope = false) :
    call.store.entries.get? fileId = before.entries.get? fileId ∧
      call.store.records.get? fileId = before.records.get? fileId := by
  apply h.elsewhere
  rintro metadata hmember howned rfl
  rcases List.mem_map.mp hmember with ⟨⟨other, found⟩, hentry, rfl⟩
  have hget := Dict.get?_eq_some_iff.mpr hentry
  have hid := hkeyed.entries other found hget
  dsimp only at hapart howned
  rw [hid] at hapart
  rw [hapart found hget] at howned
  cases howned

theorem retireUnder_disowns (hkeyed : store.Keyed) (failures : String → Option FileFailure)
    (scope : InputFileScope) : Disowns scope store (store.retireUnder failures scope).store := by
  have hall := retireAllUnder_gives_up failures scope store.entries.values store hkeyed.nodup
  constructor
  · intro fileId metadata hfound
    cases hentry : store.entries.get? fileId with
    | none =>
      have hsame := (hall.apart hkeyed fun found hstored =>
        nomatch hentry.symm.trans hstored).1.symm.trans hfound
      exact Or.inl (hentry.symm.trans hsame)
    | some old =>
      rcases hkeyed.listed hentry with ⟨hmember, hid⟩
      cases howned : old.owned scope with
      | false =>
        have hsame := hall.apart hkeyed fun found hstored =>
          Option.some.inj (hstored.symm.trans hentry) ▸ howned
        exact Or.inl (hentry.symm.trans (hsame.1.symm.trans hfound))
      | true =>
        have heach := hall.each old hmember howned
        rw [hid] at heach
        rcases heach with hsame | hnone | hlost
        · exact Or.inl (hentry.symm.trans (hsame.symm.trans hfound))
        · cases hnone.symm.trans hfound
        · exact Or.inr ⟨old, rfl, howned, Option.some.inj (hfound.symm.trans hlost)⟩
  · intro fileId metadata hentry howned
    have hsame := hall.apart hkeyed fun found hstored =>
      Option.some.inj (hstored.symm.trans hentry) ▸ howned
    exact ⟨hsame.1.trans hentry, hsame.2⟩

theorem retireUnder_disowned (hkeyed : store.Keyed)
    (hok : (store.retireUnder failures scope).outcome = .ok ()) :
    Disowned scope store (store.retireUnder failures scope).store := by
  have hall := retireAllUnder_gives_up failures scope store.entries.values store hkeyed.nodup
  -- what stands under the id of an owned file after the loop
  have hgiven : ∀ {fileId old}, store.entries.get? fileId = some old → old.owned scope = true →
      ∀ found, ((store.retireUnder failures scope).store.entries.get? fileId = some found ∨
        (store.retireUnder failures scope).store.records.get? fileId = some found) →
        found.owned scope = false := by
    intro fileId old hentry howned found hfound
    rcases hkeyed.listed hentry with ⟨hmember, rfl⟩
    rcases hall.done hok old hmember howned with ⟨hsame, hlost⟩
    change (store.retireUnder failures scope).store.entries.get? _ =
      (store.retireUnder failures scope).store.records.get? _ at hsame
    change (store.retireUnder failures scope).store.entries.get? _ = none ∨
      (store.retireUnder failures scope).store.entries.get? _ = _ at hlost
    rw [← hsame, or_self] at hfound
    rw [hfound] at hlost
    rcases hlost with hnone | hlost
    · cases hnone
    · rw [Option.some.inj hlost]
      exact disowned_owned old scope
  constructor
  · intro fileId metadata hfound
    rcases (retireUnder_disowns hkeyed failures scope).lost fileId metadata hfound with
      hentry | ⟨old, hentry, howned, rfl⟩
    · cases howned : metadata.owned scope with
      | false => rfl
      | true =>
        have hfree := hgiven hentry howned metadata (Or.inl hfound)
        rw [howned] at hfree
        cases hfree
    · exact disowned_owned old scope
  · intro fileId metadata hfound hagree
    by_cases hstored : ∃ old, store.entries.get? fileId = some old ∧ old.owned scope = true
    · rcases hstored with ⟨old, hentry, howned⟩
      exact hgiven hentry howned metadata (Or.inr hfound)
    · push Not at hstored
      have hapart : ∀ found, store.entries.get? fileId = some found → found.owned scope = false :=
        fun found hentry => Bool.eq_false_iff.mpr (hstored found hentry)
      apply hapart
      rw [← hagree, ← (hall.apart hkeyed hapart).2]
      exact hfound

theorem retireUnder_keyed (hkeyed : store.Keyed) (failures : String → Option FileFailure)
    (scope : InputFileScope) : (store.retireUnder failures scope).store.Keyed :=
  hkeyed.writes
    (retireAllUnder_gives_up failures scope store.entries.values store hkeyed.nodup).keyed

/-! ## The operation -/

/-- The binding is gone, in memory and on disk. -/
structure Unbound (key : String) (before after : RunnerStore) : Prop where
  data : after.data = { before.data with
    nativeConversations := before.data.nativeConversations.erase key }
  disk : after.disk = some after.data

/-- What the operation leaves in each of its outcomes. -/
structure RetirementKept (runner : RunnerStore) (files : InputFileStore) (sessionId : String)
    (call : RetireCall) : Prop where
  /-- Nothing has changed, and the conversation is still bound. -/
  refused : ∀ failure, call.outcome = .error (.binding failure) →
    (∀ key, call.runner.data.nativeConversations.get? key =
      runner.data.nativeConversations.get? key) ∧
    call.runner.disk = runner.disk ∧ call.files = files
  /-- The binding stays removed; files may still list the conversation. -/
  stopped : ∀ error, call.outcome = .error (.files error) → ∃ plan : ConversationPlan,
    runner.nativeConversationForSession sessionId = some (plan.key, plan.conversation) ∧
    Unbound plan.key runner call.runner ∧ Disowns plan.fileScope files call.files
  retired : ∀ result, call.outcome = .ok result → ∃ plan : ConversationPlan,
    runner.nativeConversationForSession sessionId = some (plan.key, plan.conversation) ∧
    Unbound plan.key runner call.runner ∧ Disowns plan.fileScope files call.files ∧
    Disowned plan.fileScope files call.files

variable {manager : Manager} {runner : RunnerStore} {plan : ConversationPlan}

theorem retireNativeConversation_cases (moment : Moment) (key : String) (runner : RunnerStore) :
    ((runner.retireNativeConversation moment key).failure = none ∧
      Unbound key runner (runner.retireNativeConversation moment key).state) ∨
    ((runner.retireNativeConversation moment key).failure ≠ none ∧
      (∀ other, (runner.retireNativeConversation moment key).state.data.nativeConversations.get?
        other = runner.data.nativeConversations.get? other) ∧
      (runner.retireNativeConversation moment key).state.disk = runner.disk) := by
  unfold RunnerStore.retireNativeConversation
  dsimp only
  split
  · exact Or.inr ⟨fun hnone => (by cases hnone), fun _ => rfl, rfl⟩
  · rcases runner.attempt_cases moment.written _ _ with ⟨-, -, heq⟩ | ⟨hfailed, heq⟩
    · rw [heq]
      exact Or.inl ⟨rfl, ⟨rfl, rfl⟩⟩
    · refine Or.inr ⟨hfailed, ?_, ?_⟩
      · intro other
        rw [heq]
        dsimp only
        split
        · rename_i prior hprior
          change ((runner.data.nativeConversations.erase key).restore key _).get? other = _
          rw [Dict.get?_restore]
          by_cases hother : other = key
          · rw [if_pos hother, hother]
          · rw [if_neg hother, Dict.get?_erase_of_ne _ hother]
        · rename_i hnone
          rw [Dict.erase_of_none hnone]
      · rw [heq]

theorem Manager.admitConversation_retire {commandId sessionId : String}
    {result : ConversationResult} :
    manager.admitConversation runner ⟨commandId, sessionId, .retire⟩ ≠ .answered result := by
  intro h
  unfold Manager.admitConversation at h
  split at h
  · cases h
  · dsimp only at h
    split at h
    · cases h
    · cases h

theorem retireConversation_kept (manager : Manager) (environment : RetireEnvironment)
    (commandId sessionId : String) (runner : RunnerStore) {files : InputFileStore}
    (hkeyed : files.Keyed) :
    RetirementKept runner files sessionId
        (manager.retireConversation environment commandId sessionId runner files) ∧
      (manager.retireConversation environment commandId sessionId runner files).files.Keyed := by
  unfold Manager.retireConversation
  split
  · refine ⟨⟨fun _ _ => ⟨fun _ => rfl, rfl, rfl⟩, ?_, ?_⟩, hkeyed⟩
    · intro error hfalse
      cases hfalse
    · intro result hfalse
      cases hfalse
  · rename_i hanswered
    exact absurd hanswered Manager.admitConversation_retire
  · rename_i plan hadmitted
    have hbound := (Manager.admitConversation_admitted hadmitted).bound
    rcases retireNativeConversation_cases environment.moment plan.key runner with
      ⟨hremoved, hunbound⟩ | ⟨hfailed, hsame, hdisk⟩
    · dsimp only
      rw [hremoved]
      dsimp only
      split
      · -- the file store cannot be opened
        refine ⟨⟨?_, ?_, ?_⟩, hkeyed⟩
        · intro failure hfalse
          cases hfalse
        · exact fun _ _ => ⟨plan, hbound, hunbound, Disowns.refl _ _⟩
        · intro result hfalse
          cases hfalse
      · have hdisowns := retireUnder_disowns hkeyed environment.failures plan.fileScope
        refine ⟨⟨?_, ?_, ?_⟩, retireUnder_keyed hkeyed _ _⟩
        · intro failure hfalse
          dsimp only at hfalse
          split at hfalse
          · cases hfalse
          · cases hfalse
        · exact fun _ _ => ⟨plan, hbound, hunbound, hdisowns⟩
        · intro result hok
          dsimp only at hok
          split at hok
          · cases hok
          · rename_i hdone
            exact ⟨plan, hbound, hunbound, hdisowns, retireUnder_disowned hkeyed hdone⟩
    · dsimp only
      split
      · refine ⟨⟨fun _ _ => ⟨hsame, hdisk, rfl⟩, ?_, ?_⟩, hkeyed⟩
        · intro error hfalse
          cases hfalse
        · intro result hfalse
          cases hfalse
      · rename_i hnone
        exact absurd hnone hfailed

/-! ## Runs -/

theorem RetirementRun.step_keyed {run : RetirementRun} (h : run.files.store.Keyed)
    (runtime : Runtime) (host : InputFileHost) (action : RetirementAction) :
    (run.step runtime host action).files.store.Keyed := by
  cases action with
  | runner step => exact h
  | files action => exact InputFileRun.step_keyed h host action
  | retire manager environment commandId sessionId =>
    exact (retireConversation_kept manager environment commandId sessionId run.runner.store h).2

/-- In every state of every run, a retirement keeps its promises whatever fails in it. -/
theorem retirement_kept (runtime : Runtime) (host : InputFileHost)
    (actions : List RetirementAction) :
    Always (RetirementRun.step runtime host)
      (fun run => ∀ (manager : Manager) environment commandId sessionId,
        RetirementKept run.runner.store run.files.store sessionId
          (manager.retireConversation environment commandId sessionId run.runner.store
            run.files.store))
      RetirementRun.fresh actions := by
  have hempty : RetirementRun.fresh.files.store.Keyed :=
    ⟨fun _ _ h => (nomatch h), fun _ _ h => (nomatch h)⟩
  have hkeyed : Always (RetirementRun.step runtime host)
      (fun run : RetirementRun => run.files.store.Keyed) RetirementRun.fresh actions :=
    always_of_inv (fun (run : RetirementRun) action (h : run.files.store.Keyed) =>
      RetirementRun.step_keyed h runtime host action) hempty actions
  exact hkeyed.mono fun run h manager environment commandId sessionId =>
    (retireConversation_kept manager environment commandId sessionId run.runner.store h).1

/-! ## Bindings without files, files without bindings -/

def plainFileScope (cwd : String) : InputFileScope :=
  ⟨"conversation:key-1", "provider-1", emptyHash, "workspace-1", cwd⟩

/-- A bound conversation with a file that was uploaded in a directory. -/
def uploadedFile (cwd : String) : List RetirementAction :=
  [.files (.operation (plainFileScope cwd) "upload" (.create noteFile)),
    .runner (.call ⟨0, true⟩ (.saveNativeConversation "key-1" plainConversation))]

/-- The call after the actions, where nothing else fails. -/
def retireAfter (actions : List RetirementAction) : RetireCall :=
  let reached := run (RetirementRun.step plainManager.runtime filesHost) RetirementRun.fresh actions
  plainManager.retireConversation ⟨⟨1, true⟩, none, fun _ => none⟩ "command-1" "session-1"
    reached.runner.store reached.files.store

def irregularCopy : List RetirementAction :=
  uploadedFile "/workspace" ++ [.files (.tamper otherHash (some .irregular))]

/-- The retirement of a conversation whose file has an irregular copy fails and leaves no binding,
and one that returns leaves a file of the conversation that was uploaded in another directory. -/
theorem retired_with_files :
    ((retireAfter irregularCopy).outcome = .error (.files fileUnavailable) ∧
      (retireAfter irregularCopy).runner.data.nativeConversations.get? "key-1" = none) ∧
    (retireAfter (uploadedFile "/elsewhere")).outcome =
      .ok ⟨"command-1", "session-1", .retire, none, none, none, none, none, none, none, none, false,
        none, none, none⟩ ∧
    ((retireAfter (uploadedFile "/elsewhere")).files.entries.get? otherHash).any
      (fun metadata => metadata.owners.contains "conversation:key-1") = true := by
  decide +kernel

end HarnessControl.Harnesses
