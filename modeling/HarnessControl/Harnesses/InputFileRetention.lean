import HarnessControl.Harnesses.InputFileRuns

/-!
# What the file store keeps

Each step of a run changes files of one scope, starts an upload, lets one grow, or happens outside
the store.  That accepted requests can be repeated, that a sealed body stays, and that a retained
file stays with each of its owners until that owner is retired, is read off this.
-/

namespace HarnessControl.Harnesses

open HarnessControl.Library HarnessControl.Protocol HarnessControl.State

variable {host : InputFileHost} {scope : InputFileScope} {store before after : InputFileStore}
  {run : InputFileRun} {fileId commandId : String} {metadata : InputFileMetadata} {body : Bytes}
  {action : InputFileAction}

/-! ## Steps -/

inductive StoreChange (host : InputFileHost) (action : InputFileAction) :
    InputFileStore → InputFileStore → Prop where
  | changed {before after : InputFileStore} {scope : InputFileScope} {retiring : Bool}
    (hscope : action.scope? = some scope) (hretiring : retiring = true → action = .retire scope)
    (hchanges : FileChanges host scope retiring before after) : StoreChange host action before after
  /-- No file had the id of the new upload. -/
  | started {before : InputFileStore} {metadata : InputFileMetadata}
    (hnone : before.entries.get? metadata.reference.fileId = none) :
    StoreChange host action before (InputFileStore.save metadata
      { before with bodies := before.bodies.set metadata.reference.fileId [] })
  | grown {before : InputFileStore} {scope : InputFileScope} {fileId : String}
    {metadata : InputFileMetadata} {body : Bytes} (hscope : action.scope? = some scope)
    (hentry : before.entries.get? fileId = some metadata) (howned : metadata.owned scope = true)
    (hunsealed : metadata.sealed = false) :
    StoreChange host action before { before with bodies := before.bodies.set fileId body }
  /-- A restart, or a copy in the workspace that something else wrote. -/
  | outside {before : InputFileStore} {copies : Dict String WorkspaceCopy}
    (hscope : action.scope? = none) : StoreChange host action before { before with copies }

theorem InputFileRun.accept_store (scope : InputFileScope) (commandId : String)
    (request : InputFileRequest) (result : InputFileResult)
    (store : InputFileStore) (run : InputFileRun) :
    (run.accept scope commandId request result store).store = store := by
  unfold InputFileRun.accept
  cases request with
  | create description =>
    dsimp only
    split
    · rfl
    · rfl
  | append fileId offset dataBase64 => rfl
  | sealUpload fileId => rfl
  | read fileId => rfl
  | release fileId => rfl

theorem InputFileRun.step_operation (run : InputFileRun) (host : InputFileHost)
    (scope : InputFileScope) (commandId : String) (request : InputFileRequest) :
    (run.step host (.operation scope commandId request)).store =
      (run.store.operation host scope commandId request).store := by
  unfold InputFileRun.step
  dsimp only
  split
  · rfl
  · exact run.accept_store scope commandId request _ _

theorem InputFileStore.operation_change (hsound : store.Sound host) (scope : InputFileScope)
    (commandId : String) (request : InputFileRequest) :
    StoreChange host (.operation scope commandId request) store
      (store.operation host scope commandId request).store := by
  have hchanged : ∀ {after : InputFileStore}, FileChanges host scope false store after →
      StoreChange host (.operation scope commandId request) store after := by
    intro after hchanges
    have hstays : false = true → (InputFileAction.operation scope commandId request) =
        .retire scope := fun hfalse => nomatch hfalse
    exact StoreChange.changed rfl hstays hchanges
  by_cases happend : ∃ fileId offset dataBase64, request = .append fileId offset dataBase64
  · rcases happend with ⟨fileId, offset, dataBase64, rfl⟩
    have htarget : (InputFileRequest.append fileId offset dataBase64).target = some fileId := rfl
    rcases store.operation_cases host scope commandId htarget with
      ⟨error, heq⟩ | ⟨metadata, body, -, hentry, howned, -, heq⟩
    · rw [heq]
      exact hchanged Relation.ReflTransGen.refl
    · rw [heq]
      change StoreChange _ _ _ (store.append metadata body offset dataBase64).store
      rcases store.append_cases metadata body offset dataBase64 with
        ⟨error, heq⟩ | ⟨-, -, -, ⟨-, -, heq⟩ | ⟨hunsealed, -, -, heq⟩⟩
      · rw [heq]
        exact hchanged Relation.ReflTransGen.refl
      · rw [heq]
        exact hchanged Relation.ReflTransGen.refl
      · rw [heq, hsound.keyed fileId metadata hentry]
        exact StoreChange.grown rfl hentry howned hunsealed
  · push Not at happend
    cases htarget : request.target with
    | some fileId => exact hchanged (InputFileStore.operation_changes hsound commandId htarget happend)
    | none =>
      cases request with
      | create description =>
        by_cases hadmits : harnessInputFileOperationSchema (.create description) = true
        · rw [InputFileStore.operation_create hadmits]
          split
          · exact hchanged Relation.ReflTransGen.refl
          · rcases store.create_cases host scope commandId description with
              ⟨error, heq⟩ | ⟨existing, body, -, -, -, heq⟩ | ⟨hnone, -, heq⟩
            · rw [heq]
              exact hchanged Relation.ReflTransGen.refl
            · rw [heq]
              exact hchanged Relation.ReflTransGen.refl
            · rw [heq]
              have hfresh : store.entries.get?
                  (freshUpload host scope commandId description).reference.fileId = none :=
                hnone
              exact StoreChange.started hfresh
        · rw [InputFileStore.operation_refused hadmits]
          exact hchanged Relation.ReflTransGen.refl
      | append fileId offset dataBase64 => cases htarget
      | sealUpload fileId => cases htarget
      | read fileId => cases htarget
      | release fileId => cases htarget

theorem InputFileRun.step_change (hsound : run.store.Sound host) (action : InputFileAction) :
    StoreChange host action run.store (run.step host action).store := by
  have hfalse : ∀ {scope : InputFileScope}, false = true → action = .retire scope :=
    fun h => nomatch h
  cases action with
  | operation scope commandId request =>
    rw [run.step_operation]
    exact InputFileStore.operation_change hsound scope commandId request
  | materialize scope files regular =>
    exact StoreChange.changed rfl hfalse (InputFileStore.materialize_changes hsound files regular)
  | nativeImages scope references =>
    exact StoreChange.changed rfl hfalse (InputFileStore.nativeImages_changes hsound references)
  | retire scope =>
    exact StoreChange.changed rfl (fun _ => rfl) (InputFileStore.retire_changes hsound)
  | fork scope targetOwner =>
    exact StoreChange.changed rfl hfalse (InputFileStore.fork_changes hsound targetOwner)
  | restart =>
    have hsame : (run.step host .restart).store = run.store := by
      unfold InputFileRun.step
      dsimp only
      split
      · rfl
      · rename_i opened hopened
        exact hsound.reopen hopened
    rw [hsame]
    exact StoreChange.outside rfl
  | tamper fileId copy => exact StoreChange.outside rfl

/-! ## Other scopes -/

theorem StoreChange.foreign (h : StoreChange host action before after)
    (hsound : before.Sound host) (hscope : action.scope? = some scope) :
    ForeignKept scope before after := by
  cases h with
  | changed hcaller hretiring hchanges =>
    rw [hscope] at hcaller
    cases hcaller
    exact hchanges.foreign hsound
  | @started metadata hnone =>
    intro other found hfound _
    have hne : other ≠ metadata.reference.fileId := by
      rintro rfl
      rw [hnone] at hfound
      cases hfound
    exact ⟨Dict.get?_set_of_ne _ _ hne, Dict.get?_set_of_ne _ _ hne,
      Dict.get?_set_of_ne _ _ hne, rfl⟩
  | @grown caller fileId metadata body hcaller hentry howned hunsealed =>
    rw [hscope] at hcaller
    cases hcaller
    intro other found hfound hforeign
    have hne : other ≠ fileId := by
      rintro rfl
      rw [hentry] at hfound
      cases hfound
      rw [hforeign] at howned
      cases howned
    exact ⟨rfl, rfl, Dict.get?_set_of_ne _ _ hne, rfl⟩
  | outside hnone =>
    rw [hscope] at hnone
    cases hnone

theorem InputFileStore.perform_reference {request : InputFileRequest} {result : InputFileResult}
    (h : (store.perform host metadata body request).outcome = .ok result) :
    result.reference = metadata.reference := by
  cases request with
  | create description => cases h
  | append fileId offset dataBase64 =>
    change (store.append metadata body offset dataBase64).outcome = _ at h
    rcases store.append_cases metadata body offset dataBase64 with
      ⟨error, heq⟩ | ⟨-, -, -, ⟨-, -, heq⟩ | ⟨-, -, -, heq⟩⟩
    · rw [heq] at h
      cases h
    · rw [heq] at h
      cases h
      rfl
    · rw [heq] at h
      cases h
      rfl
  | sealUpload fileId =>
    change (store.sealUpload host metadata body).outcome = _ at h
    rcases store.sealUpload_cases host metadata body with ⟨error, heq⟩ | ⟨-, heq⟩
    · rw [heq] at h
      cases h
    · rw [heq] at h
      cases h
      rfl
  | read fileId =>
    cases h
    rfl
  | release fileId =>
    change (store.release metadata).outcome = _ at h
    unfold InputFileStore.release at h
    dsimp only at h
    split at h
    · cases h
    · split at h
      · cases h
      · cases h
        rfl

theorem InputFileStore.operation_reads (hsound : store.Sound host) {request : InputFileRequest}
    {result : InputFileResult}
    (h : (store.operation host scope commandId request).outcome = .ok result)
    (hrequest : ∀ description, request ≠ .create description) :
    ∃ metadata, store.entries.get? result.reference.fileId = some metadata ∧
      metadata.owned scope = true := by
  cases htarget : request.target with
  | none =>
    cases request with
    | create description => exact absurd rfl (hrequest description)
    | append fileId offset dataBase64 => cases htarget
    | sealUpload fileId => cases htarget
    | read fileId => cases htarget
    | release fileId => cases htarget
  | some fileId =>
    rcases store.operation_cases host scope commandId htarget with
      ⟨error, heq⟩ | ⟨metadata, body, -, hentry, howned, -, heq⟩
    · rw [heq] at h
      cases h
    · rw [heq] at h
      rw [InputFileStore.perform_reference h, hsound.keyed fileId metadata hentry]
      exact ⟨metadata, hentry, howned⟩

/-! ## Retries -/

theorem InputFileStore.save_self (hsound : store.Sound host)
    (hentry : store.entries.get? fileId = some metadata) : store.save metadata = store := by
  have hrecords := hsound.records
  have hid := hsound.keyed fileId metadata hentry
  unfold InputFileStore.save
  rw [hrecords, hid, Dict.set_get? hentry]
  cases store
  dsimp only at hrecords ⊢
  rw [hrecords]

theorem UploadRequest.Standing.repeats {upload : UploadRequest}
    (h : upload.Standing host metadata body) (hsound : store.Sound host)
    (hentry : store.entries.get? upload.fileId = some metadata)
    (hbody : store.bodies.get? upload.fileId = some body)
    (howned : metadata.owned upload.scope = true) : upload.repeats host store := by
  rcases upload with ⟨scope, commandId, request, fileId⟩
  unfold UploadRequest.Standing at h
  unfold UploadRequest.repeats
  dsimp only at *
  have hrequire := InputFileStore.require_eq_some.mpr ⟨hentry, howned, hbody⟩
  cases request with
  | create description =>
    rcases h with ⟨hadmits, rfl, rfl⟩
    have hsmall : ¬maxFileBytes < metadata.reference.toInputFileDescription.byteLength := by
      have hbounded := hsound.bounded _ metadata hentry
      omega
    refine ⟨metadata.result body, ?_⟩
    rw [InputFileStore.operation_create hadmits, if_neg hsmall]
    unfold InputFileStore.create
    dsimp only
    rw [hentry, hbody]
    dsimp only
    rw [if_neg (not_not.mpr rfl)]
    rfl
  | append named offset dataBase64 =>
    rcases h with ⟨hadmits, rfl, hbytes, hlength, hcanonical, hwithin, hslice⟩
    refine ⟨metadata.result body, ?_⟩
    rw [InputFileStore.operation_target hadmits rfl, hrequire]
    change store.append metadata body offset dataBase64 = _
    unfold InputFileStore.append
    dsimp only
    rw [if_neg, if_pos ⟨hwithin, hslice⟩]
    · rfl
    · rw [not_or, not_or, not_lt, not_not]
      exact ⟨hbytes, hlength, hcanonical⟩
  | sealUpload named =>
    rcases h with ⟨hadmits, rfl, hsealed⟩
    rcases hsound.bodied fileId metadata hentry with ⟨stored, hstored, hfits, hmatches⟩
    rw [hbody] at hstored
    cases hstored
    have hsmall : ¬maxFileBytes < body.length := by
      have hbounded := hsound.bounded fileId metadata hentry
      omega
    have hsame : { metadata with sealed := true } = metadata := by
      cases metadata
      dsimp only at hsealed ⊢
      rw [hsealed]
    refine ⟨metadata.result body, ?_⟩
    rw [InputFileStore.operation_target hadmits rfl, hrequire]
    change store.sealUpload host metadata body = _
    unfold InputFileStore.sealUpload
    dsimp only
    rw [if_neg hsmall, if_neg (not_not.mpr (hmatches hsealed)), hsame,
      InputFileStore.save_self hsound hentry]
    rfl
  | read named => exact h.2.elim
  | release named => exact h.2.elim

/-! ## Delivery -/

theorem InputFileStore.materialize_delivers {files : List TurnFile} {regular : String → Bool}
    {projected : List ProjectedFile}
    (h : (store.materialize host scope files regular).outcome = .ok projected) {file : TurnFile}
    (hfile : file ∈ files) : Deliverable host scope store file.reference.fileId := by
  unfold InputFileStore.materialize at h
  split at h
  · cases h
  · split at h
    · cases h
    · rename_i hnone
      rw [List.findSome?_eq_none_iff] at hnone
      exact InputFileStore.deliverable_of_none (hnone file hfile)

theorem InputFileStore.nativeImages_delivers {references : List InputFileReference}
    {selected : List (InputFileReference × String)}
    (h : (store.nativeImages host scope references).outcome = .ok selected)
    {reference : InputFileReference} (hreference : reference ∈ references) :
    Deliverable host scope store reference.fileId := by
  unfold InputFileStore.nativeImages at h
  split at h
  · cases h
  · split at h
    · cases h
    · rename_i hnone
      rw [List.findSome?_eq_none_iff] at hnone
      exact InputFileStore.deliverable_of_none (hnone reference hreference)

theorem InputFileStore.fork_holds (hsound : store.Sound host) {targetOwner : String}
    (h : (store.fork scope targetOwner).outcome = .ok ()) {reference : InputFileReference}
    (hheld : store.Holds scope.owner reference scope.place body) :
    (store.fork scope targetOwner).store.Holds targetOwner reference scope.place body := by
  rcases hheld with ⟨metadata, hentry, rfl, hplace, hretained, hmember, hbody⟩
  unfold InputFileStore.fork at h ⊢
  split at h
  · cases h
  · rename_i hadmits
    have howned : metadata.owned scope = true :=
      InputFileMetadata.owned_iff.mpr ⟨hmember, hplace⟩
    rw [if_neg hadmits, ← hplace]
    exact InputFileStore.forkAll_holds _ hsound hsound.listed h (Dict.mem_values_of_get? hentry)
      hretained howned hbody

variable {reference : InputFileReference}

theorem InputFileStore.Holds.read (h : store.Holds scope.owner reference scope.place body)
    (hadmits : harnessInputFileOperationSchema (.read reference.fileId) = true) (commandId : String) :
    store.operation host scope commandId (.read reference.fileId) =
      ⟨store, .ok ⟨reference, body.length, .retained⟩⟩ := by
  rcases h with ⟨metadata, hentry, rfl, hplace, hretained, hmember, hbody⟩
  have howned : metadata.owned scope = true := InputFileMetadata.owned_iff.mpr ⟨hmember, hplace⟩
  rw [InputFileStore.operation_target hadmits rfl,
    InputFileStore.require_eq_some.mpr ⟨hentry, howned, hbody⟩]
  change store.returns (metadata.result body) = _
  unfold InputFileMetadata.result
  rw [hretained, if_pos rfl]
  rfl

/-! ## Promises -/

theorem InputFileRun.Tracks.kept (h : run.Tracks host) : run.Kept host where
  bodies := by
    intro fileId metadata hentry
    rcases h.chunks fileId metadata hentry with ⟨chunks, hchunks, hbody⟩
    rcases h.sound.bodied fileId metadata hentry with ⟨body, hstored, hfits, -⟩
    rw [hbody] at hstored
    cases hstored
    exact ⟨chunks, hchunks, hbody, hfits⟩
  sealed := by
    intro fileId metadata hentry hsealed
    rcases h.sound.bodied fileId metadata hentry with ⟨body, hbody, -, hmatches⟩
    exact ⟨body, hbody, hmatches hsealed⟩
  quota := h.sound.quota
  repeated := by
    intro upload hupload metadata hentry howned
    rcases h.sound.bodied upload.fileId metadata hentry with ⟨body, hbody, -⟩
    exact (h.uploads upload hupload metadata body hentry hbody).repeats h.sound hentry hbody howned
  foreign := fun action _ hscope => (run.step_change h.sound action).foreign h.sound hscope
  reads := fun _ _ _ _ hreturned hrequest =>
    InputFileStore.operation_reads h.sound hreturned hrequest
  delivers := fun _ _ _ _ hreturned _ hfile =>
    InputFileStore.materialize_delivers hreturned hfile
  images := fun _ _ _ hreturned _ hreference =>
    InputFileStore.nativeImages_delivers hreturned hreference
  forked := fun _ _ hreturned _ _ hheld => InputFileStore.fork_holds h.sound hreturned hheld
  readable := fun _ commandId _ _ hheld hadmits => hheld.read hadmits commandId

theorem always_tracks (host : InputFileHost) (actions : List InputFileAction) :
    Always (InputFileRun.step host) (InputFileRun.Tracks host) InputFileRun.empty actions :=
  always_of_inv (fun _ action h => h.step action) InputFileRun.Tracks.empty actions

def InputFileStore.Seals (store : InputFileStore) (reference : InputFileReference)
    (body : Bytes) : Prop :=
  ∃ metadata, store.entries.get? reference.fileId = some metadata ∧
    metadata.reference = reference ∧ metadata.sealed = true ∧
    store.bodies.get? reference.fileId = some body

theorem StoreChange.seals (h : StoreChange host action before after) (hsound : before.Sound host)
    (hsealed : before.Seals reference body)
    (hstays : (after.entries.get? reference.fileId).isSome = true) :
    after.Seals reference body := by
  rcases hsealed with ⟨metadata, hentry, hreference, hmark, hbody⟩
  cases h with
  | changed hcaller hretiring hchanges =>
    rcases Option.isSome_iff_exists.mp hstays with ⟨later, hlater⟩
    rcases hchanges.survives hsound reference.fileId later hlater with
      ⟨earlier, hearlier, hsame, -, hseals, -, hbodies⟩
    rw [hentry] at hearlier
    cases hearlier
    exact ⟨later, hlater, hsame.trans hreference, hseals hmark, hbodies.trans hbody⟩
  | @started fresh hnone =>
    have hne : reference.fileId ≠ fresh.reference.fileId := by
      intro heq
      rw [← heq, hentry] at hnone
      cases hnone
    exact ⟨metadata, (Dict.get?_set_of_ne _ _ hne).trans hentry, hreference, hmark,
      (Dict.get?_set_of_ne _ _ hne).trans hbody⟩
  | @grown caller fileId found grown hcaller hfound howned hunsealed =>
    have hne : reference.fileId ≠ fileId := by
      rintro rfl
      rw [hentry] at hfound
      cases hfound
      rw [hmark] at hunsealed
      cases hunsealed
    exact ⟨metadata, hentry, hreference, hmark, (Dict.get?_set_of_ne _ _ hne).trans hbody⟩
  | outside hnone => exact ⟨metadata, hentry, hreference, hmark, hbody⟩

theorem StoreChange.holds {owner : String}
    {place : InputFileScope} (h : StoreChange host action before after)
    (hsound : before.Sound host) (hheld : before.Holds owner reference place body)
    (hstays : ∀ scope, action = .retire scope → ¬Retires scope owner place) :
    after.Holds owner reference place body := by
  cases h with
  | changed hcaller hretiring hchanges =>
    exact hchanges.holds hsound hheld fun hmark => hstays _ (hretiring hmark)
  | @started fresh hnone =>
    rcases hheld with ⟨metadata, hentry, hreference, hplace, hmark, hmember, hbody⟩
    have hne : reference.fileId ≠ fresh.reference.fileId := by
      intro heq
      rw [← heq, hentry] at hnone
      cases hnone
    exact ⟨metadata, (Dict.get?_set_of_ne _ _ hne).trans hentry, hreference, hplace, hmark,
      hmember, (Dict.get?_set_of_ne _ _ hne).trans hbody⟩
  | @grown caller fileId found grown hcaller hfound howned hunsealed =>
    rcases hheld with ⟨metadata, hentry, hreference, hplace, hmark, hmember, hbody⟩
    -- a retained file is sealed
    have hne : reference.fileId ≠ fileId := by
      rintro rfl
      rw [hentry] at hfound
      cases hfound
      rw [hsound.delivered _ _ hentry hmark] at hunsealed
      cases hunsealed
    exact ⟨metadata, hentry, hreference, hplace, hmark, hmember,
      (Dict.get?_set_of_ne _ _ hne).trans hbody⟩
  | outside hnone => exact hheld

theorem InputFileRun.Tracks.seals (actions : List InputFileAction)
    {run : InputFileRun} (h : run.Tracks host) (hsealed : run.store.Seals reference body)
    (hstays : Always (InputFileRun.step host)
      (fun run => (run.store.entries.get? reference.fileId).isSome = true) run actions) :
    (Library.run (InputFileRun.step host) run actions).store.Seals reference body := by
  induction actions generalizing run with
  | nil => exact hsealed
  | cons action actions ih =>
    rw [run_cons]
    apply ih (h.step action) _ hstays.2
    exact (run.step_change h.sound action).seals h.sound hsealed hstays.2.head

theorem InputFileRun.Tracks.holds {owner : String}
    {place : InputFileScope} (actions : List InputFileAction) {run : InputFileRun}
    (h : run.Tracks host) (hheld : run.store.Holds owner reference place body)
    (hstays : ∀ scope, .retire scope ∈ actions → ¬Retires scope owner place) :
    (Library.run (InputFileRun.step host) run actions).store.Holds owner reference place body := by
  induction actions generalizing run with
  | nil => exact hheld
  | cons action actions ih =>
    rw [run_cons]
    apply ih (h.step action)
    · apply (run.step_change h.sound action).holds h.sound hheld
      rintro scope rfl
      exact hstays scope List.mem_cons_self
    · exact fun scope hmember => hstays scope (List.mem_cons_of_mem _ hmember)

/-- Every run of the store keeps its promises; a sealed body stays for as long as the file is
there, and a retained file stays with every owner that has not been retired. -/
theorem input_files_kept (host : InputFileHost) (actions : List InputFileAction) :
    Always (InputFileRun.step host) (InputFileRun.Kept host) InputFileRun.empty actions ∧
    ∀ first second, actions = first ++ second →
      (∀ reference body,
        (Library.run (InputFileRun.step host) InputFileRun.empty first).store.Seals
          reference body →
        Always (InputFileRun.step host)
          (fun run => (run.store.entries.get? reference.fileId).isSome = true)
          (Library.run (InputFileRun.step host) InputFileRun.empty first) second →
        (Library.run (InputFileRun.step host) InputFileRun.empty actions).store.Seals
          reference body) ∧
      ∀ owner reference place body,
        (Library.run (InputFileRun.step host) InputFileRun.empty first).store.Holds owner
          reference place body →
        (∀ scope, .retire scope ∈ second → ¬Retires scope owner place) →
        (Library.run (InputFileRun.step host) InputFileRun.empty actions).store.Holds owner
          reference place body := by
  have htracks := always_tracks host actions
  refine ⟨htracks.mono fun _ h => h.kept, ?_⟩
  rintro first second rfl
  have hmiddle := htracks.initial
  rw [run_append]
  constructor
  · intro reference body hsealed hstays
    exact hmiddle.seals second hsealed hstays
  · intro owner reference place body hheld hstays
    exact hmiddle.holds second hheld hstays

/-! ## Released uploads -/

/-- The digest of the byte 1. -/
def oneHash : String := "4bf5122f344554c53bde2ebb8cd2b7e3d1600ad631c385a5d7cce23c7785459a"

/-- A host that knows one body and one upload, and gives the file of the upload an id. -/
def filesHost : InputFileHost where
  sha256 := fun bytes => if bytes = [1] then oneHash else emptyHash
  fileId := fun _ commandId => if commandId = "upload" then otherHash else emptyHash
  recordBytes := fun _ => 600
  nativePath := fun metadata => metadata.reference.fileId

def noteFile : InputFileDescription := ⟨oneHash, "note.txt", "text/plain", 1⟩

def filesScope : InputFileScope := ⟨"conversation", "provider", "binding", "workspace", "/work"⟩

def releasedUpload : List InputFileAction :=
  [.operation filesScope "upload" (.create noteFile),
    .operation filesScope "chunk" (.append otherHash 0 "AQ=="),
    .operation filesScope "drop" (.release otherHash)]

/-- A chunk that was accepted is refused once the upload has been released. -/
theorem released_chunk_refused :
    ¬∀ (host : InputFileHost) (actions : List InputFileAction),
      ∀ upload ∈ (Library.run (InputFileRun.step host) InputFileRun.empty actions).accepted,
        upload.repeats host
          (Library.run (InputFileRun.step host) InputFileRun.empty actions).store := by
  intro hall
  have hrepeats := hall filesHost releasedUpload
    ⟨filesScope, "chunk", .append otherHash 0 "AQ==", otherHash⟩ (by decide +kernel)
  rcases hrepeats with ⟨result, hresult⟩
  have hrefused : ((Library.run (InputFileRun.step filesHost) InputFileRun.empty
      releasedUpload).store.operation filesHost filesScope "chunk"
      (.append otherHash 0 "AQ==")).outcome = .error fileUnavailable := by
    rfl
  rw [hresult] at hrefused
  cases hrefused

end HarnessControl.Harnesses
