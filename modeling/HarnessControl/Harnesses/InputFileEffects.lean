import HarnessControl.Harnesses.InputFileRetention
import HarnessControl.Library.Interruption

/-!
# Effects of the file store

The calls of the store once more, each as the sequence of its assignments in memory and its changes
on disk, in the order of the code.  Carried out to its end a sequence does what the call does.
-/

namespace HarnessControl.Harnesses

open HarnessControl.Library HarnessControl.Protocol HarnessControl.State

/-! ## Effects -/

inductive FileEffect where
  /-- The shared record in memory is assigned to. -/
  | remember (metadata : InputFileMetadata)
  | forget (fileId : String)
  | createBody (fileId : String)
  | extendBody (fileId : String) (bytes : Bytes)
  | removeBody (fileId : String)
  /-- `#save`: a temporary file that takes the place of the record.  `previous` is what memory
  held before the call assigned to it. -/
  | saveRecord (previous : Option InputFileMetadata) (metadata : InputFileMetadata)
  | removeRecord (fileId : String)
  | writeCopy (fileId : String) (bytes : Bytes)
  | removeCopy (fileId : String)
  /-- The directory of the copy, when it is empty. -/
  | removeDirectory (fileId : String)

def FileEffect.stored : FileEffect → Bool
  | .remember _ | .forget _ => false
  | _ => true

def FileEffect.perform : FileEffect → InputFileStore → InputFileStore
  | .remember metadata, store =>
    { store with entries := store.entries.set metadata.reference.fileId metadata }
  | .forget fileId, store => { store with entries := store.entries.erase fileId }
  | .createBody fileId, store => { store with bodies := store.bodies.set fileId [] }
  | .extendBody fileId bytes, store =>
    { store with
      bodies := store.bodies.set fileId ((store.bodies.get? fileId).getD [] ++ bytes) }
  | .removeBody fileId, store => { store with bodies := store.bodies.erase fileId }
  | .saveRecord _ metadata, store => store.save metadata
  | .removeRecord fileId, store => { store with records := store.records.erase fileId }
  | .writeCopy fileId bytes, store =>
    { store with copies := store.copies.set fileId (.regular bytes) }
  | .removeCopy fileId, store => { store with copies := store.copies.erase fileId }
  | .removeDirectory _, store => store

/-- A body or a copy may be left with a part of its bytes, also with all of them. -/
def FileEffect.fail (part : Nat) : FileEffect → InputFileStore → InputFileStore
  | .createBody fileId, store =>
    if part = 0 then store else (FileEffect.createBody fileId).perform store
  | .extendBody fileId bytes, store =>
    (FileEffect.extendBody fileId (bytes.take part)).perform store
  | .writeCopy fileId bytes, store =>
    if part = 0 then store
    else (FileEffect.writeCopy fileId (bytes.take (part - 1))).perform store
  | _, store => store

theorem FileEffect.perform_extendBody {store : InputFileStore} {fileId : String} {body : Bytes}
    (hbody : store.bodies.get? fileId = some body) (bytes : Bytes) :
    (FileEffect.extendBody fileId bytes).perform store =
      { store with bodies := store.bodies.set fileId (body ++ bytes) } := by
  unfold FileEffect.perform
  dsimp only
  rw [hbody]
  rfl

def fileEffects : Effects FileEffect InputFileStore :=
  ⟨FileEffect.perform, FileEffect.stored, FileEffect.fail⟩

/-! ## Plans -/

/-- What a call does, and what it returns or throws. -/
structure FilePlan (α : Type) where
  trace : List FileEffect
  outcome : Except HarnessError α

namespace FilePlan

variable {α β : Type}

def throws (error : HarnessError) : FilePlan α := ⟨[], .error error⟩

def returns (value : α) : FilePlan α := ⟨[], .ok value⟩

/-- A part of a call, and what follows it unless it throws. -/
def andThen (plan : FilePlan α) (next : α → FilePlan β) : FilePlan β :=
  match plan.outcome with
  | .error error => ⟨plan.trace, .error error⟩
  | .ok value => ⟨plan.trace ++ (next value).trace, (next value).outcome⟩

/-- The store in which the plan ends. -/
def leaves (plan : FilePlan α) (store : InputFileStore) : InputFileStore :=
  fileEffects.execute plan.trace store

end FilePlan

/-- The shared record is changed in memory and then `#save`d. -/
def InputFileMetadata.replacePlan {α : Type} (metadata next : InputFileMetadata) (value : α) :
    FilePlan α :=
  ⟨[.remember next, .saveRecord (some metadata) next], .ok value⟩

/-- `#delete`. -/
def InputFileStore.deletePlan (metadata : InputFileMetadata) (store : InputFileStore) :
    FilePlan Unit :=
  let fileId := metadata.reference.fileId
  if store.copies.get? fileId = some .irregular then .throws fileUnavailable
  else
    let copy : List FileEffect :=
      if (store.copies.get? fileId).isSome then [.removeCopy fileId, .removeDirectory fileId]
      else []
    if (store.bodies.get? fileId).isNone || (store.records.get? fileId).isNone then
      ⟨copy, .error fileUnavailable⟩
    else ⟨copy ++ [.removeRecord fileId, .removeBody fileId, .forget fileId], .ok ()⟩

/-! ### Uploads -/

def InputFileStore.createPlan (host : InputFileHost) (scope : InputFileScope) (commandId : String)
    (description : InputFileDescription) (store : InputFileStore) : FilePlan InputFileResult :=
  let fileId := host.fileId scope commandId
  match store.entries.get? fileId with
  | some existing =>
    if existing.reference.toInputFileDescription ≠ description then .throws commandConflict
    else
      match store.bodies.get? fileId with
      | none => .throws fileUnavailable
      | some body => .returns (existing.result body)
  | none =>
    if maxEntries ≤ store.entries.size then .throws fileCountQuota
    else if store.exceeds description.byteLength then .throws storeQuota
    else if ¬scopeSchema scope then .throws schemaRefused
    else
      let metadata : InputFileMetadata :=
        { scope, owners := [scope.owner]
          reference := { toInputFileDescription := description, fileId }
          sealed := false, retained := false }
      match store.bodies.get? fileId with
      | some (_ :: _) => .throws fileUnavailable
      -- an empty body is left from an interrupted call
      | some [] => ⟨[.saveRecord none metadata], .ok (metadata.result [])⟩
      | none => ⟨[.createBody fileId, .saveRecord none metadata], .ok (metadata.result [])⟩

def InputFileMetadata.appendPlan (metadata : InputFileMetadata) (body : Bytes) (offset : Nat)
    (dataBase64 : String) : FilePlan InputFileResult :=
  let bytes := decodeBase64 dataBase64
  if bytes = [] ∨ chunkBytes < bytes.length ∨ encodeBase64 bytes ≠ dataBase64 then
    .throws chunkInvalid
  else if offset + bytes.length ≤ body.length ∧ Bytes.slice body offset bytes.length = bytes then
    .returns (metadata.result body)
  else if metadata.sealed = true ∨ offset ≠ body.length ∨
      metadata.reference.byteLength < body.length + bytes.length then
    .throws chunkConflict
  else
    ⟨[.extendBody metadata.reference.fileId bytes], .ok (metadata.result (body ++ bytes))⟩

def InputFileMetadata.sealPlan (host : InputFileHost) (metadata : InputFileMetadata)
    (body : Bytes) : FilePlan InputFileResult :=
  if maxFileBytes < body.length then .throws fileUnavailable
  else if ¬metadata.reference.matches host body then .throws uploadIntegrity
  else
    metadata.replacePlan { metadata with sealed := true }
      (InputFileMetadata.result { metadata with sealed := true } body)

def InputFileStore.releasePlan (metadata : InputFileMetadata) (store : InputFileStore) :
    FilePlan InputFileResult :=
  if metadata.retained then .throws fileRetained
  else (store.deletePlan metadata).andThen fun _ => .returns ⟨metadata.reference, 0, .released⟩

/-- `operation`. -/
def InputFileStore.operationPlan (host : InputFileHost) (scope : InputFileScope)
    (commandId : String) (request : InputFileRequest) (store : InputFileStore) :
    FilePlan InputFileResult :=
  if ¬harnessInputFileOperationSchema request then .throws schemaRefused
  else
    let named (fileId : String) (perform : InputFileMetadata → Bytes → FilePlan InputFileResult) :
        FilePlan InputFileResult :=
      match store.require scope fileId with
      | none => .throws fileUnavailable
      | some (metadata, body) => perform metadata body
    match request with
    | .create description =>
      if maxFileBytes < description.byteLength then .throws schemaRefused
      else store.createPlan host scope commandId description
    | .read fileId => named fileId fun metadata body => .returns (metadata.result body)
    | .release fileId => named fileId fun metadata _ => store.releasePlan metadata
    | .append fileId offset dataBase64 =>
      named fileId fun metadata body => metadata.appendPlan body offset dataBase64
    | .sealUpload fileId => named fileId fun metadata body => metadata.sealPlan host body

/-! ### Delivery -/

def InputFileMetadata.retainPlan {α : Type} (metadata : InputFileMetadata) (value : α) :
    FilePlan α :=
  metadata.replacePlan { metadata with retained := true } value

def InputFileStore.projectPlan (host : InputFileHost) (fileId : String) (regular : Bool)
    (store : InputFileStore) : FilePlan ProjectedFile :=
  match store.entries.get? fileId, store.bodies.get? fileId with
  | some metadata, some body =>
    let value := InputFileStore.project.projected host metadata
    if ¬metadata.reference.matches host body then .throws changedIntegrity
    else if ¬regular then .throws pathInvalid
    else
      match store.copies.get? fileId with
      | some .irregular => .throws fileUnavailable
      | some (.regular bytes) =>
        if bytes ≠ body then .throws copyIntegrity else metadata.retainPlan value
      | none =>
        FilePlan.andThen ⟨[.writeCopy fileId body], .ok ()⟩ fun _ => metadata.retainPlan value
  | _, _ => .throws fileUnavailable

def InputFileStore.projectAllPlan (host : InputFileHost) (regular : String → Bool) :
    List TurnFile → InputFileStore → FilePlan (List ProjectedFile)
  | [], _ => .returns []
  | file :: files, store =>
    let first := store.projectPlan host file.reference.fileId (regular file.reference.fileId)
    first.andThen fun projected =>
      let rest := projectAllPlan host regular files (first.leaves store)
      ⟨rest.trace, rest.outcome.map (projected :: ·)⟩

def InputFileStore.materializePlan (host : InputFileHost) (scope : InputFileScope)
    (files : List TurnFile) (regular : String → Bool) (store : InputFileStore) :
    FilePlan (List ProjectedFile) :=
  if maxFileCount < files.length ∨ (files.any fun file => !file.fileContext) = true then
    .throws deliveryUnsupported
  else
    match files.findSome? fun file =>
        store.undeliverable host scope sealedIntegrity file.reference with
    | some error => .throws error
    | none => store.projectAllPlan host regular files

def InputFileStore.retainAllTrace : List InputFileReference → InputFileStore → List FileEffect
  | [], _ => []
  | reference :: references, store =>
    match store.entries.get? reference.fileId with
    | none => retainAllTrace references store
    | some metadata =>
      (metadata.retainPlan ()).trace ++
        retainAllTrace references ((metadata.retainPlan ()).leaves store)

def InputFileStore.nativeImagesPlan (host : InputFileHost) (scope : InputFileScope)
    (references : List InputFileReference) (store : InputFileStore) :
    FilePlan (List (InputFileReference × String)) :=
  if ¬harnessImageFilesSchema references then .throws schemaRefused
  else
    match references.findSome? fun reference =>
        store.undeliverable host scope imageIntegrity reference with
    | some error => .throws error
    | none =>
      ⟨store.retainAllTrace references, .ok (references.map fun reference =>
        (reference, encodeBase64 ((store.bodies.get? reference.fileId).getD [])))⟩

/-! ### Ownership -/

def InputFileStore.retireFilePlan (scope : InputFileScope) (metadata : InputFileMetadata)
    (store : InputFileStore) : FilePlan Unit :=
  let remaining := metadata.owners.filter fun owner => owner != scope.owner
  if remaining = [] then store.deletePlan metadata
  else metadata.replacePlan { metadata with owners := remaining } ()

def InputFileStore.retireAllPlan (scope : InputFileScope) :
    List InputFileMetadata → InputFileStore → FilePlan Unit
  | [], _ => .returns ()
  | metadata :: rest, store =>
    if metadata.owned scope then
      let first := store.retireFilePlan scope metadata
      first.andThen fun _ => retireAllPlan scope rest (first.leaves store)
    else retireAllPlan scope rest store

def InputFileStore.retirePlan (scope : InputFileScope) (store : InputFileStore) : FilePlan Unit :=
  store.retireAllPlan scope store.entries.values

def InputFileStore.forkAllPlan (scope : InputFileScope) (targetOwner : String) :
    List InputFileMetadata → InputFileStore → FilePlan Unit
  | [], _ => .returns ()
  | metadata :: rest, store =>
    if metadata.pinnable scope targetOwner then
      if maxOwners ≤ metadata.owners.length then .throws ownerLimit
      else
        let first := metadata.replacePlan
          { metadata with owners := metadata.owners ++ [targetOwner] } ()
        first.andThen fun _ => forkAllPlan scope targetOwner rest (first.leaves store)
    else forkAllPlan scope targetOwner rest store

def InputFileStore.forkPlan (scope : InputFileScope) (targetOwner : String)
    (store : InputFileStore) : FilePlan Unit :=
  if ¬boundedText 600 targetOwner then .throws schemaRefused
  else store.forkAllPlan scope targetOwner store.entries.values

/-! ## Plans and calls -/

variable {α β : Type} {host : InputFileHost} {scope : InputFileScope} {store : InputFileStore}
  {fileId : String} {metadata next : InputFileMetadata}

structure FilePlan.Does (plan : FilePlan α) (store : InputFileStore) (call : FileCall α) :
    Prop where
  store : plan.leaves store = call.store
  outcome : plan.outcome = call.outcome

theorem FilePlan.throws_does (store : InputFileStore) (error : HarnessError) :
    (FilePlan.throws error : FilePlan α).Does store (store.throws error) := ⟨rfl, rfl⟩

theorem FilePlan.returns_does (store : InputFileStore) (value : α) :
    (FilePlan.returns value).Does store (store.returns value) := ⟨rfl, rfl⟩

theorem InputFileMetadata.replacePlan_does (store : InputFileStore)
    (metadata next : InputFileMetadata) (value : α) :
    (metadata.replacePlan next value).Does store ((store.save next).returns value) := by
  constructor
  · change InputFileStore.save next { store with
      entries := store.entries.set next.reference.fileId next } = store.save next
    unfold InputFileStore.save
    dsimp only
    rw [Dict.set_set]
  · rfl

variable {next : α → FilePlan β}

theorem FilePlan.andThen_leaves {plan : FilePlan α} {value : α}
    (h : plan.outcome = .ok value) :
    (plan.andThen next).leaves store = (next value).leaves (plan.leaves store) := by
  unfold FilePlan.andThen
  rw [h]
  exact Effects.execute_append

theorem FilePlan.andThen_outcome {plan : FilePlan α} {value : α}
    (h : plan.outcome = .ok value) : (plan.andThen next).outcome = (next value).outcome := by
  unfold FilePlan.andThen
  rw [h]

theorem FilePlan.andThen_throws {plan : FilePlan α} {error : HarnessError}
    (h : plan.outcome = .error error) :
    plan.andThen next = ⟨plan.trace, .error error⟩ := by
  unfold FilePlan.andThen
  rw [h]

theorem InputFileStore.deletePlan_does (store : InputFileStore) (metadata : InputFileMetadata) :
    (store.deletePlan metadata).Does store (store.delete metadata) := by
  unfold InputFileStore.deletePlan InputFileStore.delete
  dsimp only
  split
  · exact FilePlan.throws_does store _
  · -- a copy that is not there is not removed
    cases hcopy : store.copies.get? metadata.reference.fileId with
    | none =>
      rw [Dict.erase_of_none hcopy]
      split
      · exact ⟨rfl, rfl⟩
      · exact ⟨rfl, rfl⟩
    | some copy =>
      split
      · exact ⟨rfl, rfl⟩
      · exact ⟨rfl, rfl⟩

theorem InputFileStore.createPlan_does (store : InputFileStore) (host : InputFileHost)
    (scope : InputFileScope) (commandId : String) (description : InputFileDescription) :
    (store.createPlan host scope commandId description).Does store
      (store.create host scope commandId description) := by
  unfold InputFileStore.createPlan InputFileStore.create
  dsimp only
  cases store.entries.get? (host.fileId scope commandId) with
  | some existing =>
    dsimp only
    split
    · exact FilePlan.throws_does store _
    · cases store.bodies.get? (host.fileId scope commandId) with
      | none => exact FilePlan.throws_does store _
      | some body => exact FilePlan.returns_does store _
  | none =>
    dsimp only
    split
    · exact FilePlan.throws_does store _
    · split
      · exact FilePlan.throws_does store _
      · split
        · exact FilePlan.throws_does store _
        · cases hbody : store.bodies.get? (host.fileId scope commandId) with
          | none => exact ⟨rfl, rfl⟩
          | some body =>
            cases body with
            | nil =>
              constructor
              · dsimp only
                rw [Dict.set_get? hbody]
                rfl
              · rfl
            | cons byte rest => exact FilePlan.throws_does store _

theorem InputFileMetadata.appendPlan_does {body : Bytes}
    (hbody : store.bodies.get? metadata.reference.fileId = some body) (offset : Nat)
    (dataBase64 : String) :
    (metadata.appendPlan body offset dataBase64).Does store
      (store.append metadata body offset dataBase64) := by
  unfold InputFileMetadata.appendPlan InputFileStore.append
  dsimp only
  split
  · exact FilePlan.throws_does store _
  · split
    · exact FilePlan.returns_does store _
    · split
      · exact FilePlan.throws_does store _
      · exact ⟨FileEffect.perform_extendBody hbody _, rfl⟩

theorem InputFileMetadata.sealPlan_does (store : InputFileStore) (host : InputFileHost)
    (metadata : InputFileMetadata) (body : Bytes) :
    (metadata.sealPlan host body).Does store (store.sealUpload host metadata body) := by
  unfold InputFileMetadata.sealPlan InputFileStore.sealUpload
  split
  · exact FilePlan.throws_does store _
  · split
    · exact FilePlan.throws_does store _
    · exact InputFileMetadata.replacePlan_does store metadata _ _

theorem InputFileStore.releasePlan_does (store : InputFileStore) (metadata : InputFileMetadata) :
    (store.releasePlan metadata).Does store (store.release metadata) := by
  have hdelete := store.deletePlan_does metadata
  unfold InputFileStore.releasePlan InputFileStore.release
  split
  · exact FilePlan.throws_does store _
  · dsimp only
    rw [← hdelete.outcome]
    cases houtcome : (store.deletePlan metadata).outcome with
    | error error =>
      rw [FilePlan.andThen_throws houtcome]
      exact ⟨hdelete.store, rfl⟩
    | ok _ =>
      constructor
      · rw [FilePlan.andThen_leaves houtcome]
        exact hdelete.store
      · rw [FilePlan.andThen_outcome houtcome]
        rfl

theorem InputFileStore.operationPlan_does (hsound : store.Sound host) (scope : InputFileScope)
    (commandId : String) (request : InputFileRequest) :
    (store.operationPlan host scope commandId request).Does store
      (store.operation host scope commandId request) := by
  unfold InputFileStore.operationPlan InputFileStore.operation
  split
  · exact FilePlan.throws_does store _
  · cases request with
    | create description =>
      dsimp only
      split
      · exact FilePlan.throws_does store _
      · exact store.createPlan_does host scope commandId description
    | append fileId offset dataBase64 =>
      dsimp only
      cases hrequire : store.require scope fileId with
      | none => exact FilePlan.throws_does store _
      | some found =>
        rcases found with ⟨metadata, body⟩
        rcases InputFileStore.require_eq_some.mp hrequire with ⟨hentry, -, hbody⟩
        apply InputFileMetadata.appendPlan_does
        rw [hsound.keyed fileId metadata hentry]
        exact hbody
    | sealUpload fileId =>
      dsimp only
      cases store.require scope fileId with
      | none => exact FilePlan.throws_does store _
      | some found => exact InputFileMetadata.sealPlan_does store host _ _
    | read fileId =>
      dsimp only
      cases store.require scope fileId with
      | none => exact FilePlan.throws_does store _
      | some found => exact FilePlan.returns_does store _
    | release fileId =>
      dsimp only
      cases store.require scope fileId with
      | none => exact FilePlan.throws_does store _
      | some found => exact store.releasePlan_does _

/-! ### Delivery -/

theorem InputFileStore.projectPlan_does (store : InputFileStore) (host : InputFileHost)
    (fileId : String) (regular : Bool) :
    (store.projectPlan host fileId regular).Does store (store.project host fileId regular) := by
  unfold InputFileStore.projectPlan InputFileStore.project
  cases store.entries.get? fileId with
  | none => exact FilePlan.throws_does store _
  | some metadata =>
    cases store.bodies.get? fileId with
    | none => exact FilePlan.throws_does store _
    | some body =>
      dsimp only
      split
      · exact FilePlan.throws_does store _
      · split
        · exact FilePlan.throws_does store _
        · cases store.copies.get? fileId with
          | none =>
            have hretain := InputFileMetadata.replacePlan_does
              { store with copies := store.copies.set fileId (.regular body) } metadata
              { metadata with retained := true }
              (InputFileStore.project.projected host metadata)
            exact ⟨hretain.store, hretain.outcome⟩
          | some copy =>
            cases copy with
            | irregular => exact FilePlan.throws_does store _
            | regular bytes =>
              dsimp only
              split
              · exact FilePlan.throws_does store _
              · exact InputFileMetadata.replacePlan_does store _ _ _

theorem InputFileStore.projectAllPlan_does (host : InputFileHost) (regular : String → Bool)
    (files : List TurnFile) (store : InputFileStore) :
    (store.projectAllPlan host regular files).Does store (store.projectAll host regular files) := by
  induction files generalizing store with
  | nil => exact FilePlan.returns_does store _
  | cons file files ih =>
    have hfirst := store.projectPlan_does host file.reference.fileId
      (regular file.reference.fileId)
    unfold InputFileStore.projectAllPlan InputFileStore.projectAll
    dsimp only
    rw [← hfirst.outcome, ← hfirst.store]
    cases houtcome : (store.projectPlan host file.reference.fileId
        (regular file.reference.fileId)).outcome with
    | error error =>
      rw [FilePlan.andThen_throws houtcome]
      exact ⟨rfl, rfl⟩
    | ok projected =>
      have hrest := ih ((store.projectPlan host file.reference.fileId
        (regular file.reference.fileId)).leaves store)
      constructor
      · rw [FilePlan.andThen_leaves houtcome]
        exact hrest.store
      · rw [FilePlan.andThen_outcome houtcome]
        exact congrArg (Except.map (projected :: ·)) hrest.outcome

theorem InputFileStore.materializePlan_does (store : InputFileStore) (host : InputFileHost)
    (scope : InputFileScope) (files : List TurnFile) (regular : String → Bool) :
    (store.materializePlan host scope files regular).Does store
      (store.materialize host scope files regular) := by
  unfold InputFileStore.materializePlan InputFileStore.materialize
  split
  · exact FilePlan.throws_does store _
  · cases files.findSome? _ with
    | some error => exact FilePlan.throws_does store _
    | none => exact InputFileStore.projectAllPlan_does host regular files store

theorem InputFileStore.retainAllTrace_does (references : List InputFileReference)
    (store : InputFileStore) :
    fileEffects.execute (store.retainAllTrace references) store = store.retainAll references := by
  induction references generalizing store with
  | nil => rfl
  | cons reference references ih =>
    unfold InputFileStore.retainAllTrace InputFileStore.retainAll
    rw [List.foldl_cons]
    cases hentry : store.entries.get? reference.fileId with
    | none => exact ih store
    | some metadata =>
      have hretain := InputFileMetadata.replacePlan_does store metadata
        { metadata with retained := true } ()
      dsimp only
      rw [Effects.execute_append]
      change fileEffects.execute _ ((metadata.retainPlan ()).leaves store) = _
      rw [ih]
      exact congrArg (InputFileStore.retainAll references) hretain.store

theorem InputFileStore.nativeImagesPlan_does (store : InputFileStore) (host : InputFileHost)
    (scope : InputFileScope) (references : List InputFileReference) :
    (store.nativeImagesPlan host scope references).Does store
      (store.nativeImages host scope references) := by
  unfold InputFileStore.nativeImagesPlan InputFileStore.nativeImages
  split
  · exact FilePlan.throws_does store _
  · cases references.findSome? _ with
    | some error => exact FilePlan.throws_does store _
    | none => exact ⟨InputFileStore.retainAllTrace_does references store, rfl⟩

/-! ### Ownership -/

theorem InputFileStore.retireFilePlan_does (store : InputFileStore) (scope : InputFileScope)
    (metadata : InputFileMetadata) :
    (store.retireFilePlan scope metadata).Does store (store.retireFile scope metadata) := by
  unfold InputFileStore.retireFilePlan InputFileStore.retireFile
  dsimp only
  split
  · exact store.deletePlan_does metadata
  · exact InputFileMetadata.replacePlan_does store metadata _ ()

theorem InputFileStore.retireAllPlan_does (scope : InputFileScope)
    (files : List InputFileMetadata) (store : InputFileStore) :
    (store.retireAllPlan scope files).Does store (store.retireAll scope files) := by
  induction files generalizing store with
  | nil => exact FilePlan.returns_does store _
  | cons metadata rest ih =>
    have hfirst := store.retireFilePlan_does scope metadata
    unfold InputFileStore.retireAllPlan InputFileStore.retireAll
    split
    · dsimp only
      rw [← hfirst.outcome, ← hfirst.store]
      cases houtcome : (store.retireFilePlan scope metadata).outcome with
      | error error =>
        rw [FilePlan.andThen_throws houtcome]
        exact ⟨rfl, rfl⟩
      | ok _ =>
        have hrest := ih ((store.retireFilePlan scope metadata).leaves store)
        constructor
        · rw [FilePlan.andThen_leaves houtcome]
          exact hrest.store
        · rw [FilePlan.andThen_outcome houtcome]
          exact hrest.outcome
    · exact ih store

theorem InputFileStore.forkAllPlan_does (scope : InputFileScope) (targetOwner : String)
    (files : List InputFileMetadata) (store : InputFileStore) :
    (store.forkAllPlan scope targetOwner files).Does store
      (store.forkAll scope targetOwner files) := by
  induction files generalizing store with
  | nil => exact FilePlan.returns_does store _
  | cons metadata rest ih =>
    unfold InputFileStore.forkAllPlan InputFileStore.forkAll
    split
    · split
      · exact FilePlan.throws_does store _
      · have hfirst := InputFileMetadata.replacePlan_does store metadata
          { metadata with owners := metadata.owners ++ [targetOwner] } ()
        have hrest := ih (store.save
          { metadata with owners := metadata.owners ++ [targetOwner] })
        have hleaves := hfirst.store
        change FilePlan.leaves _ store = store.save _ at hleaves
        dsimp only
        rw [hleaves]
        constructor
        · rw [FilePlan.andThen_leaves rfl, hleaves]
          exact hrest.store
        · exact hrest.outcome
    · exact ih store

theorem InputFileStore.forkPlan_does (store : InputFileStore) (scope : InputFileScope)
    (targetOwner : String) :
    (store.forkPlan scope targetOwner).Does store (store.fork scope targetOwner) := by
  unfold InputFileStore.forkPlan InputFileStore.fork
  split
  · exact FilePlan.throws_does store _
  · exact InputFileStore.forkAllPlan_does scope targetOwner _ store

/-! ## Attempts -/

/-- The effects of a call; a restart and a change in the workspace have none. -/
def InputFileStore.trace (host : InputFileHost) (store : InputFileStore) :
    InputFileAction → List FileEffect
  | .operation scope commandId request => (store.operationPlan host scope commandId request).trace
  | .materialize scope files regular => (store.materializePlan host scope files regular).trace
  | .nativeImages scope references => (store.nativeImagesPlan host scope references).trace
  | .retire scope => (store.retirePlan scope).trace
  | .fork scope targetOwner => (store.forkPlan scope targetOwner).trace
  | .restart | .tamper _ _ => []

/-- A step of a run that may be interrupted. -/
structure FileAttempt where
  action : InputFileAction
  failure : Option Failure

def InputFileStore.attempt (host : InputFileHost) (store : InputFileStore)
    (attempt : FileAttempt) : InputFileStore :=
  match attempt.action with
  | .restart => (store.reopen host).getD store
  | .tamper fileId copy => { store with copies := store.copies.restore fileId copy }
  | action => fileEffects.attempt attempt.failure (store.trace host action) store

theorem InputFileStore.attempt_uninterrupted {run : InputFileRun} (hsound : run.store.Sound host)
    (action : InputFileAction) :
    run.store.attempt host ⟨action, none⟩ = (run.step host action).store := by
  cases action with
  | operation scope commandId request =>
    rw [InputFileRun.step_operation]
    exact (InputFileStore.operationPlan_does hsound scope commandId request).store
  | materialize scope files regular =>
    exact (run.store.materializePlan_does host scope files regular).store
  | nativeImages scope references =>
    exact (run.store.nativeImagesPlan_does host scope references).store
  | retire scope => exact (InputFileStore.retireAllPlan_does scope _ run.store).store
  | fork scope targetOwner => exact (run.store.forkPlan_does scope targetOwner).store
  | restart =>
    unfold InputFileStore.attempt InputFileRun.step
    dsimp only
    cases run.store.reopen host with
    | none => rfl
    | some opened => rfl
  | tamper fileId copy => rfl

/-- A run in which nothing fails is one of the plain store. -/
theorem uninterrupted_run (host : InputFileHost) (actions : List InputFileAction) :
    run (InputFileStore.attempt host) InputFileStore.empty
        (actions.map fun action => ⟨action, none⟩) =
      (run (InputFileRun.step host) InputFileRun.empty actions).store := by
  have hall : ∀ start : InputFileRun, start.Tracks host →
      run (InputFileStore.attempt host) start.store (actions.map fun action => ⟨action, none⟩) =
        (run (InputFileRun.step host) start actions).store := by
    induction actions with
    | nil => exact fun _ _ => rfl
    | cons action rest ih =>
      intro start h
      rw [List.map_cons, run_cons, run_cons, InputFileStore.attempt_uninterrupted h.sound]
      exact ih _ (h.step action)
  exact hall InputFileRun.empty InputFileRun.Tracks.empty

end HarnessControl.Harnesses
