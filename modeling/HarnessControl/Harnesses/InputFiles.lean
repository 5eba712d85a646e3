import HarnessControl.Harnesses.Manager
import HarnessControl.Library.Base64

/-!
# Input files

Files that a conversation uploads in chunks, seals, and hands to its provider.  A file belongs to
the owners in its record; once it has been delivered it is retained until all of them have been
retired.  A record is kept in memory and as a file of its own beside the body, and the delivered
copy stands in the workspace, where anyone may change it.
-/

namespace HarnessControl.Harnesses

open HarnessControl.Library HarnessControl.Protocol HarnessControl.State

/-! ## Records -/

abbrev Bytes := List UInt8

structure InputFileScope where
  owner : String
  providerInstanceId : String
  providerBindingHash : String
  workspaceId : String
  cwd : String
deriving DecidableEq

/-- A reference without its `file_id`. -/
structure InputFileDescription where
  sha256 : String
  filename : String
  mimeType : String
  byteLength : Nat
deriving DecidableEq

structure InputFileReference extends InputFileDescription where
  fileId : String
deriving DecidableEq

structure InputFileMetadata where
  scope : InputFileScope
  owners : List String
  reference : InputFileReference
  sealed : Bool
  retained : Bool
deriving DecidableEq

inductive InputFileRequest where
  | create (description : InputFileDescription)
  | append (fileId : String) (offset : Nat) (dataBase64 : String)
  | sealUpload (fileId : String)
  | read (fileId : String)
  | release (fileId : String)
deriving DecidableEq

inductive InputFileState where
  | uploading
  | sealed
  | retained
  | released

structure InputFileResult where
  reference : InputFileReference
  receivedBytes : Nat
  state : InputFileState

structure TurnFile where
  reference : InputFileReference
  /-- The delivery is `file_context`. -/
  fileContext : Bool

structure ProjectedFile where
  filename : String
  mimeType : String
  byteLength : Nat
  sha256 : String
  path : String

inductive WorkspaceCopy where
  | regular (bytes : Bytes)
  /-- Something that is no regular file, or that stands elsewhere. -/
  | irregular
deriving DecidableEq

structure InputFileStore where
  /-- `#entries`. -/
  entries : Dict String InputFileMetadata
  /-- The records that are stored as JSON. -/
  records : Dict String InputFileMetadata
  bodies : Dict String Bytes
  copies : Dict String WorkspaceCopy

/-- What the store takes from its platform. -/
structure InputFileHost where
  sha256 : Bytes → String
  /-- The hash of the store's directory, the scope and the command. -/
  fileId : InputFileScope → String → String
  /-- The size of a record as JSON. -/
  recordBytes : InputFileMetadata → Nat
  /-- `#nativePath`. -/
  nativePath : InputFileMetadata → String

def maxFileBytes : Nat := 50 * 1024 * 1024

def maxFileCount : Nat := 100

def maxStoreBytes : Nat := maxFileBytes * maxFileCount

def chunkBytes : Nat := 64 * 1024

def maxEntries : Nat := 1024

def maxOwners : Nat := 1024

def maxRecordBytes : Nat := 1024 * 1024

/-! ## Schemas -/

def decodeBase64 (text : String) : Bytes := Base64.decodePadded text.toList

def encodeBase64 (bytes : Bytes) : String := String.ofList (Base64.encodePadded bytes)

/-- `z.string().min(1).max(255).regex(/^(?!\.{1,2}$)[^\x00-\x1f\x7f/\\]+$/)`. -/
def fileName (s : String) : Bool :=
  boundedText 255 s && s != "." && s != ".." &&
    s.toList.all fun c => decide (0x1F < c.toNat) && c.toNat != 0x7F && c != '/' && c != '\\'

def mimeChar (c : Char) : Bool := c.isAlphanum || "!#$&^_.+-".toList.contains c

/-- `z.string().regex(/^[a-zA-Z0-9!#$&^_.+-]+\/[a-zA-Z0-9!#$&^_.+-]+$/).max(255)`. -/
def mimeText (s : String) : Bool :=
  decide (s.length ≤ 255) && !(s.toList.takeWhile mimeChar).isEmpty &&
    match s.toList.dropWhile mimeChar with
    | '/' :: subtype => !subtype.isEmpty && subtype.all mimeChar
    | _ => false

/-- `harnessInputFileReferenceSchema` without the id, and without the bound of the length. -/
def InputFileDescription.valid (description : InputFileDescription) : Bool :=
  sha256Hex description.sha256 && fileName description.filename && mimeText description.mimeType

/-- `data_base64`. -/
def chunkText (s : String) : Bool :=
  decide (4 ≤ s.length) && decide (s.length ≤ 4 * ((chunkBytes + 2) / 3)) &&
    Base64.isPadded s.toList &&
    decide (s.length / 4 * 3 - (s.length - (Base64.unpadded s.toList).length) ≤ chunkBytes)

/-- `harnessInputFileOperationSchema`, the bound of the length apart. -/
def harnessInputFileOperationSchema : InputFileRequest → Bool
  | .create description => description.valid
  | .append fileId offset dataBase64 =>
    sha256Hex fileId && counter offset && chunkText dataBase64
  | .sealUpload fileId | .read fileId | .release fileId => sha256Hex fileId

/-- `scopeSchema`. -/
def scopeSchema (scope : InputFileScope) : Bool := boundedText 600 scope.owner

/-- `harnessImageFilesSchema`. -/
def harnessImageFilesSchema (files : List InputFileReference) : Bool :=
  decide (1 ≤ files.length) && decide (files.length ≤ 100) &&
    (files.all fun file => sha256Hex file.fileId && file.valid &&
      ["image/gif", "image/jpeg", "image/png", "image/webp"].contains file.mimeType &&
      decide (0 < file.byteLength) && decide (file.byteLength ≤ 10 * 1024 * 1024)) &&
    decide ((files.map fun file => file.byteLength).sum ≤ 80 * 1024 * 1024)

/-! ## Errors -/

def fileUnavailable : HarnessError :=
  ⟨"input_file_unavailable", "The file is unavailable or belongs to another conversation, " ++
    "workspace or provider identity."⟩

def commandConflict : HarnessError :=
  ⟨"input_file_command_conflict", "The original upload command has different file metadata."⟩

def fileCountQuota : HarnessError :=
  ⟨"input_file_quota", "The input store reached its bounded file count."⟩

def storeQuota : HarnessError :=
  ⟨"input_file_quota",
    "The input store is full; release unused uploads or retire idle conversations."⟩

def fileRetained : HarnessError :=
  ⟨"input_file_retained", "Delivered files are retained by native history; retire the idle " ++
    "conversation before cleanup."⟩

def chunkInvalid : HarnessError :=
  ⟨"input_file_chunk_invalid", "An input chunk must contain canonical base64 and at most 64 KiB."⟩

def chunkConflict : HarnessError :=
  ⟨"input_file_chunk_conflict", "Chunks must extend the exact upload offset; retries must " ++
    "contain identical bytes."⟩

def uploadIntegrity : HarnessError :=
  ⟨"input_file_integrity", "The complete uploaded file does not match its declared size and " ++
    "SHA-256."⟩

def sealedIntegrity : HarnessError :=
  ⟨"input_file_integrity", "A sealed input failed its integrity check."⟩

def changedIntegrity : HarnessError :=
  ⟨"input_file_integrity", "A sealed input changed before materialization."⟩

def copyIntegrity : HarnessError :=
  ⟨"input_file_integrity", "The materialized file changed after delivery."⟩

def imageIntegrity : HarnessError :=
  ⟨"input_file_integrity", "A sealed native image failed its integrity check."⟩

def deliveryUnsupported : HarnessError :=
  ⟨"input_file_delivery_unsupported", "This driver supports at most 100 file-context " ++
    "attachments; native document input is not declared."⟩

def pathInvalid : HarnessError :=
  ⟨"input_file_path_invalid", "Owned file directories must resolve to their exact regular path."⟩

def ownerLimit : HarnessError :=
  ⟨"input_file_owner_limit", "An input reached its bounded conversation ownership limit."⟩

def schemaRefused : HarnessError := ⟨"invalid_input", "Invalid input"⟩

/-! ## Parts of the operations -/

/-- A call of the store: what it leaves, and what it returns or throws. -/
structure FileCall (α : Type) where
  store : InputFileStore
  outcome : Except HarnessError α

def InputFileStore.throws {α : Type} (store : InputFileStore) (error : HarnessError) :
    FileCall α :=
  ⟨store, .error error⟩

def InputFileStore.returns {α : Type} (store : InputFileStore) (value : α) : FileCall α :=
  ⟨store, .ok value⟩

def InputFileScope.place (scope : InputFileScope) : InputFileScope := { scope with owner := "" }

/-- `#owns`. -/
def InputFileMetadata.owned (metadata : InputFileMetadata) (scope : InputFileScope) : Bool :=
  metadata.owners.contains scope.owner && metadata.scope.place == scope.place

/-- `#require`, with the body that has to be a regular file. -/
def InputFileStore.require (scope : InputFileScope) (fileId : String) (store : InputFileStore) :
    Option (InputFileMetadata × Bytes) := do
  let metadata ← (store.entries.get? fileId).filter fun metadata => metadata.owned scope
  let body ← store.bodies.get? fileId
  return (metadata, body)

/-- `#result`. -/
def InputFileMetadata.result (metadata : InputFileMetadata) (body : Bytes) : InputFileResult :=
  ⟨metadata.reference, body.length,
    if metadata.retained then .retained else if metadata.sealed then .sealed else .uploading⟩

/-- `#save`. -/
def InputFileStore.save (metadata : InputFileMetadata) (store : InputFileStore) : InputFileStore :=
  { store with
    records := store.records.set metadata.reference.fileId metadata
    entries := store.entries.set metadata.reference.fileId metadata }

/-- The declared sizes of the entries. -/
def InputFileStore.reserved (store : InputFileStore) : Nat :=
  store.entries.total fun metadata => metadata.reference.byteLength

/-- The sizes of bodies that belong to no entry. -/
def InputFileStore.orphanBytes (store : InputFileStore) : Nat :=
  (store.bodies.filter fun fileId _ => (store.entries.get? fileId).isNone).total List.length

/-- `#quota`. -/
def InputFileStore.exceeds (incoming : Nat) (store : InputFileStore) : Bool :=
  decide (maxFileBytes < incoming) ||
    decide (maxStoreBytes < store.reserved + store.orphanBytes + incoming) ||
    decide (maxEntries < store.entries.size)

/-- `#delete`, which a copy that is no regular file stops. -/
def InputFileStore.delete (metadata : InputFileMetadata) (store : InputFileStore) :
    FileCall Unit :=
  let fileId := metadata.reference.fileId
  if store.copies.get? fileId = some .irregular then store.throws fileUnavailable
  else
    let store := { store with copies := store.copies.erase fileId }
    if (store.bodies.get? fileId).isNone || (store.records.get? fileId).isNone then
      store.throws fileUnavailable
    else
      { store with
        records := store.records.erase fileId
        bodies := store.bodies.erase fileId
        entries := store.entries.erase fileId }.returns ()

/-! ## Uploads -/

def InputFileStore.create (host : InputFileHost) (scope : InputFileScope) (commandId : String)
    (description : InputFileDescription) (store : InputFileStore) : FileCall InputFileResult :=
  let fileId := host.fileId scope commandId
  match store.entries.get? fileId with
  | some existing =>
    if existing.reference.toInputFileDescription ≠ description then
      store.throws commandConflict
    else
      match store.bodies.get? fileId with
      | none => store.throws fileUnavailable
      | some body => store.returns (existing.result body)
  | none =>
    if maxEntries ≤ store.entries.size then store.throws fileCountQuota
    else if store.exceeds description.byteLength then store.throws storeQuota
    else if ¬scopeSchema scope then store.throws schemaRefused
    else
      let metadata : InputFileMetadata :=
        { scope, owners := [scope.owner]
          reference := { toInputFileDescription := description, fileId }
          sealed := false, retained := false }
      match store.bodies.get? fileId with
      | some (_ :: _) => store.throws fileUnavailable
      | _ =>
        let store := { store with bodies := store.bodies.set fileId [] }.save metadata
        store.returns (metadata.result [])

def Bytes.slice (body : Bytes) (offset length : Nat) : Bytes := (body.drop offset).take length

def InputFileStore.append (metadata : InputFileMetadata) (body : Bytes) (offset : Nat)
    (dataBase64 : String) (store : InputFileStore) : FileCall InputFileResult :=
  let bytes := decodeBase64 dataBase64
  if bytes = [] ∨ chunkBytes < bytes.length ∨ encodeBase64 bytes ≠ dataBase64 then
    store.throws chunkInvalid
  -- a retry
  else if offset + bytes.length ≤ body.length ∧ Bytes.slice body offset bytes.length = bytes then
    store.returns (metadata.result body)
  else if metadata.sealed = true ∨ offset ≠ body.length ∨
      metadata.reference.byteLength < body.length + bytes.length then
    store.throws chunkConflict
  else
    { store with
      bodies := store.bodies.set metadata.reference.fileId (body ++ bytes) }.returns
        (metadata.result (body ++ bytes))

/-- A body has the declared size and hash. -/
def InputFileReference.matches (reference : InputFileReference) (host : InputFileHost)
    (body : Bytes) : Bool :=
  body.length == reference.byteLength && host.sha256 body == reference.sha256

def InputFileStore.sealUpload (host : InputFileHost) (metadata : InputFileMetadata) (body : Bytes)
    (store : InputFileStore) : FileCall InputFileResult :=
  if maxFileBytes < body.length then store.throws fileUnavailable
  else if ¬metadata.reference.matches host body then store.throws uploadIntegrity
  else
    let metadata := { metadata with sealed := true }
    (store.save metadata).returns (metadata.result body)

def InputFileStore.release (metadata : InputFileMetadata) (store : InputFileStore) :
    FileCall InputFileResult :=
  if metadata.retained then store.throws fileRetained
  else
    let deleted := store.delete metadata
    match deleted.outcome with
    | .error error => deleted.store.throws error
    | .ok _ => deleted.store.returns ⟨metadata.reference, 0, .released⟩

/-- The file that a request other than `create` names. -/
def InputFileRequest.target : InputFileRequest → Option String
  | .create _ => none
  | .append fileId _ _ | .sealUpload fileId | .read fileId | .release fileId => some fileId

/-- `operation`. -/
def InputFileStore.operation (host : InputFileHost) (scope : InputFileScope) (commandId : String)
    (request : InputFileRequest) (store : InputFileStore) : FileCall InputFileResult :=
  if ¬harnessInputFileOperationSchema request then store.throws schemaRefused
  else
    let named (fileId : String) (perform : InputFileMetadata → Bytes → FileCall InputFileResult) :
        FileCall InputFileResult :=
      match store.require scope fileId with
      | none => store.throws fileUnavailable
      | some (metadata, body) => perform metadata body
    match request with
    | .create description =>
      if maxFileBytes < description.byteLength then store.throws schemaRefused
      else store.create host scope commandId description
    | .read fileId => named fileId fun metadata body => store.returns (metadata.result body)
    | .release fileId => named fileId fun metadata _ => store.release metadata
    | .append fileId offset dataBase64 =>
      named fileId fun metadata body => store.append metadata body offset dataBase64
    | .sealUpload fileId => named fileId fun metadata body => store.sealUpload host metadata body

/-! ## Delivery -/

/-- Why a reference cannot be delivered to a scope. -/
def InputFileStore.undeliverable (host : InputFileHost) (scope : InputFileScope)
    (integrity : HarnessError) (reference : InputFileReference) (store : InputFileStore) :
    Option HarnessError :=
  match store.require scope reference.fileId with
  | none => some fileUnavailable
  | some (metadata, body) =>
    if metadata.sealed = false ∨ reference ≠ metadata.reference then some fileUnavailable
    else if maxFileBytes < body.length then some fileUnavailable
    else if ¬reference.matches host body then some integrity
    else none

def InputFileStore.retain (metadata : InputFileMetadata) (store : InputFileStore) :
    InputFileStore :=
  store.save { metadata with retained := true }

/-- The projection of one selected file; its directories have to be regular. -/
def InputFileStore.project (host : InputFileHost) (fileId : String) (regular : Bool)
    (store : InputFileStore) : FileCall ProjectedFile :=
  match store.entries.get? fileId, store.bodies.get? fileId with
  | some metadata, some body =>
    if ¬metadata.reference.matches host body then store.throws changedIntegrity
    else if ¬regular then store.throws pathInvalid
    else
      match store.copies.get? fileId with
      | some .irregular => store.throws fileUnavailable
      | some (.regular bytes) =>
        if bytes ≠ body then store.throws copyIntegrity
        else (store.retain metadata).returns (projected metadata)
      | none =>
        { store with
          copies := store.copies.set fileId (.regular body) }.retain metadata
          |>.returns (projected metadata)
  | _, _ => store.throws fileUnavailable
where
  projected (metadata : InputFileMetadata) : ProjectedFile :=
    ⟨metadata.reference.filename, metadata.reference.mimeType, metadata.reference.byteLength,
      metadata.reference.sha256, host.nativePath metadata⟩

/-- The selected files are projected one after the other, up to the first that throws. -/
def InputFileStore.projectAll (host : InputFileHost) (regular : String → Bool) :
    List TurnFile → InputFileStore → FileCall (List ProjectedFile)
  | [], store => store.returns []
  | file :: files, store =>
    let first := store.project host file.reference.fileId (regular file.reference.fileId)
    match first.outcome with
    | .error error => first.store.throws error
    | .ok projected =>
      let rest := projectAll host regular files first.store
      ⟨rest.store, rest.outcome.map (projected :: ·)⟩

/-- `materialize`, without the text around the projected files. -/
def InputFileStore.materialize (host : InputFileHost) (scope : InputFileScope)
    (files : List TurnFile) (regular : String → Bool) (store : InputFileStore) :
    FileCall (List ProjectedFile) :=
  if maxFileCount < files.length ∨ (files.any fun file => !file.fileContext) = true then
    store.throws deliveryUnsupported
  else
    match files.findSome? fun file =>
        store.undeliverable host scope sealedIntegrity file.reference with
    | some error => store.throws error
    | none => store.projectAll host regular files

def InputFileStore.retainAll (references : List InputFileReference) (store : InputFileStore) :
    InputFileStore :=
  references.foldl (fun store reference =>
    match store.entries.get? reference.fileId with
    | none => store
    | some metadata => store.retain metadata) store

def InputFileStore.nativeImages (host : InputFileHost) (scope : InputFileScope)
    (references : List InputFileReference) (store : InputFileStore) :
    FileCall (List (InputFileReference × String)) :=
  if ¬harnessImageFilesSchema references then store.throws schemaRefused
  else
    match references.findSome? fun reference =>
        store.undeliverable host scope imageIntegrity reference with
    | some error => store.throws error
    | none =>
      (store.retainAll references).returns (references.map fun reference =>
        (reference, encodeBase64 ((store.bodies.get? reference.fileId).getD [])))

/-! ## Ownership -/

/-- `retire` of one file. -/
def InputFileStore.retireFile (scope : InputFileScope) (metadata : InputFileMetadata)
    (store : InputFileStore) : FileCall Unit :=
  let remaining := metadata.owners.filter fun owner => owner != scope.owner
  if remaining = [] then store.delete metadata
  else (store.save { metadata with owners := remaining }).returns ()

/-- The files are retired one after the other, up to the first that throws. -/
def InputFileStore.retireAll (scope : InputFileScope) :
    List InputFileMetadata → InputFileStore → FileCall Unit
  | [], store => store.returns ()
  | metadata :: rest, store =>
    if metadata.owned scope then
      let first := store.retireFile scope metadata
      match first.outcome with
      | .error error => first.store.throws error
      | .ok _ => retireAll scope rest first.store
    else retireAll scope rest store

def InputFileStore.retire (scope : InputFileScope) (store : InputFileStore) : FileCall Unit :=
  store.retireAll scope store.entries.values

/-- A history-visible file of the scope that the target does not own yet. -/
def InputFileMetadata.pinnable (metadata : InputFileMetadata) (scope : InputFileScope)
    (targetOwner : String) : Bool :=
  metadata.retained && metadata.owned scope && !metadata.owners.contains targetOwner

def InputFileStore.forkAll (scope : InputFileScope) (targetOwner : String) :
    List InputFileMetadata → InputFileStore → FileCall Unit
  | [], store => store.returns ()
  | metadata :: rest, store =>
    if metadata.pinnable scope targetOwner then
      if maxOwners ≤ metadata.owners.length then store.throws ownerLimit
      else
        forkAll scope targetOwner rest
          (store.save { metadata with owners := metadata.owners ++ [targetOwner] })
    else forkAll scope targetOwner rest store

def InputFileStore.fork (scope : InputFileScope) (targetOwner : String) (store : InputFileStore) :
    FileCall Unit :=
  if ¬boundedText 600 targetOwner then store.throws schemaRefused
  else store.forkAll scope targetOwner store.entries.values

/-! ## Opening a store -/

def InputFileMetadata.admitted (host : InputFileHost) (metadata : InputFileMetadata)
    (body : Option Bytes) : Bool :=
  decide (host.recordBytes metadata ≤ maxRecordBytes) && !metadata.owners.isEmpty &&
    decide (metadata.owners.length ≤ maxOwners) &&
    body.any fun bytes =>
      decide (bytes.length ≤ metadata.reference.byteLength) &&
        (!metadata.sealed || bytes.length == metadata.reference.byteLength)

/-- The constructor, over the files of an earlier store; `none` when it throws. -/
def InputFileStore.reopen (host : InputFileHost) (store : InputFileStore) :
    Option InputFileStore :=
  let opened := { store with entries := store.records }
  if (store.records.entries.all fun entry =>
      entry.2.admitted host (store.bodies.get? entry.1)) && !opened.exceeds 0 then
    some opened
  else none

def InputFileStore.empty : InputFileStore :=
  ⟨Dict.empty, Dict.empty, Dict.empty, Dict.empty⟩

end HarnessControl.Harnesses
