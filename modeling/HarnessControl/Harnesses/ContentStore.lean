import HarnessControl.Library.Dict
import HarnessControl.Library.Utf8
import HarnessControl.Protocol.Json

/-!
# The content store

Bodies that are too large for an event are kept for a day, in memory or as two files each in a
directory.  The store opens whatever it finds there, and makes room before it takes a new body.
-/

namespace HarnessControl.Harnesses

open HarnessControl.Library HarnessControl.Protocol

/-! ## References -/

structure ContentScope where
  sessionId : String
  providerInstanceId : String
  providerBindingHash : String
  workspaceId : String
  cwd : String

inductive ContentFormat where
  | text
  | json
deriving DecidableEq

structure ContentReference where
  contentId : String
  sha256 : String
  byteLength : Nat
  format : ContentFormat
  /-- In milliseconds. -/
  expiresAt : Int

structure ContentMetadata where
  scope : ContentScope
  reference : ContentReference

def contentMaxBytes : Nat := 128 * 1024 * 1024

def contentStoreMaxBytes : Nat := 512 * 1024 * 1024

/-- A date that is written with a year of four digits. -/
def datetime (time : Int) : Bool :=
  decide (-62167219200000 ≤ time) && decide (time ≤ 253402300799999)

/-- `harnessContentReferenceSchema`. -/
def contentReferenceSchema (reference : ContentReference) : Bool :=
  sha256Hex reference.contentId && sha256Hex reference.sha256 &&
    decide (reference.byteLength ≤ contentMaxBytes) && datetime reference.expiresAt

/-- `limits`, as the constructor accepts them. -/
structure ContentLimits where
  maxObjectBytes : Nat
  maxTotalBytes : Nat
  object_pos : 1 ≤ maxObjectBytes
  object_le : maxObjectBytes ≤ contentMaxBytes
  object_le_total : maxObjectBytes ≤ maxTotalBytes
  total_le : maxTotalBytes ≤ contentStoreMaxBytes

inductive ContentError where
  | invalid
  | tooLarge
  | rangeInvalid
  | offsetExceeds
  | unknownReference
  | notOwned
  | unavailable
  | integrity
  /-- The schema of the metadata refused it. -/
  | schema
  | writeFailed

/-- The code and the message of a `HarnessAdapterError`. -/
def ContentError.text : ContentError → Option (String × String)
  | invalid => some ("content_invalid", "Retained content must be text or serializable JSON.")
  | tooLarge => some ("content_limit",
    "Native content exceeds the declared object retention limit.")
  | rangeInvalid => some ("content_range_invalid",
    "Content chunks require a valid byte offset and a limit of at most 64 KiB.")
  | offsetExceeds => some ("content_range_invalid", "Content offset exceeds its length.")
  | unknownReference => some ("content_unavailable", "Unknown content reference.")
  | notOwned => some ("content_unavailable",
    "Content reference is unknown, expired, evicted or belongs to another session.")
  | unavailable => some ("content_unavailable", "Retained content is unavailable.")
  | integrity => some ("content_integrity", "Retained content failed its integrity check.")
  | schema => none
  | writeFailed => none

/-! ## The store -/

structure DiskFile (Stamp : Type) where
  bytes : List UInt8
  symbolicLink : Bool
  links : Nat
  /-- Device, inode and the times of the last changes. -/
  stamp : Stamp

variable {Stamp : Type}

/-- What `verifiedDiskSignature` is compared with. -/
def DiskFile.signature (file : DiskFile Stamp) : Nat × Stamp := (file.bytes.length, file.stamp)

structure ContentEntry (Stamp : Type) where
  metadata : ContentMetadata
  /-- The body, where the store has no directory. -/
  bytes : Option (List UInt8)
  verifiedDiskSignature : Option (Nat × Stamp)

namespace ContentEntry

def byteLength (entry : ContentEntry Stamp) : Nat := entry.metadata.reference.byteLength

def expiresAt (entry : ContentEntry Stamp) : Int := entry.metadata.reference.expiresAt

end ContentEntry

structure ContentStore (Stamp : Type) where
  entries : Dict String (ContentEntry Stamp)
  /-- The files of the directory, if there is one. -/
  directory : Option (Dict String (DiskFile Stamp))
  now : Int

def binFile (id : String) : String := id ++ ".bin"

def jsonFile (id : String) : String := id ++ ".json"

namespace ContentStore

/-- `unlinkSync` of both files, where they exist. -/
def removeFiles (id : String) (store : ContentStore Stamp) : ContentStore Stamp :=
  { store with
    directory := store.directory.map fun files =>
      (files.erase (jsonFile id)).erase (binFile id) }

/-- The entries from the one that expires first to the one that expires last. -/
def expiryOrder (entries : Dict String (ContentEntry Stamp)) : List (String × ContentEntry Stamp) :=
  entries.entries.mergeSort fun a b => decide (a.2.expiresAt ≤ b.2.expiresAt)

section

variable (limits : ContentLimits)

/-- The loop of `#prune`. -/
def pruneSorted (incoming : Nat) :
    List (String × ContentEntry Stamp) → Nat → ContentStore Stamp → ContentStore Stamp
  | [], _, store => store
  | (id, entry) :: rest, size, store =>
    if store.now < entry.expiresAt ∧ size + incoming ≤ limits.maxTotalBytes ∧
        store.entries.size < 1024 then pruneSorted incoming rest size store
    else
      pruneSorted incoming rest (size - entry.byteLength)
        (removeFiles id { store with entries := store.entries.erase id })

/-- `#prune`. -/
def prune (incoming : Nat) (store : ContentStore Stamp) : ContentStore Stamp :=
  pruneSorted limits incoming (expiryOrder store.entries)
    (store.entries.total ContentEntry.byteLength) store

/-! ## The constructor -/

def objectId? (suffix file : String) : Option String :=
  let id := String.ofList (file.toList.take 64)
  if sha256Hex id ∧ file.toList.drop 64 = '.' :: suffix.toList then some id else none

/-- `JSON.parse` with the fields of the metadata, and `metadataSchema`. -/
def readMetadata (parse : List UInt8 → Option ContentMetadata) (bytes : List UInt8) :
    Option ContentMetadata :=
  (parse bytes).bind fun metadata =>
    if contentReferenceSchema metadata.reference then some metadata else none

def usable (parse : List UInt8 → Option ContentMetadata) (files : Dict String (DiskFile Stamp))
    (file : String × DiskFile Stamp) : Option ContentMetadata :=
  match objectId? "json" file.1 with
  | none => none
  | some _ =>
    match readMetadata parse file.2.bytes with
    | none => none
    | some metadata =>
      if file.1 ≠ jsonFile metadata.reference.contentId then none
      else
        match files.get? (binFile metadata.reference.contentId) with
        | none => none
        | some body =>
          if body.bytes.length = metadata.reference.byteLength then some metadata else none

def loadFile (parse : List UInt8 → Option ContentMetadata) (files : Dict String (DiskFile Stamp))
    (entries : Dict String (ContentEntry Stamp)) (file : String × DiskFile Stamp) :
    Dict String (ContentEntry Stamp) :=
  match usable parse files file with
  | none => entries
  | some metadata => entries.set metadata.reference.contentId ⟨metadata, none, none⟩

def loadEntries (parse : List UInt8 → Option ContentMetadata)
    (files : Dict String (DiskFile Stamp)) : Dict String (ContentEntry Stamp) :=
  files.entries.foldl (loadFile parse files) Dict.empty

/-- The file is half of an object that is not usable. -/
def orphan (entries : Dict String (ContentEntry Stamp)) (file : String) : Bool :=
  ((objectId? "json" file).or (objectId? "bin" file)).any fun id => (entries.get? id).isNone

/-- The store of a directory, or of none. -/
def construct (parse : List UInt8 → Option ContentMetadata)
    (directory : Option (Dict String (DiskFile Stamp))) (now : Int) : ContentStore Stamp :=
  match directory with
  | none => ⟨.empty, none, now⟩
  | some files =>
    let entries := loadEntries parse files
    prune limits 0 ⟨entries, some (files.filter fun file _ => !orphan entries file), now⟩

/-! ## Publishing -/

/-- What `publish` encodes: a text, a value as JSON, or a value that has no JSON. -/
inductive ContentValue where
  | text (bytes : List UInt8)
  | json (bytes : List UInt8)
  | unserializable

def ContentValue.encoded : ContentValue → Option (ContentFormat × List UInt8)
  | text bytes => some (.text, bytes)
  | json bytes => some (.json, bytes)
  | unserializable => none

/-- `writeFileSync`, on a file that may exist. -/
def writeFile (file : String) (bytes : List UInt8) (stamp : Stamp)
    (files : Dict String (DiskFile Stamp)) : Dict String (DiskFile Stamp) :=
  match files.get? file with
  | none => files.set file ⟨bytes, false, 1, stamp⟩
  | some existing => files.set file { existing with bytes := bytes, stamp := stamp }

/-- How a publication goes: the id it draws, and whether and when its files are written. -/
structure Publication (Stamp : Type) where
  uuid : String
  written : Bool
  stamp : Stamp

structure ContentHost where
  sha256 : List UInt8 → String
  parse : List UInt8 → Option ContentMetadata
  stringify : ContentMetadata → List UInt8

variable (host : ContentHost)

/-- `createHash("sha256").update(session_id).update(randomUUID())`. -/
def drawnId (scope : ContentScope) (uuid : String) : String :=
  host.sha256 (Utf8.encode scope.sessionId.toList ++ Utf8.encode uuid.toList)

def publish (scope : ContentScope) (value : ContentValue) (publication : Publication Stamp)
    (store : ContentStore Stamp) : ContentStore Stamp × Except ContentError ContentReference :=
  match value.encoded with
  | none => (store, .error .invalid)
  | some (format, bytes) =>
    if limits.maxObjectBytes < bytes.length then (store, .error .tooLarge)
    else
      let pruned := prune limits bytes.length store
      let contentId := drawnId host scope publication.uuid
      let reference : ContentReference :=
        ⟨contentId, host.sha256 bytes, bytes.length, format, store.now + 24 * 60 * 60000⟩
      let metadata : ContentMetadata := ⟨scope, reference⟩
      if !contentReferenceSchema reference then (pruned, .error .schema)
      else
        match pruned.directory with
        | none =>
          ({ pruned with entries := pruned.entries.set contentId ⟨metadata, some bytes, none⟩ },
            .ok reference)
        | some files =>
          if !publication.written then (removeFiles contentId pruned, .error .writeFailed)
          else
            ({ pruned with
                entries := pruned.entries.set contentId ⟨metadata, none, none⟩
                directory := some (writeFile (jsonFile contentId) (host.stringify metadata)
                  publication.stamp (writeFile (binFile contentId) bytes publication.stamp
                    files)) }, .ok reference)

/-! ## Reading -/

structure ContentChunk where
  reference : ContentReference
  offset : Nat
  /-- The bytes that `data_base64` encodes. -/
  data : List UInt8
  nextOffset : Option Nat

/-- `#require`. -/
def require (sessionId contentId : String) (store : ContentStore Stamp) :
    Except ContentError (ContentEntry Stamp) :=
  if !sha256Hex contentId then .error .unknownReference
  else
    match store.entries.get? contentId with
    | none => .error .notOwned
    | some entry =>
      if entry.metadata.scope.sessionId ≠ sessionId ∨ entry.expiresAt ≤ store.now then
        .error .notOwned
      else .ok entry

def scope (sessionId contentId : String) (store : ContentStore Stamp) :
    Except ContentError ContentScope :=
  (store.require sessionId contentId).map fun entry => entry.metadata.scope

def chunkOf (reference : ContentReference) (bytes : List UInt8) (offset limit : Nat) :
    ContentChunk :=
  let last := min reference.byteLength (offset + limit)
  ⟨reference, offset, (bytes.drop offset).take (last - offset),
    if last < reference.byteLength then some last else none⟩

/-- The file of a body, opened and verified, with the entry that remembers that. -/
def verify [DecidableEq Stamp] (sha256 : List UInt8 → String) (contentId : String)
    (entry : ContentEntry Stamp) (directory : Option (Dict String (DiskFile Stamp))) :
    Except ContentError (List UInt8 × ContentEntry Stamp) :=
  match directory.bind fun files => files.get? (binFile contentId) with
  | none => .error .unavailable
  | some file =>
    if file.symbolicLink then .error .unavailable
    else if file.links ≠ 1 ∨ file.bytes.length ≠ entry.byteLength then .error .integrity
    else if entry.verifiedDiskSignature = some file.signature then .ok (file.bytes, entry)
    else if sha256 file.bytes ≠ entry.metadata.reference.sha256 then .error .integrity
    else .ok (file.bytes, { entry with verifiedDiskSignature := some file.signature })

def read [DecidableEq Stamp] (sessionId contentId : String) (offset limit : Int)
    (store : ContentStore Stamp) : ContentStore Stamp × Except ContentError ContentChunk :=
  if offset < 0 ∨ limit < 1 ∨ 64 * 1024 < limit then (store, .error .rangeInvalid)
  else
    match store.require sessionId contentId with
    | .error error => (store, .error error)
    | .ok entry =>
      let reference := entry.metadata.reference
      if reference.byteLength < offset then (store, .error .offsetExceeds)
      else
        match entry.bytes with
        | some bytes => (store, .ok (chunkOf reference bytes offset.toNat limit.toNat))
        | none =>
          match verify host.sha256 contentId entry store.directory with
          | .error error => (store, .error error)
          | .ok (bytes, verified) =>
            ({ store with entries := store.entries.set contentId verified },
              .ok (chunkOf reference bytes offset.toNat limit.toNat))

end

end ContentStore

end HarnessControl.Harnesses
