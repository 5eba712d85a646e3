import HarnessControl.Harnesses.InputFileCalls

/-!
# Runs of the file store

Any calls of any scopes, with restarts and with writes to the workspace in between.  A run also
remembers the chunks by which each upload grew and the requests that were accepted for it; a new
upload under the id of a deleted file starts over.
-/

namespace HarnessControl.Harnesses

open HarnessControl.Library HarnessControl.Protocol HarnessControl.State

/-! ## Runs -/

/-- A request to create, extend or seal an upload, with the file it was accepted for. -/
structure UploadRequest where
  scope : InputFileScope
  commandId : String
  request : InputFileRequest
  fileId : String
deriving DecidableEq

structure InputFileRun where
  store : InputFileStore
  chunks : Dict String (List Bytes)
  accepted : List UploadRequest

inductive InputFileAction where
  | operation (scope : InputFileScope) (commandId : String) (request : InputFileRequest)
  | materialize (scope : InputFileScope) (files : List TurnFile) (regular : String → Bool)
  | nativeImages (scope : InputFileScope) (references : List InputFileReference)
  | retire (scope : InputFileScope)
  | fork (scope : InputFileScope) (targetOwner : String)
  /-- The process ends, and a new one opens the directory. -/
  | restart
  /-- Something else writes or removes a copy in the workspace. -/
  | tamper (fileId : String) (copy : Option WorkspaceCopy)

def InputFileAction.scope? : InputFileAction → Option InputFileScope
  | .operation scope _ _ | .materialize scope _ _ | .nativeImages scope _ | .retire scope
  | .fork scope _ => some scope
  | .restart | .tamper _ _ => none

def InputFileRun.accept (scope : InputFileScope) (commandId : String)
    (request : InputFileRequest) (result : InputFileResult) (store : InputFileStore)
    (run : InputFileRun) : InputFileRun :=
  let fileId := result.reference.fileId
  let upload : UploadRequest := ⟨scope, commandId, request, fileId⟩
  match request with
  | .create _ =>
    if (run.store.entries.get? fileId).isSome then
      { run with store, accepted := run.accepted ++ [upload] }
    else
      { store
        chunks := run.chunks.set fileId []
        accepted := (run.accepted.filter fun other => other.fileId != fileId) ++ [upload] }
  | .append _ offset dataBase64 =>
    let bytes := decodeBase64 dataBase64
    let size := ((run.store.bodies.get? fileId).getD []).length
    { store
      chunks :=
        if size < offset + bytes.length then
          run.chunks.set fileId ((run.chunks.get? fileId).getD [] ++ [bytes])
        else run.chunks
      accepted := run.accepted ++ [upload] }
  | .sealUpload _ => { run with store, accepted := run.accepted ++ [upload] }
  | .read _ | .release _ => { run with store }

/-- One step; where the constructor throws, no store is opened. -/
def InputFileRun.step (host : InputFileHost) (run : InputFileRun) :
    InputFileAction → InputFileRun
  | .operation scope commandId request =>
    let call := run.store.operation host scope commandId request
    match call.outcome with
    | .error _ => { run with store := call.store }
    | .ok result => run.accept scope commandId request result call.store
  | .materialize scope files regular =>
    { run with store := (run.store.materialize host scope files regular).store }
  | .nativeImages scope references =>
    { run with store := (run.store.nativeImages host scope references).store }
  | .retire scope => { run with store := (run.store.retire scope).store }
  | .fork scope targetOwner => { run with store := (run.store.fork scope targetOwner).store }
  | .restart =>
    match run.store.reopen host with
    | none => run
    | some store => { run with store }
  | .tamper fileId copy =>
    { run with store := { run.store with copies := run.store.copies.restore fileId copy } }

def InputFileRun.empty : InputFileRun := ⟨InputFileStore.empty, Dict.empty, []⟩

/-! ## What a run keeps -/

def UploadRequest.repeats (host : InputFileHost) (store : InputFileStore)
    (upload : UploadRequest) : Prop :=
  ∃ result, store.operation host upload.scope upload.commandId upload.request =
    ⟨store, .ok result⟩

structure InputFileRun.Kept (host : InputFileHost) (run : InputFileRun) : Prop where
  /-- A body is the concatenation of its chunks and fits its declared length. -/
  bodies : ∀ fileId metadata, run.store.entries.get? fileId = some metadata →
    ∃ chunks, run.chunks.get? fileId = some chunks ∧
      run.store.bodies.get? fileId = some chunks.flatten ∧
      chunks.flatten.length ≤ metadata.reference.byteLength
  /-- A sealed body has the declared length and hash. -/
  sealed : ∀ fileId metadata, run.store.entries.get? fileId = some metadata →
    metadata.sealed = true → ∃ body, run.store.bodies.get? fileId = some body ∧
      metadata.reference.matches host body = true
  quota : run.store.reserved ≤ maxStoreBytes
  /-- While the file is there and belongs to the scope, an accepted request can be repeated. -/
  repeated : ∀ upload ∈ run.accepted, ∀ metadata,
    run.store.entries.get? upload.fileId = some metadata →
    metadata.owned upload.scope = true → upload.repeats host run.store
  /-- A call leaves the files that its scope does not own. -/
  foreign : ∀ action scope, action.scope? = some scope →
    ForeignKept scope run.store (run.step host action).store
  /-- A request other than `create` tells about a file of its scope. -/
  reads : ∀ scope commandId request result,
    (run.store.operation host scope commandId request).outcome = .ok result →
    (∀ description, request ≠ .create description) →
    ∃ metadata, run.store.entries.get? result.reference.fileId = some metadata ∧
      metadata.owned scope = true
  /-- What is delivered to a scope is a file of the scope. -/
  delivers : ∀ scope files regular projected,
    (run.store.materialize host scope files regular).outcome = .ok projected →
    ∀ file ∈ files, Deliverable host scope run.store file.reference.fileId
  images : ∀ scope references selected,
    (run.store.nativeImages host scope references).outcome = .ok selected →
    ∀ reference ∈ references, Deliverable host scope run.store reference.fileId
  /-- A fork makes its target an owner of every delivered file. -/
  forked : ∀ scope targetOwner,
    (run.store.fork scope targetOwner).outcome = .ok () →
    ∀ reference body, run.store.Holds scope.owner reference scope.place body →
      (run.store.fork scope targetOwner).store.Holds targetOwner reference scope.place body
  /-- A delivered file can be read by its owners. -/
  readable : ∀ scope commandId reference body,
    run.store.Holds scope.owner reference scope.place body →
    harnessInputFileOperationSchema (.read reference.fileId) = true →
    run.store.operation host scope commandId (.read reference.fileId) =
      ⟨run.store, .ok ⟨reference, body.length, .retained⟩⟩

/-! ## Uploads -/

variable {host : InputFileHost} {scope : InputFileScope} {store : InputFileStore}
  {run : InputFileRun} {fileId commandId : String} {metadata : InputFileMetadata} {body : Bytes}

def freshUpload (host : InputFileHost) (scope : InputFileScope) (commandId : String)
    (description : InputFileDescription) : InputFileMetadata :=
  { scope, owners := [scope.owner]
    reference := { toInputFileDescription := description, fileId := host.fileId scope commandId }
    sealed := false, retained := false }

theorem InputFileStore.create_cases (store : InputFileStore) (host : InputFileHost)
    (scope : InputFileScope) (commandId : String) (description : InputFileDescription) :
    (∃ error, store.create host scope commandId description = store.throws error) ∨
    (∃ existing body, store.entries.get? (host.fileId scope commandId) = some existing ∧
      store.bodies.get? (host.fileId scope commandId) = some body ∧
      existing.reference.toInputFileDescription = description ∧
      store.create host scope commandId description = store.returns (existing.result body)) ∨
    (store.entries.get? (host.fileId scope commandId) = none ∧
      store.reserved + description.byteLength ≤ maxStoreBytes ∧
      store.create host scope commandId description =
        ({ store with
          bodies := store.bodies.set (host.fileId scope commandId) [] }.save
            (freshUpload host scope commandId description)).returns
          ((freshUpload host scope commandId description).result [])) := by
  unfold InputFileStore.create
  dsimp only
  split
  · rename_i existing hexisting
    split
    · exact Or.inl ⟨_, rfl⟩
    · rename_i hdescription
      rw [not_not] at hdescription
      split
      · exact Or.inl ⟨_, rfl⟩
      · rename_i body hbody
        exact Or.inr (Or.inl ⟨existing, body, hexisting, hbody, hdescription, rfl⟩)
  · rename_i hnone
    split
    · exact Or.inl ⟨_, rfl⟩
    · split
      · exact Or.inl ⟨_, rfl⟩
      · rename_i hroom
        have hquota : store.reserved + description.byteLength ≤ maxStoreBytes := by
          unfold InputFileStore.exceeds at hroom
          simp only [Bool.or_eq_true, decide_eq_true_eq, not_or, not_lt] at hroom
          omega
        split
        · exact Or.inl ⟨_, rfl⟩
        · split
          · exact Or.inl ⟨_, rfl⟩
          · exact Or.inr (Or.inr ⟨hnone, hquota, rfl⟩)

theorem InputFileStore.append_cases (store : InputFileStore) (metadata : InputFileMetadata)
    (body : Bytes) (offset : Nat) (dataBase64 : String) :
    (∃ error, store.append metadata body offset dataBase64 = store.throws error) ∨
    (decodeBase64 dataBase64 ≠ [] ∧ (decodeBase64 dataBase64).length ≤ chunkBytes ∧
      encodeBase64 (decodeBase64 dataBase64) = dataBase64 ∧
      ((offset + (decodeBase64 dataBase64).length ≤ body.length ∧
        Bytes.slice body offset (decodeBase64 dataBase64).length =
          decodeBase64 dataBase64 ∧
        store.append metadata body offset dataBase64 =
          store.returns (metadata.result body)) ∨
      (metadata.sealed = false ∧ offset = body.length ∧
        body.length + (decodeBase64 dataBase64).length ≤ metadata.reference.byteLength ∧
        store.append metadata body offset dataBase64 =
          { store with
            bodies := store.bodies.set metadata.reference.fileId
              (body ++ decodeBase64 dataBase64) }.returns
            (metadata.result (body ++ decodeBase64 dataBase64))))) := by
  unfold InputFileStore.append
  dsimp only
  split
  · exact Or.inl ⟨_, rfl⟩
  · rename_i hvalid
    rw [not_or, not_or, not_lt, not_not] at hvalid
    split
    · rename_i hretry
      exact Or.inr ⟨hvalid.1, hvalid.2.1, hvalid.2.2, Or.inl ⟨hretry.1, hretry.2, rfl⟩⟩
    · split
      · exact Or.inl ⟨_, rfl⟩
      · rename_i hextends
        rw [not_or, not_or, not_not, not_lt, Bool.not_eq_true] at hextends
        exact Or.inr ⟨hvalid.1, hvalid.2.1, hvalid.2.2,
          Or.inr ⟨hextends.1, hextends.2.1, hextends.2.2, rfl⟩⟩

theorem InputFileStore.Sound.upload (h : store.Sound host)
    {description : InputFileDescription}
    (hnone : store.entries.get? (host.fileId scope commandId) = none)
    (hsmall : description.byteLength ≤ maxFileBytes)
    (hquota : store.reserved + description.byteLength ≤ maxStoreBytes) :
    (InputFileStore.save (freshUpload host scope commandId description)
      { store with bodies := store.bodies.set (host.fileId scope commandId) [] }).Sound host := by
  have hcases : ∀ {other : String} {found : InputFileMetadata},
      (store.entries.set (host.fileId scope commandId)
        (freshUpload host scope commandId description)).get? other = some found →
      (other = host.fileId scope commandId ∧
        found = freshUpload host scope commandId description) ∨
      (other ≠ host.fileId scope commandId ∧ store.entries.get? other = some found) := by
    intro other found hfound
    rw [Dict.get?_set] at hfound
    by_cases hother : other = host.fileId scope commandId
    · rw [if_pos hother] at hfound
      exact Or.inl ⟨hother, (Option.some.inj hfound).symm⟩
    · rw [if_neg hother] at hfound
      exact Or.inr ⟨hother, hfound⟩
  constructor
  · change store.records.set _ _ = store.entries.set _ _
    rw [h.records]
  · intro other found hfound
    rcases hcases hfound with ⟨rfl, rfl⟩ | ⟨-, hold⟩
    · rfl
    · exact h.keyed other found hold
  · intro other found hfound
    rcases hcases hfound with ⟨rfl, rfl⟩ | ⟨hne, hold⟩
    · exact ⟨[], Dict.get?_set_self _ _ _, Nat.zero_le _, fun hsealed => nomatch hsealed⟩
    · rcases h.bodied other found hold with ⟨body, hbody, hfits⟩
      exact ⟨body, (Dict.get?_set_of_ne _ _ hne).trans hbody, hfits⟩
  · intro other found hfound
    rcases hcases hfound with ⟨rfl, rfl⟩ | ⟨-, hold⟩
    · exact hsmall
    · exact h.bounded other found hold
  · intro other found hfound
    rcases hcases hfound with ⟨rfl, rfl⟩ | ⟨-, hold⟩
    · exact fun hretained => nomatch hretained
    · exact h.delivered other found hold
  · have htotal := store.entries.total_set (host.fileId scope commandId)
      (freshUpload host scope commandId description)
      fun metadata => metadata.reference.byteLength
    rw [hnone, Option.elim_none] at htotal
    change (store.entries.set (host.fileId scope commandId)
      (freshUpload host scope commandId description)).total _ ≤ maxStoreBytes
    rw [Nat.add_zero] at htotal
    rw [htotal]
    exact hquota

theorem InputFileStore.Sound.extend (h : store.Sound host)
    (hentry : store.entries.get? fileId = some metadata) (hunsealed : metadata.sealed = false)
    {grown : Bytes} (hfits : grown.length ≤ metadata.reference.byteLength) :
    InputFileStore.Sound host { store with bodies := store.bodies.set fileId grown } := by
  refine { h with bodied := ?_ }
  intro other found hfound
  by_cases hother : other = fileId
  · subst hother
    change store.entries.get? other = some found at hfound
    rw [hentry] at hfound
    cases hfound
    refine ⟨grown, Dict.get?_set_self _ _ _, hfits, fun hsealed => ?_⟩
    rw [hunsealed] at hsealed
    cases hsealed
  · rcases h.bodied other found hfound with ⟨body, hbody, hrest⟩
    exact ⟨body, (Dict.get?_set_of_ne _ _ hother).trans hbody, hrest⟩

/-! ## The invariant -/

/-- What makes a request repeatable once it has been accepted. -/
def UploadRequest.Standing (host : InputFileHost) (upload : UploadRequest)
    (metadata : InputFileMetadata) (body : Bytes) : Prop :=
  harnessInputFileOperationSchema upload.request = true ∧
  match upload.request with
  | .create description =>
    upload.fileId = host.fileId upload.scope upload.commandId ∧
      metadata.reference.toInputFileDescription = description
  | .append fileId offset dataBase64 =>
    upload.fileId = fileId ∧ decodeBase64 dataBase64 ≠ [] ∧
      (decodeBase64 dataBase64).length ≤ chunkBytes ∧
      encodeBase64 (decodeBase64 dataBase64) = dataBase64 ∧
      offset + (decodeBase64 dataBase64).length ≤ body.length ∧
      Bytes.slice body offset (decodeBase64 dataBase64).length =
        decodeBase64 dataBase64
  | .sealUpload fileId => upload.fileId = fileId ∧ metadata.sealed = true
  | .read _ | .release _ => False

structure InputFileRun.Tracks (host : InputFileHost) (run : InputFileRun) : Prop where
  sound : run.store.Sound host
  chunks : ∀ fileId metadata, run.store.entries.get? fileId = some metadata →
    ∃ chunks, run.chunks.get? fileId = some chunks ∧
      run.store.bodies.get? fileId = some chunks.flatten
  uploads : ∀ upload ∈ run.accepted, ∀ metadata body,
    run.store.entries.get? upload.fileId = some metadata →
    run.store.bodies.get? upload.fileId = some body → upload.Standing host metadata body

theorem InputFileRun.Tracks.empty : InputFileRun.empty.Tracks host where
  sound := InputFileStore.Sound.empty
  chunks := fun _ _ h => nomatch h
  uploads := fun _ h => nomatch h

theorem UploadRequest.Standing.survive {upload : UploadRequest} {later : InputFileMetadata}
    (h : upload.Standing host metadata body) (hreference : later.reference = metadata.reference)
    (hsealed : metadata.sealed = true → later.sealed = true) :
    upload.Standing host later body := by
  unfold UploadRequest.Standing at h ⊢
  cases hrequest : upload.request with
  | create description =>
    rw [hrequest] at h
    rw [hreference]
    exact h
  | append fileId offset dataBase64 =>
    rw [hrequest] at h
    exact h
  | sealUpload fileId =>
    rw [hrequest] at h
    exact ⟨h.1, h.2.1, hsealed h.2.2⟩
  | read fileId =>
    rw [hrequest] at h
    exact h
  | release fileId =>
    rw [hrequest] at h
    exact h

theorem Bytes.slice_append {body : Bytes} {offset length : Nat}
    (h : offset + length ≤ body.length) (more : Bytes) :
    Bytes.slice (body ++ more) offset length = Bytes.slice body offset length := by
  unfold Bytes.slice
  rw [List.drop_append_of_le_length (by omega), List.take_append_of_le_length]
  rw [List.length_drop]
  omega

theorem UploadRequest.Standing.extend {upload : UploadRequest}
    (h : upload.Standing host metadata body) (more : Bytes) :
    upload.Standing host metadata (body ++ more) := by
  unfold UploadRequest.Standing at h ⊢
  cases hrequest : upload.request with
  | append fileId offset dataBase64 =>
    rw [hrequest] at h
    rcases h with ⟨hadmits, hid, hbytes, hlength, hcanonical, hwithin, hslice⟩
    refine ⟨hadmits, hid, hbytes, hlength, hcanonical, ?_, ?_⟩
    · rw [List.length_append]
      omega
    · rw [Bytes.slice_append hwithin]
      exact hslice
  | create description =>
    rw [hrequest] at h
    exact h
  | sealUpload fileId =>
    rw [hrequest] at h
    exact h
  | read fileId =>
    rw [hrequest] at h
    exact h
  | release fileId =>
    rw [hrequest] at h
    exact h

theorem InputFileRun.Tracks.survive (h : run.Tracks host) {after : InputFileStore}
    (hsurvives : Survives run.store after) (hsound : after.Sound host) :
    InputFileRun.Tracks host { run with store := after } := by
  refine ⟨hsound, ?_, ?_⟩
  · intro fileId metadata hentry
    rcases hsurvives fileId metadata hentry with ⟨earlier, hearlier, -, -, -, -, hbody⟩
    rcases h.chunks fileId earlier hearlier with ⟨chunks, hchunks, hflatten⟩
    exact ⟨chunks, hchunks, hbody.trans hflatten⟩
  · intro upload hupload metadata body hentry hbody
    rcases hsurvives upload.fileId metadata hentry with
      ⟨earlier, hearlier, hreference, -, hsealed, -, hsame⟩
    have hstanding := h.uploads upload hupload earlier body hearlier (hsame.symm.trans hbody)
    exact hstanding.survive hreference hsealed

theorem InputFileRun.Tracks.changes (h : run.Tracks host) {retiring : Bool}
    {after : InputFileStore} (hchanges : FileChanges host scope retiring run.store after) :
    InputFileRun.Tracks host { run with store := after } :=
  h.survive (hchanges.survives h.sound) (hchanges.sound h.sound)

theorem InputFileRun.Tracks.accept (h : run.Tracks host) (upload : UploadRequest)
    (hstanding : ∀ metadata body, run.store.entries.get? upload.fileId = some metadata →
      run.store.bodies.get? upload.fileId = some body → upload.Standing host metadata body) :
    InputFileRun.Tracks host { run with accepted := run.accepted ++ [upload] } := by
  refine { h with uploads := ?_ }
  intro other hother
  rcases List.mem_append.mp hother with hold | hone
  · exact h.uploads other hold
  · rw [List.mem_singleton.mp hone]
    exact hstanding

/-! ## Operations -/

theorem InputFileStore.sealUpload_cases (store : InputFileStore) (host : InputFileHost)
    (metadata : InputFileMetadata) (body : Bytes) :
    (∃ error, store.sealUpload host metadata body = store.throws error) ∨
    (metadata.reference.matches host body = true ∧
      store.sealUpload host metadata body =
        (store.save { metadata with sealed := true }).returns
          (InputFileMetadata.result { metadata with sealed := true } body)) := by
  unfold InputFileStore.sealUpload
  split
  · exact Or.inl ⟨_, rfl⟩
  · split
    · exact Or.inl ⟨_, rfl⟩
    · rename_i hmatches
      rw [not_not] at hmatches
      exact Or.inr ⟨hmatches, rfl⟩

theorem InputFileRun.Tracks.create (h : run.Tracks host) {description : InputFileDescription}
    (hadmits : harnessInputFileOperationSchema (.create description) = true)
    (hsmall : description.byteLength ≤ maxFileBytes) {result : InputFileResult}
    (hreturned : (run.store.create host scope commandId description).outcome = .ok result) :
    (run.accept scope commandId (.create description) result
      (run.store.create host scope commandId description).store).Tracks host := by
  rcases run.store.create_cases host scope commandId description with
    ⟨error, heq⟩ | ⟨existing, body, hentry, hbody, hdescription, heq⟩ | ⟨hnone, hquota, heq⟩
  · rw [heq] at hreturned
    cases hreturned
  · -- the upload is there already
    rw [heq] at hreturned ⊢
    cases hreturned
    have hid : existing.reference.fileId = host.fileId scope commandId :=
      h.sound.keyed _ existing hentry
    unfold InputFileRun.accept
    dsimp only
    rw [if_pos]
    · apply h.accept
      intro metadata found hmetadata hfound
      change run.store.entries.get? existing.reference.fileId = some metadata at hmetadata
      rw [hid, hentry] at hmetadata
      cases hmetadata
      exact ⟨hadmits, hid, hdescription⟩
    · change (run.store.entries.get? existing.reference.fileId).isSome = true
      rw [hid, hentry]
      rfl
  · rw [heq] at hreturned ⊢
    cases hreturned
    unfold InputFileRun.accept
    dsimp only
    rw [if_neg]
    · constructor
      · exact h.sound.upload hnone hsmall hquota
      · intro fileId metadata hentry
        change (run.store.entries.set (host.fileId scope commandId) _).get? fileId = _ at hentry
        by_cases hnew : fileId = host.fileId scope commandId
        · subst hnew
          exact ⟨[], Dict.get?_set_self _ _ _, Dict.get?_set_self _ _ _⟩
        · rw [Dict.get?_set_of_ne _ _ hnew] at hentry
          rcases h.chunks fileId metadata hentry with ⟨chunks, hchunks, hbody⟩
          exact ⟨chunks, (Dict.get?_set_of_ne _ _ hnew).trans hchunks,
            (Dict.get?_set_of_ne _ _ hnew).trans hbody⟩
      · intro upload hupload metadata body hentry hbody
        change (run.store.entries.set (host.fileId scope commandId) _).get? upload.fileId = _
          at hentry
        change (run.store.bodies.set (host.fileId scope commandId) _).get? upload.fileId = _
          at hbody
        rcases List.mem_append.mp hupload with hold | hone
        · rw [List.mem_filter, bne_iff_ne] at hold
          have hne : upload.fileId ≠ host.fileId scope commandId := hold.2
          rw [Dict.get?_set_of_ne _ _ hne] at hentry hbody
          exact h.uploads upload hold.1 metadata body hentry hbody
        · rw [List.mem_singleton.mp hone] at hentry ⊢
          change (run.store.entries.set (host.fileId scope commandId) _).get?
            (host.fileId scope commandId) = _ at hentry
          rw [Dict.get?_set_self] at hentry
          cases hentry
          exact ⟨hadmits, rfl, rfl⟩
    · change ¬(run.store.entries.get? (host.fileId scope commandId)).isSome = true
      rw [hnone]
      exact Bool.false_ne_true

theorem InputFileRun.Tracks.append (h : run.Tracks host)
    (hentry : run.store.entries.get? fileId = some metadata)
    (hbody : run.store.bodies.get? fileId = some body) {offset : Nat} {dataBase64 : String}
    (hadmits : harnessInputFileOperationSchema (.append fileId offset dataBase64) = true)
    {result : InputFileResult}
    (hreturned : (run.store.append metadata body offset dataBase64).outcome = .ok result) :
    (run.accept scope commandId (.append fileId offset dataBase64) result
      (run.store.append metadata body offset dataBase64).store).Tracks host := by
  have hid : metadata.reference.fileId = fileId := h.sound.keyed fileId metadata hentry
  rcases run.store.append_cases metadata body offset dataBase64 with
    ⟨error, heq⟩ | ⟨hbytes, hlength, hcanonical, ⟨hwithin, hslice, heq⟩ |
      ⟨hunsealed, rfl, hfits, heq⟩⟩
  · rw [heq] at hreturned
    cases hreturned
  · -- a retry is no new chunk
    rw [heq] at hreturned ⊢
    cases hreturned
    unfold InputFileRun.accept
    dsimp only
    rw [if_neg]
    · apply h.accept
      intro found stored hfound hstored
      change run.store.bodies.get? metadata.reference.fileId = some stored at hstored
      rw [hid, hbody] at hstored
      cases hstored
      exact ⟨hadmits, hid, hbytes, hlength, hcanonical, hwithin, hslice⟩
    · change ¬((run.store.bodies.get? metadata.reference.fileId).getD []).length < _
      rw [hid, hbody, Option.getD_some]
      omega
  · rw [heq] at hreturned ⊢
    cases hreturned
    have hpositive := List.length_pos_iff.mpr hbytes
    have hgrown : (body ++ decodeBase64 dataBase64).length ≤
        metadata.reference.byteLength := by
      rw [List.length_append]
      exact hfits
    rcases h.chunks fileId metadata hentry with ⟨chunks, hchunks, hflatten⟩
    rw [hbody] at hflatten
    unfold InputFileRun.accept
    dsimp only
    rw [if_pos]
    · constructor
      · change InputFileStore.Sound host { run.store with
          bodies := run.store.bodies.set metadata.reference.fileId _ }
        rw [hid]
        exact h.sound.extend hentry hunsealed hgrown
      · intro other found hfound
        change run.store.entries.get? other = some found at hfound
        by_cases hother : other = fileId
        · subst hother
          refine ⟨chunks ++ [decodeBase64 dataBase64], ?_, ?_⟩
          · change (run.chunks.set metadata.reference.fileId
              ((run.chunks.get? metadata.reference.fileId).getD [] ++ _)).get? other = _
            rw [hid, Dict.get?_set_self, hchunks, Option.getD_some]
          · change (run.store.bodies.set metadata.reference.fileId _).get? other = _
            rw [hid, Dict.get?_set_self, List.flatten_append, List.flatten_singleton,
              Option.some.inj hflatten]
        · rcases h.chunks other found hfound with ⟨kept, hkept, hstored⟩
          refine ⟨kept, ?_, ?_⟩
          · change (run.chunks.set metadata.reference.fileId _).get? other = _
            rw [hid, Dict.get?_set_of_ne _ _ hother]
            exact hkept
          · change (run.store.bodies.set metadata.reference.fileId _).get? other = _
            rw [hid, Dict.get?_set_of_ne _ _ hother]
            exact hstored
      · intro upload hupload found stored hfound hstored
        change run.store.entries.get? upload.fileId = some found at hfound
        change (run.store.bodies.set metadata.reference.fileId _).get? upload.fileId = _ at hstored
        rw [hid, Dict.get?_set] at hstored
        rcases List.mem_append.mp hupload with hold | hone
        · by_cases hother : upload.fileId = fileId
          · rw [if_pos hother] at hstored
            cases hstored
            have hbefore := h.uploads upload hold found body hfound (hother ▸ hbody)
            exact hbefore.extend _
          · rw [if_neg hother] at hstored
            exact h.uploads upload hold found stored hfound hstored
        · rw [List.mem_singleton.mp hone] at hstored ⊢
          change (if metadata.reference.fileId = fileId then _ else _) = _ at hstored
          rw [if_pos hid] at hstored
          cases hstored
          refine ⟨hadmits, hid, hbytes, hlength, hcanonical, ?_, ?_⟩
          · rw [List.length_append]
          · unfold Bytes.slice
            rw [List.drop_left, List.take_length]
    · change ((run.store.bodies.get? metadata.reference.fileId).getD []).length < _
      rw [hid, hbody, Option.getD_some]
      omega

theorem InputFileRun.Tracks.sealUpload (h : run.Tracks host)
    (hentry : run.store.entries.get? fileId = some metadata)
    (howned : metadata.owned scope = true) (hbody : run.store.bodies.get? fileId = some body)
    (hadmits : harnessInputFileOperationSchema (.sealUpload fileId) = true) {result : InputFileResult}
    (hreturned : (run.store.sealUpload host metadata body).outcome = .ok result) :
    (run.accept scope commandId (.sealUpload fileId) result
      (run.store.sealUpload host metadata body).store).Tracks host := by
  have hchanges : FileChanges host scope false run.store _ :=
    InputFileStore.sealUpload_changes hentry howned hbody
  have hid : metadata.reference.fileId = fileId := h.sound.keyed fileId metadata hentry
  have hkept := h.changes hchanges
  rcases run.store.sealUpload_cases host metadata body with ⟨error, heq⟩ | ⟨-, heq⟩
  · rw [heq] at hreturned
    cases hreturned
  · rw [heq] at hreturned hkept ⊢
    cases hreturned
    unfold InputFileRun.accept
    apply hkept.accept
    intro found stored hfound _
    change (run.store.entries.set metadata.reference.fileId _).get?
      metadata.reference.fileId = some found at hfound
    rw [Dict.get?_set_self] at hfound
    cases hfound
    exact ⟨hadmits, hid, rfl⟩

theorem InputFileRun.Tracks.operation (h : run.Tracks host) (scope : InputFileScope)
    (commandId : String) (request : InputFileRequest) :
    (run.step host (.operation scope commandId request)).Tracks host := by
  have hthrows : ∀ error, run.store.operation host scope commandId request =
      run.store.throws error → (run.step host (.operation scope commandId request)).Tracks host := by
    intro error heq
    unfold InputFileRun.step
    dsimp only
    rw [heq]
    exact h
  cases request with
  | create description =>
    by_cases hadmits : harnessInputFileOperationSchema (.create description) = true
    · have heq : run.store.operation host scope commandId (.create description) = _ :=
        run.store.operation_create hadmits scope commandId
      split at heq
      · exact hthrows _ heq
      · rename_i hsmall
        rw [not_lt] at hsmall
        rcases run.store.create_cases host scope commandId description with
          ⟨error, hcreate⟩ | hreturns
        · exact hthrows error (heq.trans hcreate)
        · have hreturned : ∃ result,
              (run.store.create host scope commandId description).outcome = .ok result := by
            rcases hreturns with ⟨existing, body, -, -, -, hcreate⟩ | ⟨-, -, hcreate⟩
            · exact ⟨_, by rw [hcreate]; rfl⟩
            · exact ⟨_, by rw [hcreate]; rfl⟩
          rcases hreturned with ⟨result, hresult⟩
          unfold InputFileRun.step
          dsimp only
          rw [heq, hresult]
          exact h.create hadmits hsmall hresult
    · exact hthrows _ (InputFileStore.operation_refused hadmits scope commandId)
  | append fileId offset dataBase64 =>
    rcases run.store.operation_cases host scope commandId
        (show (InputFileRequest.append fileId offset dataBase64).target = some fileId from rfl)
      with ⟨error, heq⟩ | ⟨metadata, body, hadmits, hentry, -, hbody, heq⟩
    · exact hthrows error heq
    · cases hresult : (run.store.append metadata body offset dataBase64).outcome with
      | error error =>
        rcases run.store.append_cases metadata body offset dataBase64 with
          ⟨thrown, happend⟩ | ⟨-, -, -, ⟨-, -, happend⟩ | ⟨-, -, -, happend⟩⟩
        · exact hthrows thrown (heq.trans happend)
        · rw [happend] at hresult
          cases hresult
        · rw [happend] at hresult
          cases hresult
      | ok result =>
        unfold InputFileRun.step
        dsimp only
        rw [heq]
        unfold InputFileStore.perform
        rw [hresult]
        exact h.append hentry hbody hadmits hresult
  | sealUpload fileId =>
    rcases run.store.operation_cases host scope commandId
        (show (InputFileRequest.sealUpload fileId).target = some fileId from rfl)
      with ⟨error, heq⟩ | ⟨metadata, body, hadmits, hentry, howned, hbody, heq⟩
    · exact hthrows error heq
    · cases hresult : (run.store.sealUpload host metadata body).outcome with
      | error error =>
        rcases run.store.sealUpload_cases host metadata body with
          ⟨thrown, hseal⟩ | ⟨-, hseal⟩
        · exact hthrows thrown (heq.trans hseal)
        · rw [hseal] at hresult
          cases hresult
      | ok result =>
        unfold InputFileRun.step
        dsimp only
        rw [heq]
        unfold InputFileStore.perform
        rw [hresult]
        exact h.sealUpload hentry howned hbody hadmits hresult
  | read fileId =>
    have hchanges : FileChanges host scope false run.store _ :=
      InputFileStore.operation_changes h.sound commandId
        (show (InputFileRequest.read fileId).target = some fileId from rfl)
        (fun _ _ _ hfalse => nomatch hfalse)
    unfold InputFileRun.step
    dsimp only
    split
    · exact h.changes hchanges
    · exact h.changes hchanges
  | release fileId =>
    have hchanges : FileChanges host scope false run.store _ :=
      InputFileStore.operation_changes h.sound commandId
        (show (InputFileRequest.release fileId).target = some fileId from rfl)
        (fun _ _ _ hfalse => nomatch hfalse)
    unfold InputFileRun.step
    dsimp only
    split
    · exact h.changes hchanges
    · exact h.changes hchanges

theorem InputFileStore.Sound.reopen (h : store.Sound host) {opened : InputFileStore}
    (hopened : store.reopen host = some opened) : opened = store := by
  unfold InputFileStore.reopen at hopened
  dsimp only at hopened
  split at hopened
  · rw [← Option.some.inj hopened, h.records]
    have hrecords := h.records
    cases store
    dsimp only at hrecords ⊢
    rw [hrecords]
  · cases hopened

theorem InputFileRun.Tracks.step (h : run.Tracks host) (action : InputFileAction) :
    (run.step host action).Tracks host := by
  cases action with
  | operation scope commandId request => exact h.operation scope commandId request
  | materialize scope files regular =>
    exact h.changes (InputFileStore.materialize_changes h.sound files regular)
  | nativeImages scope references =>
    exact h.changes (InputFileStore.nativeImages_changes h.sound references)
  | retire scope => exact h.changes (InputFileStore.retire_changes h.sound)
  | fork scope targetOwner => exact h.changes (InputFileStore.fork_changes h.sound targetOwner)
  | restart =>
    unfold InputFileRun.step
    dsimp only
    split
    · exact h
    · rename_i opened hopened
      rw [h.sound.reopen hopened]
      exact h
  | tamper fileId copy =>
    exact h.survive (Survives.refl run.store) (h.sound.copies _)

end HarnessControl.Harnesses
