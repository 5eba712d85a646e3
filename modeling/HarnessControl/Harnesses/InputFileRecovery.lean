import HarnessControl.Harnesses.InputFileInterruptions

/-!
# Recovery of interrupted uploads

An append that fails half-way leaves a part of its chunk behind the body.  The body is still the
beginning of the file, the store reports its length, and appending the rest from there completes
the upload.
-/

namespace HarnessControl.Harnesses

open HarnessControl.Library HarnessControl.Protocol HarnessControl.State

/-! ## Base64 -/

theorem decodeBase64_encodeBase64 (bytes : Bytes) : decodeBase64 (encodeBase64 bytes) = bytes := by
  unfold decodeBase64 encodeBase64
  rw [String.toList_ofList, Base64.decodePadded_encodePadded]

theorem chunkText_encode {bytes : Bytes} (hbytes : bytes ≠ []) (hchunk : bytes.length ≤ chunkBytes) :
    chunkText (encodeBase64 bytes) = true := by
  have hpositive := List.length_pos_iff.mpr hbytes
  have hlength := Base64.length_encodePadded bytes
  unfold chunkText encodeBase64
  rw [← String.length_toList, String.toList_ofList, Base64.isPadded_encodePadded]
  simp only [Bool.and_eq_true, decide_eq_true_eq]
  have hpadding := Base64.padding_spec bytes.length
  unfold chunkBytes at *
  refine ⟨⟨⟨?_, ?_⟩, trivial⟩, ?_⟩ <;> omega

theorem schema_append {offset : Nat} {fileId dataBase64 : String} :
    harnessInputFileOperationSchema (.append fileId offset dataBase64) = true ↔
      sha256Hex fileId = true ∧ counter offset = true ∧ chunkText dataBase64 = true := by
  unfold harnessInputFileOperationSchema
  rw [Bool.and_eq_true, Bool.and_eq_true, and_assoc]

/-! ## Resuming -/

/-- The rest of an upload, chunk after chunk from the received bytes, and its sealing. -/
def InputFileStore.resume (host : InputFileHost) (scope : InputFileScope) (commandId fileId : String) :
    Nat → List Bytes → InputFileStore → FileCall InputFileResult
  | _, [], store => store.operation host scope commandId (.sealUpload fileId)
  | receivedBytes, chunk :: chunks, store =>
    let call := store.operation host scope commandId
      (.append fileId receivedBytes (encodeBase64 chunk))
    match call.outcome with
    | .error error => call.store.throws error
    | .ok result => resume host scope commandId fileId result.receivedBytes chunks call.store

/-- An append that is interrupted leaves an upload that its scope can complete. -/
def InputFileStore.AppendsResume (host : InputFileHost) (store : InputFileStore) : Prop :=
  ∀ scope commandId fileId offset dataBase64 failure,
    fileEffects.failing failure.after (store.trace host
      (.operation scope commandId (.append fileId offset dataBase64))) ≠ none →
    ∃ metadata body kept, store.entries.get? fileId = some metadata ∧
      store.bodies.get? fileId = some body ∧ kept <+: decodeBase64 dataBase64 ∧
      let left := store.attempt host
        ⟨.operation scope commandId (.append fileId offset dataBase64), some failure⟩
      left.bodies.get? fileId = some (body ++ kept) ∧
      left.operation host scope commandId (.read fileId) =
        left.returns ⟨metadata.reference, (body ++ kept).length, .uploading⟩ ∧
      ∀ chunks, (∀ chunk ∈ chunks, chunk ≠ [] ∧ chunk.length ≤ chunkBytes) →
        metadata.reference.matches host (body ++ kept ++ chunks.flatten) = true →
        (left.resume host scope commandId fileId (body ++ kept).length chunks).outcome =
          .ok ⟨metadata.reference, metadata.reference.byteLength, .sealed⟩

variable {host : InputFileHost} {scope : InputFileScope} {store : InputFileStore}
  {commandId fileId : String} {metadata : InputFileMetadata} {body : Bytes}

/-! ## Appending and sealing -/

theorem InputFileStore.append_extends (store : InputFileStore)
    (metadata : InputFileMetadata) (body : Bytes) {dataBase64 : String}
    (hcanonical : encodeBase64 (decodeBase64 dataBase64) = dataBase64)
    (hbytes : decodeBase64 dataBase64 ≠ [])
    (hchunk : (decodeBase64 dataBase64).length ≤ chunkBytes)
    (hunsealed : metadata.sealed = false)
    (hfits : body.length + (decodeBase64 dataBase64).length ≤
      metadata.reference.byteLength) :
    store.append metadata body body.length dataBase64 =
      { store with
        bodies := store.bodies.set metadata.reference.fileId
          (body ++ decodeBase64 dataBase64) }.returns
        (metadata.result (body ++ decodeBase64 dataBase64)) := by
  have hpositive := List.length_pos_iff.mpr hbytes
  unfold InputFileStore.append
  dsimp only
  rw [if_neg, if_neg, if_neg]
  · rw [not_or, not_or, not_not, Bool.not_eq_true, not_lt]
    exact ⟨hunsealed, rfl, hfits⟩
  · rintro ⟨hwithin, -⟩
    omega
  · rw [not_or, not_or, not_not, not_lt]
    exact ⟨hbytes, hchunk, hcanonical⟩

structure InputFileStore.Uploading (host : InputFileHost) (scope : InputFileScope)
    (fileId : String) (metadata : InputFileMetadata) (body : Bytes) (store : InputFileStore) :
    Prop where
  sound : store.Sound host
  entry : store.entries.get? fileId = some metadata
  owned : metadata.owned scope = true
  unsealed : metadata.sealed = false
  body : store.bodies.get? fileId = some body

theorem InputFileStore.Uploading.unretained
    (h : store.Uploading host scope fileId metadata body) : metadata.retained = false := by
  by_contra hretained
  rw [Bool.not_eq_false] at hretained
  have hsealed := h.sound.delivered fileId metadata h.entry hretained
  rw [h.unsealed] at hsealed
  cases hsealed

theorem InputFileStore.Uploading.result (h : store.Uploading host scope fileId metadata body) :
    metadata.result body = ⟨metadata.reference, body.length, .uploading⟩ := by
  unfold InputFileMetadata.result
  rw [h.unretained, h.unsealed]
  rfl

theorem InputFileStore.Uploading.performs (h : store.Uploading host scope fileId metadata body)
    {request : InputFileRequest} (hadmits : harnessInputFileOperationSchema request = true)
    (htarget : request.target = some fileId) (commandId : String) :
    store.operation host scope commandId request = store.perform host metadata body request := by
  rw [InputFileStore.operation_target hadmits htarget,
    InputFileStore.require_eq_some.mpr ⟨h.entry, h.owned, h.body⟩]

theorem InputFileStore.Uploading.extend (h : store.Uploading host scope fileId metadata body)
    {grown : Bytes} (hfits : grown.length ≤ metadata.reference.byteLength) :
    InputFileStore.Uploading host scope fileId metadata grown
      { store with bodies := store.bodies.set fileId grown } where
  sound := h.sound.extend h.entry h.unsealed hfits
  entry := h.entry
  owned := h.owned
  unsealed := h.unsealed
  body := Dict.get?_set_self _ _ _

theorem InputFileStore.Uploading.seals (h : store.Uploading host scope fileId metadata body)
    (hadmits : harnessInputFileOperationSchema (.sealUpload fileId) = true)
    (hmatches : metadata.reference.matches host body = true) :
    (store.operation host scope commandId (.sealUpload fileId)).outcome =
      .ok ⟨metadata.reference, metadata.reference.byteLength, .sealed⟩ := by
  have hlength := InputFileReference.matches_length hmatches
  have hsmall := h.sound.bounded fileId metadata h.entry
  rw [h.performs hadmits rfl]
  change (store.sealUpload host metadata body).outcome = _
  unfold InputFileStore.sealUpload
  rw [if_neg (by omega), if_neg (not_not.mpr hmatches)]
  unfold InputFileMetadata.result
  dsimp only
  rw [h.unretained, hlength]
  rfl

theorem InputFileStore.Uploading.resumes {offset : Nat}
    {dataBase64 : String} (hadmits : harnessInputFileOperationSchema (.append fileId offset dataBase64) = true)
    (chunks : List Bytes) {store : InputFileStore} {body : Bytes}
    (h : store.Uploading host scope fileId metadata body)
    (hchunks : ∀ chunk ∈ chunks, chunk ≠ [] ∧ chunk.length ≤ chunkBytes)
    (hmatches : metadata.reference.matches host (body ++ chunks.flatten) = true) :
    (store.resume host scope commandId fileId body.length chunks).outcome =
      .ok ⟨metadata.reference, metadata.reference.byteLength, .sealed⟩ := by
  induction chunks generalizing store body with
  | nil =>
    rw [List.flatten_nil, List.append_nil] at hmatches
    exact h.seals (schema_append.mp hadmits).1 hmatches
  | cons chunk chunks ih =>
    rcases hchunks chunk List.mem_cons_self with ⟨hbytes, hchunk⟩
    have hlength := InputFileReference.matches_length hmatches
    have hsmall := h.sound.bounded fileId metadata h.entry
    rw [List.flatten_cons, List.length_append, List.length_append] at hlength
    have hcounter : counter body.length = true := by
      unfold maxFileBytes at hsmall
      unfold counter Protocol.maxSafeInteger
      rw [Bool.and_eq_true, decide_eq_true_eq, decide_eq_true_eq]
      omega
    have hrequest : harnessInputFileOperationSchema
        (.append fileId body.length (encodeBase64 chunk)) = true :=
      schema_append.mpr ⟨(schema_append.mp hadmits).1, hcounter, chunkText_encode hbytes hchunk⟩
    have hdecoded := decodeBase64_encodeBase64 chunk
    have happend : store.append metadata body body.length (encodeBase64 chunk) = _ :=
      store.append_extends metadata body (by rw [hdecoded]) (by rwa [hdecoded])
        (by rwa [hdecoded]) h.unsealed (by rw [hdecoded]; omega)
    have hgrown : InputFileStore.Uploading host scope fileId metadata (body ++ chunk)
        { store with bodies := store.bodies.set fileId (body ++ chunk) } := by
      apply h.extend
      rw [List.length_append]
      omega
    rw [hdecoded, h.sound.keyed fileId metadata h.entry, hgrown.result] at happend
    unfold InputFileStore.resume
    rw [h.performs hrequest rfl]
    unfold InputFileStore.perform
    dsimp only
    rw [happend]
    apply ih hgrown fun other hother => hchunks other (List.mem_cons_of_mem _ hother)
    rw [List.flatten_cons, ← List.append_assoc] at hmatches
    exact hmatches

/-! ## Interrupted appends -/

theorem InputFileStore.append_trace (hsound : store.Sound host) {offset : Nat}
    {dataBase64 : String}
    (htrace : store.trace host
      (.operation scope commandId (.append fileId offset dataBase64)) ≠ []) :
    harnessInputFileOperationSchema (.append fileId offset dataBase64) = true ∧
    ∃ metadata body, store.Uploading host scope fileId metadata body ∧
      body.length + (decodeBase64 dataBase64).length ≤ metadata.reference.byteLength ∧
      store.trace host (.operation scope commandId (.append fileId offset dataBase64)) =
        [.extendBody fileId (decodeBase64 dataBase64)] := by
  change (store.operationPlan host scope commandId (.append fileId offset dataBase64)).trace ≠ []
    at htrace
  change _ ∧ ∃ metadata body, _ ∧ _ ∧
    (store.operationPlan host scope commandId (.append fileId offset dataBase64)).trace = _
  unfold InputFileStore.operationPlan at htrace ⊢
  dsimp only at htrace ⊢
  split at htrace
  · exact absurd rfl htrace
  · rename_i hadmits
    rw [not_not] at hadmits
    cases hrequire : store.require scope fileId with
    | none =>
      rw [hrequire] at htrace
      exact absurd rfl htrace
    | some found =>
      rcases found with ⟨metadata, body⟩
      rcases InputFileStore.require_eq_some.mp hrequire with ⟨hentry, howned, hbody⟩
      rw [hrequire] at htrace
      dsimp only at htrace
      have hid := hsound.keyed fileId metadata hentry
      unfold InputFileMetadata.appendPlan at htrace
      dsimp only at htrace
      split at htrace
      · exact absurd rfl htrace
      · rename_i hvalid
        split at htrace
        · exact absurd rfl htrace
        · rename_i hnew
          split at htrace
          · exact absurd rfl htrace
          · rename_i hfits
            refine ⟨hadmits, metadata, body, ?_⟩
            rw [if_neg (not_not.mpr hadmits)]
            unfold InputFileMetadata.appendPlan
            dsimp only
            rw [if_neg hvalid, if_neg hnew, if_neg hfits, hid]
            rw [not_or, not_or, Bool.not_eq_true, not_lt] at hfits
            exact ⟨⟨hsound, hentry, howned, hfits.1, hbody⟩, hfits.2.2, rfl⟩

theorem InputFileStore.Sound.appendsResume (hsound : store.Sound host) :
    store.AppendsResume host := by
  intro scope commandId fileId offset dataBase64 failure hfailing
  have htrace : store.trace host
      (.operation scope commandId (.append fileId offset dataBase64)) ≠ [] := by
    intro hnil
    rw [hnil] at hfailing
    exact hfailing rfl
  rcases InputFileStore.append_trace hsound htrace with
    ⟨hadmits, metadata, body, huploading, hfits, heq⟩
  rw [heq] at hfailing
  -- the only effect is the one that fails
  have hafter : failure.after = 0 := by
    by_contra hne
    obtain ⟨after, hsucc⟩ := Nat.exists_eq_succ_of_ne_zero hne
    rw [hsucc] at hfailing
    exact hfailing rfl
  have hleft : store.attempt host
      ⟨.operation scope commandId (.append fileId offset dataBase64), some failure⟩ =
      { store with
        bodies := store.bodies.set fileId
          (body ++ (decodeBase64 dataBase64).take failure.part) } := by
    change fileEffects.interrupt failure.part failure.after (store.trace host
      (.operation scope commandId (.append fileId offset dataBase64))) store = _
    rw [heq, hafter, Effects.interrupt_zero rfl]
    exact FileEffect.perform_extendBody huploading.body _
  have hgrown : InputFileStore.Uploading host scope fileId metadata
      (body ++ (decodeBase64 dataBase64).take failure.part) _ :=
    huploading.extend (by rw [List.length_append, List.length_take]; omega)
  refine ⟨metadata, body, (decodeBase64 dataBase64).take failure.part, huploading.entry,
    huploading.body, List.take_prefix _ _, ?_⟩
  have hread : harnessInputFileOperationSchema (.read fileId) = true := (schema_append.mp hadmits).1
  dsimp only
  rw [hleft]
  refine ⟨hgrown.body, ?_, ?_⟩
  · rw [hgrown.performs hread rfl, ← hgrown.result]
    rfl
  · intro chunks hchunks hmatches
    exact hgrown.resumes hadmits chunks hchunks hmatches

/-! ## Runs -/

/-- Memory and disk agree in every state of a run, and interrupted appends can be resumed, exactly
when no step of the run fails to save a record that it has changed in memory, or to remove a body
after its record. -/
theorem input_files_agree (host : InputFileHost) (attempts : List FileAttempt) :
    Always (InputFileStore.attempt host) (fun store => store.Agrees ∧ store.AppendsResume host)
      InputFileStore.empty attempts ↔
    Meets (InputFileStore.attempt host) (fun store attempt => attempt.Spared host store)
      InputFileStore.empty attempts := by
  have hkeeps : ∀ (store : InputFileStore) (attempt : FileAttempt), store.Sound host →
      attempt.Spared host store → (store.attempt host attempt).Sound host :=
    fun _ _ hsound hspared => InputFileStore.attempt_sound hsound hspared
  have hparts : ∀ (store : InputFileStore) (attempt : FileAttempt), store.Sound host →
      ¬attempt.Spared host store → ¬(store.attempt host attempt).Agrees :=
    fun _ _ hsound hspared => InputFileStore.attempt_breaks hsound hspared
  have hempty : InputFileStore.empty.Sound host := InputFileStore.Sound.empty
  constructor
  · intro halways
    exact meets_of_always hkeeps hparts hempty (halways.mono fun _ h => h.1)
  · intro hmeets
    have hsound := always_of_meets hkeeps hempty hmeets
    exact hsound.mono fun _ h => ⟨h.agrees, h.appendsResume⟩

/-! ## Interrupted runs -/

def startedUpload : List FileAttempt :=
  [⟨.operation filesScope "upload" (.create noteFile), none⟩]

/-- The chunk fails, and is sent again. -/
def retriedUpload : List FileAttempt :=
  startedUpload ++
    [⟨.operation filesScope "chunk" (.append otherHash 0 "AQ=="), some ⟨0, 0⟩⟩,
      ⟨.operation filesScope "chunk" (.append otherHash 0 "AQ=="), none⟩]

/-- The record of the sealed file cannot be written. -/
def unrecordedSeal : List FileAttempt :=
  retriedUpload ++ [⟨.operation filesScope "seal" (.sealUpload otherHash), some ⟨0, 0⟩⟩]

theorem input_files_agree_retried :
    Always (InputFileStore.attempt filesHost)
      (fun store => store.Agrees ∧ store.AppendsResume filesHost)
      InputFileStore.empty retriedUpload :=
  (input_files_agree filesHost retriedUpload).mpr (by decide)

/-- A file is sealed in memory and not on disk. -/
theorem sealed_unrecorded :
    ¬∀ (host : InputFileHost), ∀ attempts : List FileAttempt,
      Always (InputFileStore.attempt host) (fun store => store.Agrees ∧ store.AppendsResume host)
        InputFileStore.empty attempts := by
  intro hall
  have hagrees := (hall filesHost unrecordedSeal).last.1 otherHash
  have hdiffer : ((run (InputFileStore.attempt filesHost) InputFileStore.empty
      unrecordedSeal).entries.get? otherHash).map InputFileMetadata.marks ≠
    ((run (InputFileStore.attempt filesHost) InputFileStore.empty
      unrecordedSeal).records.get? otherHash).map InputFileMetadata.marks := by
    decide
  exact hdiffer hagrees

end HarnessControl.Harnesses
