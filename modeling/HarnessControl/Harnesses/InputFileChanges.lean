import HarnessControl.Harnesses.InputFiles

/-!
# Changes of stored files

Apart from uploads, what a call of a scope does to the store is a sequence of changes, each to one
file that the scope owns.  What every change preserves holds of whatever the loops of delivery,
retirement and forking leave behind, also where they stop half-way.
-/

namespace HarnessControl.Harnesses

open HarnessControl.Library HarnessControl.Protocol HarnessControl.State

/-! ## A well-kept store -/

/-- Records stand under their own ids, in memory as on disk, with a body that fits. -/
structure InputFileStore.Sound (host : InputFileHost) (store : InputFileStore) : Prop where
  records : store.records = store.entries
  keyed : ∀ fileId metadata, store.entries.get? fileId = some metadata →
    metadata.reference.fileId = fileId
  bodied : ∀ fileId metadata, store.entries.get? fileId = some metadata →
    ∃ body, store.bodies.get? fileId = some body ∧
      body.length ≤ metadata.reference.byteLength ∧
      (metadata.sealed = true → metadata.reference.matches host body = true)
  bounded : ∀ fileId metadata, store.entries.get? fileId = some metadata →
    metadata.reference.byteLength ≤ maxFileBytes
  delivered : ∀ fileId metadata, store.entries.get? fileId = some metadata →
    metadata.retained = true → metadata.sealed = true
  quota : store.reserved ≤ maxStoreBytes

variable {host : InputFileHost} {scope : InputFileScope} {retiring : Bool}
  {store before after : InputFileStore} {fileId : String} {metadata next : InputFileMetadata}

theorem InputFileStore.Sound.empty : InputFileStore.empty.Sound host where
  records := rfl
  keyed := fun _ _ h => nomatch h
  bodied := fun _ _ h => nomatch h
  bounded := fun _ _ h => nomatch h
  delivered := fun _ _ h => nomatch h
  quota := Nat.zero_le _

theorem InputFileReference.matches_length {reference : InputFileReference} {body : Bytes}
    (h : reference.matches host body = true) : body.length = reference.byteLength := by
  unfold InputFileReference.matches at h
  simp only [Bool.and_eq_true, beq_iff_eq] at h
  exact h.1

theorem InputFileStore.Sound.save (h : store.Sound host)
    (hentry : store.entries.get? fileId = some metadata) {body : Bytes}
    (hbody : store.bodies.get? fileId = some body)
    (hreference : next.reference = metadata.reference)
    (hmatches : next.sealed = true → metadata.reference.matches host body = true)
    (hretained : next.retained = true → next.sealed = true) : (store.save next).Sound host := by
  have hid : next.reference.fileId = fileId := by
    rw [hreference]
    exact h.keyed fileId metadata hentry
  have hcases : ∀ {other : String} {found : InputFileMetadata},
      (store.save next).entries.get? other = some found →
      (other = fileId ∧ found = next) ∨ store.entries.get? other = some found := by
    intro other found hfound
    change (store.entries.set next.reference.fileId next).get? other = some found at hfound
    rw [hid, Dict.get?_set] at hfound
    by_cases hother : other = fileId
    · rw [if_pos hother] at hfound
      exact Or.inl ⟨hother, (Option.some.inj hfound).symm⟩
    · rw [if_neg hother] at hfound
      exact Or.inr hfound
  constructor
  · change store.records.set _ _ = store.entries.set _ _
    rw [h.records]
  · intro other found hfound
    rcases hcases hfound with ⟨rfl, rfl⟩ | hold
    · exact hid
    · exact h.keyed other found hold
  · intro other found hfound
    rcases hcases hfound with ⟨rfl, rfl⟩ | hold
    · rcases h.bodied _ metadata hentry with ⟨stored, hstored, hfits, -⟩
      rw [hbody] at hstored
      cases hstored
      exact ⟨body, hbody, hreference ▸ hfits, fun hsealed => hreference ▸ hmatches hsealed⟩
    · exact h.bodied other found hold
  · intro other found hfound
    rcases hcases hfound with ⟨rfl, rfl⟩ | hold
    · rw [hreference]
      exact h.bounded _ metadata hentry
    · exact h.bounded other found hold
  · intro other found hfound
    rcases hcases hfound with ⟨rfl, rfl⟩ | hold
    · exact hretained
    · exact h.delivered other found hold
  · have htotal := store.entries.total_set next.reference.fileId next
      fun metadata => metadata.reference.byteLength
    rw [hid, hentry, Option.elim_some, hreference] at htotal
    have hquota := h.quota
    unfold InputFileStore.reserved at hquota ⊢
    change (store.entries.set next.reference.fileId next).total _ ≤ maxStoreBytes
    rw [hid]
    omega

theorem InputFileStore.Sound.copies (h : store.Sound host) (copies : Dict String WorkspaceCopy) :
    InputFileStore.Sound host { store with copies } :=
  { h with keyed := h.keyed }

def InputFileStore.without (fileId : String) (store : InputFileStore) : InputFileStore :=
  { store with
    records := store.records.erase fileId
    bodies := store.bodies.erase fileId
    entries := store.entries.erase fileId }

theorem InputFileStore.without_entry {other : String} {found : InputFileMetadata}
    (h : (store.without fileId).entries.get? other = some found) :
    other ≠ fileId ∧ store.entries.get? other = some found := by
  change (store.entries.erase fileId).get? other = some found at h
  by_cases hother : other = fileId
  · rw [hother, Dict.get?_erase_self] at h
    cases h
  · rw [Dict.get?_erase_of_ne _ hother] at h
    exact ⟨hother, h⟩

theorem InputFileStore.Sound.without (h : store.Sound host) (fileId : String) :
    (store.without fileId).Sound host := by
  constructor
  · change store.records.erase fileId = store.entries.erase fileId
    rw [h.records]
  · intro other found hfound
    exact h.keyed other found (InputFileStore.without_entry hfound).2
  · intro other found hfound
    have hkept := InputFileStore.without_entry hfound
    rcases h.bodied other found hkept.2 with ⟨body, hbody, hfits⟩
    exact ⟨body, (Dict.get?_erase_of_ne _ hkept.1).trans hbody, hfits⟩
  · intro other found hfound
    exact h.bounded other found (InputFileStore.without_entry hfound).2
  · intro other found hfound
    exact h.delivered other found (InputFileStore.without_entry hfound).2
  · have hle := store.entries.total_erase_le fileId fun metadata => metadata.reference.byteLength
    exact Nat.le_trans hle h.quota

/-! ## Changes -/

/-- One change to a file that the scope owns.  Only a scope that retires gives up a file that is
retained, and deletes one that has no other owner. -/
inductive FileChange (host : InputFileHost) (scope : InputFileScope) (retiring : Bool) :
    InputFileStore → InputFileStore → Prop where
  /-- The file is sealed, retained or shared. -/
  | marked {store : InputFileStore} {fileId : String} {metadata next : InputFileMetadata}
    {body : Bytes} (hentry : store.entries.get? fileId = some metadata)
    (howned : metadata.owned scope = true) (hbody : store.bodies.get? fileId = some body)
    (hmatches : metadata.reference.matches host body = true)
    (hreference : next.reference = metadata.reference) (hscope : next.scope = metadata.scope)
    (howners : metadata.owners ⊆ next.owners) (hsealed : next.sealed = true)
    (hretained : metadata.retained = true → next.retained = true) :
    FileChange host scope retiring store (store.save next)
  /-- The copy in the workspace is written or removed. -/
  | copied {store : InputFileStore} {fileId : String} {metadata : InputFileMetadata}
    {copies : Dict String WorkspaceCopy} (hentry : store.entries.get? fileId = some metadata)
    (howned : metadata.owned scope = true)
    (hothers : ∀ other, other ≠ fileId → copies.get? other = store.copies.get? other) :
    FileChange host scope retiring store { store with copies }
  | disowned {store : InputFileStore} {fileId : String} {metadata : InputFileMetadata}
    (hretiring : retiring = true) (hentry : store.entries.get? fileId = some metadata)
    (howned : metadata.owned scope = true) :
    FileChange host scope retiring store (store.save { metadata with
      owners := metadata.owners.filter fun owner => owner != scope.owner })
  | deleted {store : InputFileStore} {fileId : String} {metadata : InputFileMetadata}
    (hentry : store.entries.get? fileId = some metadata) (howned : metadata.owned scope = true)
    (hfinal : metadata.retained = false ∨ retiring = true ∧
      (metadata.owners.filter fun owner => owner != scope.owner) = []) :
    FileChange host scope retiring store (store.without fileId)

abbrev FileChanges (host : InputFileHost) (scope : InputFileScope) (retiring : Bool) :
    InputFileStore → InputFileStore → Prop :=
  Relation.ReflTransGen (FileChange host scope retiring)

theorem FileChange.sound (h : FileChange host scope retiring before after)
    (hsound : before.Sound host) : after.Sound host := by
  cases h with
  | marked hentry howned hbody hmatches hreference hscope howners hsealed hretained =>
    exact hsound.save hentry hbody hreference (fun _ => hmatches) fun _ => hsealed
  | copied hentry howned hothers => exact hsound.copies _
  | @disowned fileId metadata hretiring hentry howned =>
    rcases hsound.bodied fileId metadata hentry with ⟨body, hbody, -, hmatches⟩
    exact hsound.save hentry hbody rfl hmatches (hsound.delivered fileId metadata hentry)
  | deleted hentry howned hfinal => exact hsound.without _

theorem FileChanges.sound (h : FileChanges host scope retiring before after)
    (hsound : before.Sound host) : after.Sound host := by
  induction h with
  | refl => exact hsound
  | tail _ hchange ih => exact hchange.sound ih

/-! ## Files of other scopes -/

/-- Everything that is stored under the id is as it was. -/
structure SameFile (fileId : String) (before after : InputFileStore) : Prop where
  entry : after.entries.get? fileId = before.entries.get? fileId
  record : after.records.get? fileId = before.records.get? fileId
  body : after.bodies.get? fileId = before.bodies.get? fileId
  copy : after.copies.get? fileId = before.copies.get? fileId

theorem SameFile.refl (fileId : String) (store : InputFileStore) : SameFile fileId store store :=
  ⟨rfl, rfl, rfl, rfl⟩

theorem SameFile.trans {middle : InputFileStore} (h : SameFile fileId before middle)
    (hnext : SameFile fileId middle after) : SameFile fileId before after :=
  ⟨hnext.entry.trans h.entry, hnext.record.trans h.record, hnext.body.trans h.body,
    hnext.copy.trans h.copy⟩

theorem SameFile.save (hne : fileId ≠ next.reference.fileId) :
    SameFile fileId store (store.save next) :=
  ⟨Dict.get?_set_of_ne _ _ hne, Dict.get?_set_of_ne _ _ hne, rfl, rfl⟩

theorem FileChange.elsewhere (h : FileChange host scope retiring before after)
    (hsound : before.Sound host) :
    ∃ fileId metadata, before.entries.get? fileId = some metadata ∧
      metadata.owned scope = true ∧ ∀ other, other ≠ fileId → SameFile other before after := by
  cases h with
  | @marked fileId metadata next body hentry howned hbody hmatches hreference hscope howners
    hsealed hretained =>
    refine ⟨fileId, metadata, hentry, howned, fun other hne => SameFile.save ?_⟩
    rw [hreference, hsound.keyed fileId metadata hentry]
    exact hne
  | @copied fileId metadata copies hentry howned hothers =>
    exact ⟨fileId, metadata, hentry, howned, fun other hne => ⟨rfl, rfl, rfl, hothers other hne⟩⟩
  | @disowned fileId metadata hretiring hentry howned =>
    refine ⟨fileId, metadata, hentry, howned, fun other hne => SameFile.save ?_⟩
    rw [hsound.keyed fileId metadata hentry]
    exact hne
  | @deleted fileId metadata hentry howned hfinal =>
    refine ⟨fileId, metadata, hentry, howned, fun other hne => ?_⟩
    exact ⟨Dict.get?_erase_of_ne _ hne, Dict.get?_erase_of_ne _ hne,
      Dict.get?_erase_of_ne _ hne, rfl⟩

/-- The files that the scope does not own are as they were. -/
def ForeignKept (scope : InputFileScope) (before after : InputFileStore) : Prop :=
  ∀ fileId metadata, before.entries.get? fileId = some metadata →
    metadata.owned scope = false → SameFile fileId before after

theorem ForeignKept.refl (scope : InputFileScope) (store : InputFileStore) :
    ForeignKept scope store store :=
  fun fileId _ _ _ => SameFile.refl fileId store

theorem FileChanges.foreign (h : FileChanges host scope retiring before after)
    (hsound : before.Sound host) : ForeignKept scope before after := by
  induction h with
  | refl => exact ForeignKept.refl scope before
  | tail hchanges hchange ih =>
    intro fileId metadata hentry hforeign
    have hsame := ih fileId metadata hentry hforeign
    rcases hchange.elsewhere (FileChanges.sound hchanges hsound) with
      ⟨changed, found, hfound, howned, helsewhere⟩
    have hne : fileId ≠ changed := by
      rintro rfl
      rw [hsame.entry, hentry] at hfound
      cases hfound
      rw [hforeign] at howned
      cases howned
    exact hsame.trans (helsewhere fileId hne)

/-! ## Files that remain -/

/-- A file that is still there has its reference, its place and its body; marks are not removed. -/
def Survives (before after : InputFileStore) : Prop :=
  ∀ fileId metadata, after.entries.get? fileId = some metadata →
    ∃ earlier, before.entries.get? fileId = some earlier ∧
      metadata.reference = earlier.reference ∧ metadata.scope = earlier.scope ∧
      (earlier.sealed = true → metadata.sealed = true) ∧
      (earlier.retained = true → metadata.retained = true) ∧
      after.bodies.get? fileId = before.bodies.get? fileId

theorem Survives.refl (store : InputFileStore) : Survives store store :=
  fun _ metadata h => ⟨metadata, h, rfl, rfl, id, id, rfl⟩

theorem Survives.trans {middle : InputFileStore} (h : Survives before middle)
    (hnext : Survives middle after) : Survives before after := by
  intro fileId metadata hmetadata
  rcases hnext fileId metadata hmetadata with
    ⟨between, hbetween, hreference, hscope, hsealed, hretained, hbody⟩
  rcases h fileId between hbetween with
    ⟨earlier, hearlier, hreference', hscope', hsealed', hretained', hbody'⟩
  exact ⟨earlier, hearlier, hreference.trans hreference', hscope.trans hscope',
    fun hmark => hsealed (hsealed' hmark), fun hmark => hretained (hretained' hmark),
    hbody.trans hbody'⟩

theorem Survives.save (hsound : store.Sound host)
    (hentry : store.entries.get? fileId = some metadata)
    (hreference : next.reference = metadata.reference) (hscope : next.scope = metadata.scope)
    (hsealed : metadata.sealed = true → next.sealed = true)
    (hretained : metadata.retained = true → next.retained = true) :
    Survives store (store.save next) := by
  intro other found hfound
  change (store.entries.set next.reference.fileId next).get? other = some found at hfound
  rw [hreference, hsound.keyed fileId metadata hentry, Dict.get?_set] at hfound
  by_cases hother : other = fileId
  · rw [if_pos hother] at hfound
    cases hfound
    subst hother
    exact ⟨metadata, hentry, hreference, hscope, hsealed, hretained, rfl⟩
  · rw [if_neg hother] at hfound
    exact ⟨found, hfound, rfl, rfl, id, id, rfl⟩

theorem FileChange.survives (h : FileChange host scope retiring before after)
    (hsound : before.Sound host) : Survives before after := by
  cases h with
  | marked hentry howned hbody hmatches hreference hscope howners hsealed hretained =>
    exact Survives.save hsound hentry hreference hscope (fun _ => hsealed) hretained
  | copied hentry howned hothers => exact Survives.refl before
  | disowned hretiring hentry howned => exact Survives.save hsound hentry rfl rfl id id
  | @deleted fileId metadata hentry howned hfinal =>
    intro other found hfound
    have hkept := InputFileStore.without_entry hfound
    exact ⟨found, hkept.2, rfl, rfl, id, id, Dict.get?_erase_of_ne _ hkept.1⟩

theorem FileChanges.survives (h : FileChanges host scope retiring before after)
    (hsound : before.Sound host) : Survives before after := by
  induction h with
  | refl => exact Survives.refl before
  | tail hchanges hchange ih =>
    exact ih.trans (hchange.survives (FileChanges.sound hchanges hsound))

/-! ## Retained files -/

/-- A retained file with the owner, the reference, the place and the body. -/
def InputFileStore.Holds (store : InputFileStore) (owner : String)
    (reference : InputFileReference) (place : InputFileScope) (body : Bytes) : Prop :=
  ∃ metadata, store.entries.get? reference.fileId = some metadata ∧
    metadata.reference = reference ∧ metadata.scope.place = place ∧ metadata.retained = true ∧
    owner ∈ metadata.owners ∧ store.bodies.get? reference.fileId = some body

/-- The scope retires this owner of a file at this place. -/
def Retires (scope : InputFileScope) (owner : String) (place : InputFileScope) : Prop :=
  scope.owner = owner ∧ scope.place = place

variable {owner : String} {reference : InputFileReference} {place : InputFileScope} {body : Bytes}

theorem InputFileStore.Holds.save (h : store.Holds owner reference place body)
    (hsound : store.Sound host) (hentry : store.entries.get? fileId = some metadata)
    (hreference : next.reference = metadata.reference) (hscope : next.scope = metadata.scope)
    (hretained : metadata.retained = true → next.retained = true)
    (howner : reference.fileId = fileId → owner ∈ metadata.owners → owner ∈ next.owners) :
    (store.save next).Holds owner reference place body := by
  rcases h with ⟨found, hfound, hsame, hplace, hmark, hmember, hbody⟩
  have hid : next.reference.fileId = fileId := by
    rw [hreference]
    exact hsound.keyed fileId metadata hentry
  by_cases hother : reference.fileId = fileId
  · rw [hother, hentry] at hfound
    cases hfound
    refine ⟨next, ?_, hreference.trans hsame, ?_, hretained hmark, howner hother hmember, hbody⟩
    · change (store.entries.set next.reference.fileId next).get? reference.fileId = some next
      rw [hid, hother, Dict.get?_set_self]
    · rw [hscope]
      exact hplace
  · refine ⟨found, ?_, hsame, hplace, hmark, hmember, hbody⟩
    change (store.entries.set next.reference.fileId next).get? reference.fileId = some found
    rw [hid, Dict.get?_set_of_ne _ _ hother]
    exact hfound

theorem InputFileMetadata.owned_iff {metadata : InputFileMetadata} {scope : InputFileScope} :
    metadata.owned scope = true ↔
      scope.owner ∈ metadata.owners ∧ metadata.scope.place = scope.place := by
  unfold InputFileMetadata.owned
  simp only [Bool.and_eq_true, List.contains_iff_mem, beq_iff_eq]

theorem FileChange.holds (h : FileChange host scope retiring before after)
    (hsound : before.Sound host) (hheld : before.Holds owner reference place body)
    (hstays : retiring = true → ¬Retires scope owner place) :
    after.Holds owner reference place body := by
  -- a file at the place of a retiring scope has another owner
  have hother : ∀ {fileId : String} {metadata : InputFileMetadata}, retiring = true →
      before.entries.get? fileId = some metadata → metadata.owned scope = true →
      reference.fileId = fileId → owner ≠ scope.owner := by
    intro fileId metadata hretiring hentry howned hid heq
    rcases hheld with ⟨found, hfound, -, hplace, -⟩
    rw [hid, hentry] at hfound
    cases hfound
    have hsame := (InputFileMetadata.owned_iff.mp howned).2
    exact hstays hretiring ⟨heq.symm, hsame.symm.trans hplace⟩
  cases h with
  | marked hentry howned hbody hmatches hreference hscope howners hsealed hretained =>
    exact hheld.save hsound hentry hreference hscope hretained fun _ hmember => howners hmember
  | copied hentry howned hothers => exact hheld
  | @disowned fileId metadata hretiring hentry howned =>
    refine hheld.save hsound hentry rfl rfl id ?_
    intro hid hmember
    rw [List.mem_filter, bne_iff_ne]
    exact ⟨hmember, hother hretiring hentry howned hid⟩
  | @deleted fileId metadata hentry howned hfinal =>
    have hne : reference.fileId ≠ fileId := by
      intro hid
      rcases hheld with ⟨found, hfound, -, -, hmark, hmember, -⟩
      rw [hid, hentry] at hfound
      cases hfound
      rcases hfinal with hunretained | ⟨hretiring, hempty⟩
      · rw [hmark] at hunretained
        cases hunretained
      · have hkept : owner ∈ metadata.owners.filter fun other => other != scope.owner := by
          rw [List.mem_filter, bne_iff_ne]
          exact ⟨hmember, hother hretiring hentry howned hid⟩
        rw [hempty] at hkept
        cases hkept
    rcases hheld with ⟨found, hfound, hsame, hplace, hmark, hmember, hbody⟩
    exact ⟨found, (Dict.get?_erase_of_ne _ hne).trans hfound, hsame, hplace, hmark, hmember,
      (Dict.get?_erase_of_ne _ hne).trans hbody⟩

theorem FileChanges.holds (h : FileChanges host scope retiring before after)
    (hsound : before.Sound host) (hheld : before.Holds owner reference place body)
    (hstays : retiring = true → ¬Retires scope owner place) :
    after.Holds owner reference place body := by
  induction h with
  | refl => exact hheld
  | tail hchanges hchange ih => exact hchange.holds (FileChanges.sound hchanges hsound) ih hstays

end HarnessControl.Harnesses
