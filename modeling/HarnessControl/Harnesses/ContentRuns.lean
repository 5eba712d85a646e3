import HarnessControl.Harnesses.ContentReopening
import HarnessControl.Library.Transition

/-!
# Runs of the content store

A store is opened on a directory, or on none, and publishes, reads and lets time pass.  What a read
gives back is verified against the digest in the reference, once for each state of the file.
-/

namespace HarnessControl.Harnesses

open HarnessControl.Library HarnessControl.Protocol

namespace ContentStore

variable {Stamp : Type} {limits : ContentLimits} {host : ContentHost} {store : ContentStore Stamp}

/-! ## Bodies and their digests -/

/-- Bodies have the digests that their references state, the verified ones in their files too. -/
structure SoundEntry (host : ContentHost) (directory : Option (Dict String (DiskFile Stamp)))
    (id : String) (entry : ContentEntry Stamp) : Prop where
  contentId : entry.metadata.reference.contentId = id
  body : ∀ bytes, entry.bytes = some bytes →
    host.sha256 bytes = entry.metadata.reference.sha256 ∧ bytes.length = entry.byteLength
  verified : ∀ files file, directory = some files → files.get? (binFile id) = some file →
    entry.verifiedDiskSignature = some file.signature →
      host.sha256 file.bytes = entry.metadata.reference.sha256

def Sound (host : ContentHost) (store : ContentStore Stamp) : Prop :=
  ∀ id entry, store.entries.get? id = some entry → SoundEntry host store.directory id entry

theorem SoundEntry.part {part whole : Option (Dict String (DiskFile Stamp))} {id : String}
    {entry : ContentEntry Stamp} (h : SoundEntry host whole id entry) (hpart : PartOf part whole) :
    SoundEntry host part id entry where
  contentId := h.contentId
  body := h.body
  verified := by
    intro files file hfiles hfile hsignature
    obtain ⟨others, hothers, hsame⟩ := hpart files hfiles
    exact h.verified others file hothers (hsame _ _ hfile) hsignature

theorem Sound.prune (h : Sound host store) (incoming : Nat) :
    Sound host (store.prune limits incoming) := fun id entry hentry =>
  (h id entry (prune_get? hentry)).part (prune_part limits incoming store)

/-! ## The construction -/

theorem loadEntries_get? {parse : List UInt8 → Option ContentMetadata}
    {files : Dict String (DiskFile Stamp)} {id : String} {entry : ContentEntry Stamp}
    (h : (loadEntries parse files).get? id = some entry) :
    entry.metadata.reference.contentId = id ∧ entry.bytes = none ∧
      entry.verifiedDiskSignature = none := by
  unfold loadEntries at h
  generalize files.entries = listing at h
  have hnone : ∀ id entry, (Dict.empty : Dict String (ContentEntry Stamp)).get? id = some entry →
      entry.metadata.reference.contentId = id ∧ entry.bytes = none ∧
        entry.verifiedDiskSignature = none := nofun
  generalize Dict.empty = entries at h hnone
  induction listing generalizing entries with
  | nil => exact hnone id entry h
  | cons file rest ih =>
    apply ih _ h
    intro other found hfound
    unfold loadFile at hfound
    split at hfound
    · exact hnone other found hfound
    · rw [Dict.get?_set] at hfound
      split at hfound
      · rename_i heq
        obtain rfl := Option.some.inj hfound
        exact ⟨heq.symm, rfl, rfl⟩
      · exact hnone other found hfound

theorem construct_justified_iff (limits : ContentLimits)
    (parse : List UInt8 → Option ContentMetadata) (files : Dict String (DiskFile Stamp))
    (now : Int) :
    Justified limits 0 0 now (loadEntries parse files)
        (construct limits parse (some files) now).entries ↔
      ¬Crowded limits now (loadEntries parse files) :=
  prune_zero_iff limits ⟨loadEntries parse files, _, now⟩

theorem construct_sound (limits : ContentLimits) (host : ContentHost)
    (directory : Option (Dict String (DiskFile Stamp))) (now : Int) :
    Sound host (construct limits host.parse directory now) := by
  cases directory with
  | none => exact nofun
  | some files =>
    apply Sound.prune
    intro id entry hentry
    obtain ⟨hid, hbytes, hverified⟩ := loadEntries_get? hentry
    exact
      { contentId := hid
        body := by
          rw [hbytes]
          exact nofun
        verified := by
          rw [hverified]
          exact nofun }

/-! ## The owner -/

variable {sessionId contentId : String}

theorem require_ok {entry : ContentEntry Stamp}
    (h : store.require sessionId contentId = .ok entry) :
    store.entries.get? contentId = some entry ∧ entry.metadata.scope.sessionId = sessionId ∧
      store.now < entry.expiresAt := by
  unfold require at h
  split at h
  · cases h
  · split at h
    · cases h
    · rename_i found hfound
      split at h
      · cases h
      · rename_i howned
        rw [not_or, not_not, not_le] at howned
        obtain rfl := Except.ok.inj h
        exact ⟨hfound, howned⟩

theorem require_eq {entry : ContentEntry Stamp}
    (hid : sha256Hex contentId = true) (hentry : store.entries.get? contentId = some entry)
    (hsession : entry.metadata.scope.sessionId = sessionId) (hlive : store.now < entry.expiresAt) :
    store.require sessionId contentId = .ok entry := by
  have howned : ¬(entry.metadata.scope.sessionId ≠ sessionId ∨ entry.expiresAt ≤ store.now) := by
    rw [not_or, not_not, not_le]
    exact ⟨hsession, hlive⟩
  unfold require
  rw [hid, hentry]
  exact if_neg howned

/-! ## Storing -/

/-- The bytes that are published. -/
def ContentValue.body (value : ContentValue) : List UInt8 := (value.encoded.map Prod.snd).getD []

/-- The entry of an object that was just published, and the directory it was written to. -/
structure Stored (host : ContentHost) (pruned after : ContentStore Stamp) (body : List UInt8)
    (entry : ContentEntry Stamp) : Prop where
  entries : after.entries = pruned.entries.set entry.metadata.reference.contentId entry
  now : after.now = pruned.now
  unverified : entry.verifiedDiskSignature = none
  place : entry.bytes = some body ∧ after.directory = pruned.directory ∨
    entry.bytes = none ∧ ∃ files stamp, pruned.directory = some files ∧
      after.directory = some (writeFile (jsonFile entry.metadata.reference.contentId)
        (host.stringify entry.metadata) stamp
        (writeFile (binFile entry.metadata.reference.contentId) body stamp files))

theorem publish_cases (scope : ContentScope) (value : ContentValue)
    (publication : Publication Stamp) :
    (∃ error, store.publish limits host scope value publication = (store, .error error)) ∨
    (∃ left error, store.publish limits host scope value publication = (left, .error error) ∧
      left.entries = (prune limits value.body.length store).entries ∧
      PartOf left.directory (prune limits value.body.length store).directory) ∨
    ∃ after entry, store.publish limits host scope value publication =
        (after, .ok entry.metadata.reference) ∧
      Stored host (prune limits value.body.length store) after value.body entry ∧
      entry.metadata.scope = scope ∧
      entry.metadata.reference.contentId = drawnId host scope publication.uuid ∧
      entry.metadata.reference.sha256 = host.sha256 value.body ∧
      entry.metadata.reference.byteLength = value.body.length ∧
      value.body.length ≤ limits.maxObjectBytes ∧
      entry.metadata.reference.expiresAt = store.now + 24 * 60 * 60000 ∧
      contentReferenceSchema entry.metadata.reference = true := by
  unfold publish ContentValue.body
  cases value.encoded with
  | none => exact Or.inl ⟨_, rfl⟩
  | some encoded =>
    obtain ⟨format, bytes⟩ := encoded
    dsimp only [Option.map_some, Option.getD_some]
    split
    · exact Or.inl ⟨_, rfl⟩
    · rename_i hsize
      right
      split
      · exact Or.inl ⟨_, _, rfl, rfl, PartOf.refl _⟩
      · rename_i hschema
        rw [Bool.not_eq_true, Bool.not_eq_false'] at hschema
        let reference : ContentReference := ⟨drawnId host scope publication.uuid,
          host.sha256 bytes, bytes.length, format, store.now + 24 * 60 * 60000⟩
        cases hdirectory : (prune limits bytes.length store).directory with
        | none =>
          right
          exact ⟨_, ⟨⟨scope, reference⟩, some bytes, none⟩, rfl,
            ⟨rfl, rfl, rfl, Or.inl ⟨rfl, hdirectory.symm⟩⟩, rfl, rfl, rfl, rfl,
            not_lt.mp hsize, rfl, hschema⟩
        | some files =>
          dsimp only
          split
          · left
            refine ⟨_, _, rfl, rfl, ?_⟩
            rw [← hdirectory]
            exact removeFiles_part _ _
          · right
            exact ⟨_, ⟨⟨scope, reference⟩, none, none⟩, rfl,
              ⟨rfl, rfl, rfl, Or.inr ⟨rfl, files, publication.stamp, hdirectory, rfl⟩⟩, rfl, rfl,
              rfl, rfl, not_lt.mp hsize, rfl, hschema⟩

theorem writeFile_other {name file : String} (hne : name ≠ file) (bytes : List UInt8)
    (stamp : Stamp) (files : Dict String (DiskFile Stamp)) :
    (writeFile file bytes stamp files).get? name = files.get? name := by
  unfold writeFile
  split <;> exact Dict.get?_set_of_ne _ _ hne

theorem writeFile_new {file : String} {files : Dict String (DiskFile Stamp)}
    (hnew : files.get? file = none) (bytes : List UInt8) (stamp : Stamp) :
    (writeFile file bytes stamp files).get? file = some ⟨bytes, false, 1, stamp⟩ := by
  unfold writeFile
  rw [hnew]
  exact Dict.get?_set_self _ _ _

variable {pruned after : ContentStore Stamp}

theorem Stored.sound {body : List UInt8}
    {entry : ContentEntry Stamp} (h : Stored host pruned after body entry)
    (hsound : Sound host pruned) (hdigest : entry.metadata.reference.sha256 = host.sha256 body)
    (hlength : entry.metadata.reference.byteLength = body.length) : Sound host after := by
  intro id other hother
  rw [h.entries, Dict.get?_set] at hother
  split at hother
  · rename_i hid
    obtain rfl := Option.some.inj hother
    exact
      { contentId := hid.symm
        body := by
          intro bytes hbytes
          obtain ⟨hstored, -⟩ | ⟨hnone, -⟩ := h.place
          · rw [hstored] at hbytes
            obtain rfl := Option.some.inj hbytes
            exact ⟨hdigest.symm, hlength.symm⟩
          · rw [hnone] at hbytes
            cases hbytes
        verified := by
          rw [h.unverified]
          intro directory file _ _ hsignature
          cases hsignature }
  · rename_i hid
    have hown := hsound id other hother
    obtain ⟨-, hdirectory⟩ | ⟨-, files, stamp, hfiles, hdirectory⟩ := h.place
    · rw [hdirectory]
      exact hown
    · refine ⟨hown.contentId, hown.body, ?_⟩
      intro written file hwritten hfile
      rw [hdirectory] at hwritten
      obtain rfl := Option.some.inj hwritten
      rw [writeFile_other (jsonFile_ne_binFile _ _).symm, writeFile_other (mt binFile_inj.mp hid)]
        at hfile
      exact hown.verified files file hfiles hfile

/-! ## Steps -/

variable [DecidableEq Stamp]

inductive ContentAction (Stamp : Type) where
  | clock (now : Int)
  | publish (scope : ContentScope) (value : ContentValue) (publication : Publication Stamp)
  | read (sessionId contentId : String) (offset limit : Int)

def step (limits : ContentLimits) (host : ContentHost) (store : ContentStore Stamp) :
    ContentAction Stamp → ContentStore Stamp
  | .clock now => { store with now := now }
  | .publish scope value publication => (store.publish limits host scope value publication).1
  | .read sessionId contentId offset limit => (store.read host sessionId contentId offset limit).1

/-- The id that is drawn is new. -/
def Fresh (host : ContentHost) (store : ContentStore Stamp) : ContentAction Stamp → Prop
  | .publish scope _ publication =>
    let id := drawnId host scope publication.uuid
    store.entries.get? id = none ∧ ∀ files, store.directory = some files →
      files.get? (binFile id) = none ∧ files.get? (jsonFile id) = none
  | _ => True

/-! ## Reading -/

theorem verify_ok {directory : Option (Dict String (DiskFile Stamp))} {id : String}
    {entry verified : ContentEntry Stamp} {bytes : List UInt8}
    (hsound : SoundEntry host directory id entry)
    (h : verify host.sha256 id entry directory = .ok (bytes, verified)) :
    host.sha256 bytes = entry.metadata.reference.sha256 ∧ bytes.length = entry.byteLength ∧
      SoundEntry host directory id verified := by
  unfold verify at h
  cases hfile : directory.bind fun files => files.get? (binFile id) with
  | none =>
    rw [hfile] at h
    cases h
  | some file =>
    rw [hfile] at h
    obtain ⟨files, hfiles, hget⟩ := Option.bind_eq_some_iff.mp hfile
    dsimp only at h
    split at h
    · cases h
    · split at h
      · cases h
      · rename_i hshape
        rw [not_or, not_not, not_not] at hshape
        split at h
        · rename_i hsignature
          obtain ⟨rfl, rfl⟩ := Prod.mk.inj (Except.ok.inj h)
          exact ⟨hsound.verified files file hfiles hget hsignature, hshape.2, hsound⟩
        · split at h
          · cases h
          · rename_i hdigest
            rw [ne_eq, not_not] at hdigest
            obtain ⟨rfl, rfl⟩ := Prod.mk.inj (Except.ok.inj h)
            refine ⟨hdigest, hshape.2, hsound.contentId, hsound.body, ?_⟩
            intro others other hothers hother _
            rw [hfiles] at hothers
            obtain rfl := Option.some.inj hothers
            rw [hget] at hother
            obtain rfl := Option.some.inj hother
            exact hdigest

/-- What a read that succeeds gives back. -/
def ReadsOwn (host : ContentHost) (sessionId contentId : String) (offset limit : Int)
    (store : ContentStore Stamp) (chunk : ContentChunk) : Prop :=
  ∃ entry body, store.entries.get? contentId = some entry ∧
    entry.metadata.scope.sessionId = sessionId ∧ store.now < entry.expiresAt ∧
    entry.metadata.reference.contentId = contentId ∧
    host.sha256 body = entry.metadata.reference.sha256 ∧
    body.length = entry.metadata.reference.byteLength ∧
    chunk = chunkOf entry.metadata.reference body offset.toNat limit.toNat

theorem read_sound (hsound : Sound host store) (sessionId contentId : String)
    (offset limit : Int) :
    (∀ chunk, (store.read host sessionId contentId offset limit).2 = .ok chunk →
      ReadsOwn host sessionId contentId offset limit store chunk) ∧
    Sound host (store.read host sessionId contentId offset limit).1 ∧
    ∀ id, (store.entries.get? id).isSome →
      ((store.read host sessionId contentId offset limit).1.entries.get? id).isSome := by
  unfold ContentStore.read
  split
  · exact ⟨fun _ h => (by cases h), hsound, fun _ h => h⟩
  · cases hrequire : store.require sessionId contentId with
    | error error => exact ⟨fun _ h => (by cases h), hsound, fun _ h => h⟩
    | ok entry =>
      obtain ⟨hentry, hsession, hlive⟩ := require_ok hrequire
      have hown := hsound contentId entry hentry
      dsimp only
      split
      · exact ⟨fun _ h => (by cases h), hsound, fun _ h => h⟩
      · cases hbytes : entry.bytes with
        | some body =>
          refine ⟨?_, hsound, fun _ h => h⟩
          intro chunk hchunk
          obtain rfl := Except.ok.inj hchunk
          obtain ⟨hdigest, hlength⟩ := hown.body body hbytes
          exact ⟨entry, body, hentry, hsession, hlive, hown.contentId, hdigest, hlength, rfl⟩
        | none =>
          cases hverify : verify host.sha256 contentId entry store.directory with
          | error error => exact ⟨fun _ h => (by cases h), hsound, fun _ h => h⟩
          | ok found =>
            obtain ⟨body, verified⟩ := found
            obtain ⟨hdigest, hlength, hverified⟩ := verify_ok hown hverify
            refine ⟨?_, ?_, ?_⟩
            · intro chunk hchunk
              obtain rfl := Except.ok.inj hchunk
              exact ⟨entry, body, hentry, hsession, hlive, hown.contentId, hdigest, hlength,
                rfl⟩
            · intro id other hother
              dsimp only at hother
              rw [Dict.get?_set] at hother
              split at hother
              · rename_i heq
                rw [heq, ← Option.some.inj hother]
                exact hverified
              · exact hsound id other hother
            · intro id hid
              dsimp only
              rw [Dict.get?_set]
              split
              · rfl
              · exact hid

theorem read_eq {entry : ContentEntry Stamp} {body : List UInt8}
    (hid : sha256Hex contentId = true) (hentry : store.entries.get? contentId = some entry)
    (hsession : entry.metadata.scope.sessionId = sessionId) (hlive : store.now < entry.expiresAt)
    (hbody : entry.bytes = some body ∨ entry.bytes = none ∧
      ∃ verified, verify host.sha256 contentId entry store.directory = .ok (body, verified))
    {offset limit : Nat} (hoffset : offset ≤ entry.byteLength) (hlimit : 1 ≤ limit)
    (hmax : limit ≤ 64 * 1024) :
    (store.read host sessionId contentId offset limit).2 =
      .ok (chunkOf entry.metadata.reference body offset limit) := by
  unfold ContentStore.read
  rw [if_neg (by omega), require_eq hid hentry hsession hlive]
  dsimp only
  have hwithin : ¬((entry.metadata.reference.byteLength : Int) < offset) := by
    have hle : offset ≤ entry.metadata.reference.byteLength := hoffset
    omega
  rw [if_neg hwithin]
  obtain hbytes | ⟨hbytes, verified, hverify⟩ := hbody
  · rw [hbytes]
    rfl
  · rw [hbytes, hverify]
    rfl

/-! ## Publishing -/

/-- Where an object was just published, the store is within its bounds, and the object is readable
until it expires. -/
structure Published (limits : ContentLimits) (host : ContentHost) (after : ContentStore Stamp)
    (sessionId : String) (body : List UInt8) (reference : ContentReference) : Prop where
  total : after.entries.total ContentEntry.byteLength ≤ limits.maxTotalBytes
  count : after.entries.size ≤ 1024
  live : after.now < reference.expiresAt
  readable : ∀ time < reference.expiresAt, ∀ offset limit : Nat, offset ≤ body.length →
    1 ≤ limit → limit ≤ 64 * 1024 →
      (({ after with now := time } : ContentStore Stamp).read host sessionId reference.contentId
        offset limit).2 = .ok (chunkOf reference body offset limit)


theorem Stored.found {body : List UInt8}
    {entry : ContentEntry Stamp} (h : Stored host pruned after body entry)
    (hnew : ∀ files, pruned.directory = some files →
      files.get? (binFile entry.metadata.reference.contentId) = none)
    (hdigest : entry.metadata.reference.sha256 = host.sha256 body)
    (hlength : entry.metadata.reference.byteLength = body.length) :
    entry.bytes = some body ∨ entry.bytes = none ∧ ∃ verified,
      verify host.sha256 entry.metadata.reference.contentId entry after.directory =
        .ok (body, verified) := by
  obtain ⟨hbytes, -⟩ | ⟨hbytes, files, stamp, hfiles, hdirectory⟩ := h.place
  · exact Or.inl hbytes
  · refine Or.inr ⟨hbytes, { entry with verifiedDiskSignature := some (body.length, stamp) }, ?_⟩
    unfold verify
    rw [hdirectory, Option.bind_some, writeFile_other (jsonFile_ne_binFile _ _).symm,
      writeFile_new (hnew files hfiles)]
    dsimp only
    have hshape : ¬((1 : Nat) ≠ 1 ∨ body.length ≠ entry.byteLength) := by
      rw [not_or, not_not, not_not]
      exact ⟨rfl, hlength.symm⟩
    rw [if_neg nofun, if_neg hshape, h.unverified, if_neg nofun, hdigest]
    exact if_neg (not_not.mpr rfl)

theorem Stored.published {body : List UInt8}
    {entry : ContentEntry Stamp} (h : Stored host pruned after body entry)
    (hroom : pruned.entries.total ContentEntry.byteLength + body.length ≤ limits.maxTotalBytes ∧
      pruned.entries.size < 1024)
    (hnew : pruned.entries.get? entry.metadata.reference.contentId = none)
    (hfiles : ∀ files, pruned.directory = some files →
      files.get? (binFile entry.metadata.reference.contentId) = none)
    (hdigest : entry.metadata.reference.sha256 = host.sha256 body)
    (hlength : entry.metadata.reference.byteLength = body.length)
    (hschema : contentReferenceSchema entry.metadata.reference = true)
    (hexpires : entry.metadata.reference.expiresAt = pruned.now + 24 * 60 * 60000) :
    Published limits host after entry.metadata.scope.sessionId body entry.metadata.reference := by
  obtain ⟨hsize, htotal⟩ := size_set_of_none hnew entry
  have hid : sha256Hex entry.metadata.reference.contentId = true := by
    unfold contentReferenceSchema at hschema
    rw [Bool.and_eq_true, Bool.and_eq_true, Bool.and_eq_true] at hschema
    exact hschema.1.1.1
  have hbytes : entry.byteLength = body.length := hlength
  refine ⟨?_, ?_, ?_, ?_⟩
  · rw [h.entries, htotal, hbytes]
    exact hroom.1
  · rw [h.entries, hsize]
    exact hroom.2
  · rw [h.now, hexpires]
    omega
  · intro time htime offset limit hoffset hlimit hmax
    have hentry : after.entries.get? entry.metadata.reference.contentId = some entry := by
      rw [h.entries]
      exact Dict.get?_set_self _ _ _
    exact @read_eq _ host { after with now := time } _ _ _ entry body hid hentry rfl htime
      (h.found hfiles hdigest hlength) _ _ (hbytes ▸ hoffset) hlimit hmax

/-! ## What every step upholds -/

/-- An unexpired object goes only to make room, what was published is within the bounds and
readable, and what is read is the owner's. -/
def Upholds (limits : ContentLimits) (host : ContentHost) (store : ContentStore Stamp) :
    ContentAction Stamp → Prop
  | .clock _ => True
  | .publish scope value publication =>
    let result := store.publish limits host scope value publication
    Justified limits value.body.length 1 store.now store.entries result.1.entries ∧
      ∀ reference, result.2 = .ok reference →
        Published limits host result.1 scope.sessionId value.body reference
  | .read sessionId contentId offset limit =>
    let result := store.read host sessionId contentId offset limit
    (∀ id, (store.entries.get? id).isSome → (result.1.entries.get? id).isSome) ∧
      ∀ chunk, result.2 = .ok chunk →
        ReadsOwn host sessionId contentId offset limit store chunk

theorem publish_upholds (hsound : Sound host store) (scope : ContentScope) (value : ContentValue)
    (publication : Publication Stamp)
    (hfresh : Fresh host store (.publish scope value publication)) :
    Upholds limits host store (.publish scope value publication) ∧
      Sound host (store.step limits host (.publish scope value publication)) := by
  have hpruned : Sound host (prune limits value.body.length store) := hsound.prune _
  show (Justified limits value.body.length 1 store.now store.entries
      (store.publish limits host scope value publication).1.entries ∧
      ∀ reference, (store.publish limits host scope value publication).2 = .ok reference →
        Published limits host (store.publish limits host scope value publication).1
          scope.sessionId value.body reference) ∧
    Sound host (store.publish limits host scope value publication).1
  obtain ⟨error, hresult⟩ | ⟨left, error, hresult, hentries, hpart⟩ |
    ⟨after, entry, hresult, hstored, hscope, hid, hdigest, hlength, hsize, hexpires, hschema⟩ :=
    @publish_cases _ limits host store scope value publication
  · rw [hresult]
    refine ⟨⟨?_, nofun⟩, hsound⟩
    intro front id entry later horder hgone
    dsimp only at hgone
    rw [get?_of_order horder] at hgone
    cases hgone
  · rw [hresult]
    refine ⟨⟨?_, nofun⟩, ?_⟩
    · dsimp only
      rw [hentries]
      exact prune_justified limits _ store
    · intro id entry hentry
      dsimp only at hentry
      rw [hentries] at hentry
      exact (hpruned id entry hentry).part hpart
  · rw [hresult]
    refine ⟨⟨?_, ?_⟩, hstored.sound hpruned hdigest hlength⟩
    · intro front id evicted later horder hgone
      dsimp only at hgone
      rw [hstored.entries, Dict.get?_set] at hgone
      split at hgone
      · cases hgone
      · exact prune_justified limits _ store front id evicted later horder hgone
    · intro reference hreference
      obtain rfl := Except.ok.inj hreference
      obtain ⟨hnew, hfiles⟩ := hfresh
      rw [← hid] at hnew hfiles
      have hle := limits.object_le_total
      rw [← hscope]
      apply hstored.published (prune_room (by omega)) _ _ hdigest hlength hschema
      · rw [hexpires, prune_now]
      · by_contra hkept
        obtain ⟨kept, hkept⟩ := Option.ne_none_iff_exists'.mp hkept
        rw [prune_get? hkept] at hnew
        cases hnew
      · intro files hdirectory
        obtain ⟨others, hothers, hsame⟩ := prune_part limits _ store files hdirectory
        by_contra hkept
        obtain ⟨kept, hkept⟩ := Option.ne_none_iff_exists'.mp hkept
        have hbin := (hfiles others hothers).1
        rw [hsame _ kept hkept] at hbin
        cases hbin

theorem step_upholds (hsound : Sound host store) (action : ContentAction Stamp)
    (hfresh : Fresh host store action) :
    Upholds limits host store action ∧ Sound host (store.step limits host action) := by
  cases action with
  | clock now => exact ⟨trivial, hsound⟩
  | publish scope value publication => exact publish_upholds hsound scope value publication hfresh
  | read sessionId contentId offset limit =>
    obtain ⟨hown, hafter, hkept⟩ := read_sound hsound sessionId contentId offset limit
    exact ⟨⟨hkept, hown⟩, hafter⟩

/-- The construction takes nothing that would have fitted, and all runs from it uphold the rest. -/
def Keeps (limits : ContentLimits) (host : ContentHost)
    (directory : Option (Dict String (DiskFile Stamp))) (now : Int) : Prop :=
  let store := construct limits host.parse directory now
  (∀ files, directory = some files →
    Justified limits 0 0 now (loadEntries host.parse files) store.entries) ∧
  ∀ actions, Meets (step limits host) (Fresh host) store actions →
    Meets (step limits host) (Upholds limits host) store actions

/-- Only the construction of a crowded store takes an object too many. -/
theorem content_kept (limits : ContentLimits) (host : ContentHost)
    (directory : Option (Dict String (DiskFile Stamp))) (now : Int) :
    Keeps limits host directory now ↔
      ∀ files, directory = some files → ¬Crowded limits now (loadEntries host.parse files) := by
  have hruns : ∀ actions,
      Meets (step limits host) (Fresh host) (construct limits host.parse directory now) actions →
        Meets (step limits host) (Upholds limits host)
          (construct limits host.parse directory now) actions := by
    intro actions hfresh
    have hsound : Always (step limits host) (Sound host)
        (construct limits host.parse directory now) actions :=
      always_of_meets (fun store action hsound hfresh => (step_upholds hsound action hfresh).2)
        (construct_sound limits host directory now) hfresh
    exact Meets.of_always (fun store action hsound hfresh =>
      (step_upholds hsound action hfresh).1) hsound hfresh
  unfold Keeps
  dsimp only
  rw [and_iff_left hruns]
  constructor
  · rintro hjustified files rfl
    exact (construct_justified_iff limits host.parse files now).mp (hjustified files rfl)
  · rintro hcrowded files rfl
    exact (construct_justified_iff limits host.parse files now).mpr (hcrowded files rfl)

/-! ## A crowded directory -/

/-- 64 hexadecimal digits, of which the last three count. -/
def countedId (n : Nat) : String :=
  String.ofList (List.replicate 61 '0' ++
    [Nat.digitChar (n / 256 % 16), Nat.digitChar (n / 16 % 16), Nat.digitChar (n % 16)])

theorem digitChar_hex : ∀ n : Fin 16, isLowerHex (Nat.digitChar n) = true := by decide

theorem digitChar_inj : ∀ n m : Fin 16, Nat.digitChar n = Nat.digitChar m → n = m := by decide

theorem digitChar_mod {n m : Nat} (h : Nat.digitChar (n % 16) = Nat.digitChar (m % 16)) :
    n % 16 = m % 16 :=
  congrArg Fin.val (digitChar_inj ⟨n % 16, Nat.mod_lt _ (by decide)⟩
    ⟨m % 16, Nat.mod_lt _ (by decide)⟩ h)

theorem countedId_inj {n m : Nat} (hn : n < 4096) (hm : m < 4096)
    (h : countedId n = countedId m) : n = m := by
  have hlist := List.append_cancel_left (String.ofList_inj.mp h)
  obtain ⟨hhigh, hrest⟩ := List.cons.inj hlist
  obtain ⟨hmiddle, hlast⟩ := List.cons.inj hrest
  have h2 := digitChar_mod hhigh
  have h1 := digitChar_mod hmiddle
  have h0 := digitChar_mod (List.cons.inj hlast).1
  omega

theorem countedId_hex (n : Nat) : sha256Hex (countedId n) = true := by
  have hdigit : ∀ m, isLowerHex (Nat.digitChar (m % 16)) = true := fun m =>
    digitChar_hex ⟨m % 16, Nat.mod_lt _ (by decide)⟩
  unfold sha256Hex countedId
  rw [String.toList_ofList, List.all_append, List.length_append, List.length_replicate]
  simp only [List.all_cons, hdigit]
  rfl

def letterDigest : String := "2d711642b726b04401627ca9fbac32f5c8530fb1903cc4db02258717921a4881"

def letterMetadata (id : String) : ContentMetadata :=
  ⟨⟨"session", "provider", "binding", "workspace", "/workspace"⟩,
    ⟨id, letterDigest, 1, .text, 1893456000000⟩⟩

/-- The JSON of the metadata, in front of the id and behind it. -/
def letterText : List Char × List Char :=
  (("\x7b\"scope\":\x7b\"session_id\":\"session\",\"provider_instance_id\":\"provider\"," ++
    "\"provider_binding_hash\":\"binding\",\"workspace_id\":\"workspace\"," ++
    "\"cwd\":\"/workspace\"\x7d,\"reference\":\x7b\"content_id\":\"").toList,
    ("\",\"sha256\":\"" ++ letterDigest ++ "\",\"byte_length\":1,\"format\":\"text\"," ++
    "\"expires_at\":\"2030-01-01T00:00:00.000Z\"\x7d\x7d").toList)

def letterJson (metadata : ContentMetadata) : List UInt8 :=
  Utf8.encode (letterText.1 ++ (metadata.reference.contentId.toList ++ letterText.2))

def letterParse (bytes : List UInt8) : Option ContentMetadata :=
  some (letterMetadata (String.ofList (((Utf8.decode bytes).drop letterText.1.length).take 64)))

theorem letterParse_json {id : String} (hid : sha256Hex id = true) :
    letterParse (letterJson (letterMetadata id)) = some (letterMetadata id) := by
  have hread : (letterMetadata id).reference.contentId = id := rfl
  unfold letterParse letterJson
  rw [Utf8.decode_encode, List.drop_left, hread, List.take_left' (length_of_hex hid),
    String.ofList_toList]

def letterHost : ContentHost := ⟨fun _ => letterDigest, letterParse, letterJson⟩

def letterObject (n : Nat) : StoredObject where
  metadata := letterMetadata (countedId n)
  body := Utf8.encode ['x']
  schema := by
    show (sha256Hex (countedId n) && sha256Hex letterDigest && decide (1 ≤ contentMaxBytes) &&
      datetime 1893456000000) = true
    rw [countedId_hex]
    decide
  length := rfl

/-- 1024 objects of one byte each. -/
def letters : List StoredObject := (List.range 1024).map letterObject

theorem letters_nodup : (letters.map StoredObject.id).Nodup := by
  unfold letters
  rw [List.map_map]
  apply List.Nodup.map_on _ List.nodup_range
  intro n hn m hm h
  rw [List.mem_range] at hn hm
  exact countedId_inj (by omega) (by omega) h

theorem letters_parse : ∀ object ∈ letters,
    letterHost.parse (letterHost.stringify object.metadata) = some object.metadata := by
  intro object hobject
  unfold letters at hobject
  obtain ⟨n, -, rfl⟩ := List.mem_map.mp hobject
  have hmetadata : (letterObject n).metadata = letterMetadata (countedId n) := rfl
  rw [hmetadata]
  simp only [letterHost, letterParse_json (countedId_hex n)]

def letterLimits : ContentLimits := ⟨1, 1024, by decide, by decide, by decide, by decide⟩

/-- 1024 objects with 1024 bytes are within both bounds, but the construction drops one. -/
theorem crowded_construction :
    ¬Keeps letterLimits letterHost
      (some (objectDirectory letterHost.stringify () letters letters_nodup)) 0 := by
  intro hkeeps
  apply (construct_justified_iff _ _ _ _).mp (hkeeps.1 _ rfl)
  have hentries := @loadEntries_objects _ _ _ () _ letters_parse letters_nodup
  generalize loadEntries letterHost.parse
    (objectDirectory letterHost.stringify () letters letters_nodup) = entries at hentries ⊢
  have hmem : ∀ entry ∈ entries.entries,
      entry.2.expiresAt = 1893456000000 ∧ entry.2.byteLength = 1 := by
    rw [hentries]
    intro entry hentry
    obtain ⟨object, hobject, rfl⟩ := List.mem_map.mp hentry
    obtain ⟨n, -, rfl⟩ := List.mem_map.mp hobject
    exact ⟨rfl, rfl⟩
  have hsize : entries.size = 1024 := by
    unfold Dict.size
    rw [hentries, List.length_map, letters, List.length_map, List.length_range]
  have hbytes : entries.total ContentEntry.byteLength = 1024 := by
    have hones := List.map_eq_replicate_iff.mpr fun entry hentry => (hmem entry hentry).2
    unfold Dict.total
    rw [hones, List.sum_replicate_nat, Nat.mul_one]
    exact hsize
  apply crowded_of_full hsize _ hbytes.le
  intro entry hentry
  rw [(hmem entry hentry).1]
  decide

end ContentStore

end HarnessControl.Harnesses
