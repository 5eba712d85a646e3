import HarnessControl.Library.JsonText
import HarnessControl.Library.KeyedPages
import HarnessControl.Workspaces.AllowedFolders

/-!
# Browsing a folder

A page of the directories in a folder.  Links are followed while the page is filled, and the name of
the last directory on it is where the next page begins.
-/

namespace HarnessControl.Workspaces

open HarnessControl.Library HarnessControl.Library.Posix

/-! ## Entries -/

structure DirectoryEntry where
  name : FileName
  path : Path

def nameKey (name : Path) : List Nat := name.map UInt16.toNat

def Dirent.key (entry : Dirent) : List Nat := nameKey entry.name

def DirectoryEntry.key (item : DirectoryEntry) : List Nat := nameKey item.name

/-- There are no numbers in an entry. -/
def noNumerals : JsonText.Numerals Unit where
  text _ := []
  value _ := ()

def DirectoryEntry.json (item : DirectoryEntry) : JsonText.Value Unit :=
  .object [(Utf16.text "name", .string item.name), (Utf16.text "path", .string item.path)]

/-- `Buffer.byteLength(JSON.stringify(item))`. -/
def DirectoryEntry.bytes (item : DirectoryEntry) : Nat :=
  (Utf8.encode (JsonText.stringify noNumerals item.json)).length

def maxEntries : Nat := 200

def maxPageBytes : Nat := 64 * 1024

def ErrorCode.skipped (code : ErrorCode) : Bool :=
  [ErrorCode.ENOENT, .EACCES, .EPERM, .ELOOP].contains code

section

variable (system : FileSystem) (roots : List Path) (directory : Path)

/-- The body of the loop: the directory that an entry leads to, where it is in one of the roots. -/
def visit (entry : Dirent) : Except ErrorCode (Option DirectoryEntry) :=
  (system.realpath (join directory entry.name)).bind fun canonical =>
    if (roots.any fun root => contained system root canonical) = true then
      (system.isDirectory canonical).map fun found =>
        if found then some ⟨entry.name, canonical⟩ else none
    else .ok none

/-- When a request expires, and the readings of the clock while it is handled. -/
structure Times where
  expires_at : Int
  now : Nat → Int

def expired : Failure := .error "Folder request expired. Try again."

/-- The loop over the candidates. -/
def collect (times : Times) :
    Nat → List DirectoryEntry → Nat → List Dirent → Except Failure (List DirectoryEntry × Bool)
  | _, entries, _, [] => .ok (entries, false)
  | reading, entries, pageBytes, entry :: rest =>
    if times.expires_at ≤ times.now reading then .error expired
    else
      match visit system roots directory entry with
      | .error code =>
        if code.skipped then collect times (reading + 1) entries pageBytes rest
        else .error (.system code)
      | .ok none => collect times (reading + 1) entries pageBytes rest
      | .ok (some item) =>
        if entries.length = maxEntries ∨ maxPageBytes < pageBytes + item.bytes then
          .ok (entries, true)
        else
          collect times (reading + 1) (entries ++ [item]) (pageBytes + item.bytes) rest

end

/-! ## Requests -/

structure BrowseOperation where
  path : Option Path
  cursor : Option Path

structure DirectoryOutcome where
  path : Path
  parent : Option Path
  entries : List DirectoryEntry
  next_cursor : Option Path

/-- `!operation.cursor || entry.name > operation.cursor`. -/
def isNext (cursor : Option Path) (name : Path) : Bool :=
  cursor.all fun reached => reached == [] || decide (nameKey reached < nameKey name)

def candidates (cursor : Option Path) (listing : List Dirent) : List Dirent :=
  sortByKey Dirent.key <| listing.filter fun entry =>
    (entry.kind == .directory || entry.kind == .symbolicLink) && isNext cursor entry.name

def requestedPath (system : FileSystem) (roots : List Path) (path : Option Path) : Path :=
  path.getD <|
    if (roots.any fun root => contained system root system.homedir) = true then system.homedir
    else roots.headD []

/-- The answer of a page: the parent folder stays in the roots. -/
def directoryOutcome (system : FileSystem) (roots : List Path) (path : Path)
    (entries : List DirectoryEntry) (hasMore : Bool) : Except Failure DirectoryOutcome :=
  let parent := dirname path
  let shown := if parent ≠ path ∧ (roots.any fun root => contained system root parent) = true
    then some parent else none
  if hasMore then
    match entries.getLast? with
    | none => .error .typeError
    | some last => .ok ⟨path, shown, entries, some last.name⟩
  else .ok ⟨path, shown, entries, none⟩

def browse (system : FileSystem) (allowed : List Path) (times : Times)
    (operation : BrowseOperation) : Except Failure DirectoryOutcome :=
  if times.expires_at ≤ times.now 0 then .error expired
  else
    (canonicalRoots system allowed).bind fun roots =>
    (allowedDirectory system (requestedPath system roots operation.path) roots).bind fun path =>
    (Failure.ofSystem (system.readdir path)).bind fun listing =>
    (collect system roots path times 1 [] 0 (candidates operation.cursor listing)).bind fun page =>
      directoryOutcome system roots path page.1 page.2

/-! ## Candidates -/

theorem isNext_eq (cursor : Option Path) (name : FileName) :
    isNext cursor name =
      (cursor.map nameKey).all fun reached => decide (reached < nameKey name) := by
  unfold isNext
  cases cursor with
  | none => rfl
  | some reached =>
    rw [Option.all_some, Option.map_some, Option.all_some]
    cases reached with
    | cons unit rest => rfl
    | nil =>
      obtain ⟨unit, rest, hname⟩ := List.exists_cons_of_ne_nil name.2
      rw [hname]
      rfl

theorem nameKey_injective : Function.Injective nameKey := by
  apply List.map_injective_iff.mpr
  intro a b h
  exact UInt16.toNat_inj.mp h

variable {listing : List Dirent}

theorem keys_nodup (h : (listing.map Dirent.name).Nodup) :
    (listing.map Dirent.key).Nodup := by
  have hmap := h.map (f := fun name : FileName => nameKey name)
    (fun a b hab => Subtype.ext (nameKey_injective hab))
  rwa [List.map_map] at hmap

theorem candidates_eq (h : (listing.map Dirent.name).Nodup)
    (cursor : Option Path) :
    candidates cursor listing =
      after Dirent.key (cursor.map nameKey) (candidates none listing) := by
  unfold candidates
  rw [← sortByKey_after ((keys_nodup h).sublist (List.filter_sublist.map _))]
  unfold after
  rw [List.filter_filter]
  congr 1
  apply List.filter_congr
  intro entry _
  rw [isNext_eq, isNext_eq, Option.map_none, Option.all_none, Bool.and_true, Bool.and_comm]
  congr!

theorem candidates_ascending (h : (listing.map Dirent.name).Nodup) :
    Ascending Dirent.key (candidates none listing) := by
  apply sortByKey_ascending
  exact (keys_nodup h).sublist (List.filter_sublist.map _)

theorem mem_candidates {entry : Dirent} :
    entry ∈ candidates none listing ↔ entry ∈ listing ∧ entry.kind ≠ .other := by
  unfold candidates
  rw [mem_sortByKey, List.mem_filter]
  apply and_congr_right
  intro _
  cases entry.kind <;> simp [isNext]

end HarnessControl.Workspaces
