import HarnessControl.Library.Fallible
import HarnessControl.Library.PosixPaths

/-!
# Folders that may be chosen

The local configuration names the roots.  A path is followed to the directory that it stands for,
and that directory must be in one of them.
-/

namespace HarnessControl.Workspaces

open HarnessControl.Library HarnessControl.Library.Posix

/-! ## The file system -/

inductive ErrorCode where
  | ENOENT
  | EACCES
  | EPERM
  | ELOOP
  | other (code : String)
deriving DecidableEq

inductive EntryKind where
  | directory
  | symbolicLink
  | other
deriving DecidableEq

abbrev FileName := {name : Path // name ≠ []}

structure Dirent where
  name : FileName
  kind : EntryKind

structure FileSystem where
  workingDirectory : Path
  homedir : Path
  realpath : Path → Except ErrorCode Path
  /-- `(await stat(path)).isDirectory()`. -/
  isDirectory : Path → Except ErrorCode Bool
  readdir : Path → Except ErrorCode (List Dirent)
  names_nodup : ∀ {path entries}, readdir path = .ok entries → (entries.map Dirent.name).Nodup
  /-- What is neither a directory nor a link leads to no directory. -/
  other_kind : ∀ {path directory entries entry canonical}, realpath path = .ok directory →
    readdir directory = .ok entries → entry ∈ entries → entry.kind = .other →
    realpath (join directory entry.name) = .ok canonical → isDirectory canonical ≠ .ok true

inductive Failure where
  | error (message : String)
  | system (code : ErrorCode)
  | typeError

def Failure.ofSystem {α : Type} (result : Except ErrorCode α) : Except Failure α :=
  result.mapError .system

/-! ## Roots -/

def contained (system : FileSystem) (root path : Path) : Bool :=
  below system.workingDirectory root path

/-- A path in one of the roots. -/
def Inside (system : FileSystem) (roots : List Path) (path : Path) : Prop :=
  ∃ root ∈ roots, resolvedNames system.workingDirectory root <+:
    resolvedNames system.workingDirectory path

theorem any_contained {system : FileSystem} {roots : List Path} {path : Path} :
    (roots.any fun root => contained system root path) = true ↔ Inside system roots path := by
  rw [List.any_eq_true]
  apply exists_congr
  intro root
  apply and_congr_right
  intro _
  exact below_iff

def canonicalRoots (system : FileSystem) (roots : List Path) : Except Failure (List Path) :=
  if roots = [] then
    .error <| .error <| "Folder browsing is disabled. Configure " ++
      "workspace_management.allowed_roots locally, then restart the runner."
  else roots.mapM fun root => Failure.ofSystem (system.realpath root)

def allowedDirectory (system : FileSystem) (path : Path) (roots : List Path) :
    Except Failure Path :=
  if isAbsolute path = false then
    .error (.error "Use an absolute folder path on this machine.")
  else
    (Failure.ofSystem (system.realpath path)).bind fun canonical =>
      if (roots.any fun root => contained system root canonical) = false then
        .error (.error "The folder is outside this machine’s allowed roots.")
      else
        (Failure.ofSystem (system.isDirectory canonical)).bind fun directory =>
          if directory = false then .error (.error "Choose an existing folder.")
          else .ok canonical

theorem ofSystem_ok {α : Type} {result : Except ErrorCode α} {value : α} :
    Failure.ofSystem result = .ok value ↔ result = .ok value := by
  cases result with
  | error code => exact ⟨nofun, nofun⟩
  | ok other => exact ⟨fun h => by rw [Except.ok.inj h], fun h => by rw [Except.ok.inj h]; rfl⟩

theorem allowedDirectory_ok {system : FileSystem} {path : Path} {roots : List Path}
    {canonical : Path} :
    allowedDirectory system path roots = .ok canonical ↔
      isAbsolute path = true ∧ system.realpath path = .ok canonical ∧
        Inside system roots canonical ∧ system.isDirectory canonical = .ok true := by
  unfold allowedDirectory
  rw [ite_error_ok, Bool.not_eq_false, bind_ok]
  apply and_congr_right
  intro _
  constructor
  · rintro ⟨found, hfound, h⟩
    rw [ite_error_ok, Bool.not_eq_false, any_contained, bind_ok] at h
    obtain ⟨hinside, directory, hdirectory, h⟩ := h
    rw [ite_error_ok, Bool.not_eq_false] at h
    obtain ⟨rfl, h⟩ := h
    obtain rfl := Except.ok.inj h
    exact ⟨ofSystem_ok.mp hfound, hinside, ofSystem_ok.mp hdirectory⟩
  · rintro ⟨hfound, hinside, hdirectory⟩
    refine ⟨canonical, ofSystem_ok.mpr hfound, ?_⟩
    rw [ite_error_ok, Bool.not_eq_false, any_contained, bind_ok]
    refine ⟨hinside, true, ofSystem_ok.mpr hdirectory, ?_⟩
    rw [ite_error_ok]
    exact ⟨nofun, rfl⟩

end HarnessControl.Workspaces
