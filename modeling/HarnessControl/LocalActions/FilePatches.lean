import HarnessControl.LocalActions.PatchPlacement

/-!
# Patching a file

The bytes of a file are decoded, patched as text and encoded again.  A file that the patch does not
change is not written.
-/

namespace HarnessControl.LocalActions

open HarnessControl.Library

abbrev Bytes := List UInt8

structure FilesystemPatchOptions where
  expectedBaseHash : String
  patchContent : List UInt16
  createIfMissing : Bool

structure FilesystemPatchResult where
  changed : Bool
  newHash : String
deriving DecidableEq

inductive PatchFileError where
  | sandboxReadOnly
  /-- The error of the file system. -/
  | missing
  | expectedHashMismatch (expected actual : String)
  | patch (error : PatchError)
deriving DecidableEq

def PatchFileError.code : PatchFileError → String
  | .sandboxReadOnly => "local_capability_sandbox_read_only"
  | .missing => "ENOENT"
  | .expectedHashMismatch _ _ => "local_capability_expected_hash_mismatch"
  | .patch error => error.code

def PatchFileError.message : PatchFileError → List UInt16
  | .sandboxReadOnly => Utf16.text "Action 'patch' is not allowed in read_only sandbox mode."
  | .missing => []
  | .expectedHashMismatch expected actual => Utf16.text ("Expected base hash '" ++ expected ++
    "' did not match current hash '" ++ actual ++ "'.")
  | .patch error => error.message

structure PatchedFile where
  file : Option Bytes
  result : FilesystemPatchResult
deriving DecidableEq

variable (sha256 : Bytes → String)

def sha256Hash (buffer : Bytes) : String := "sha256:" ++ sha256 buffer

def readExistingFileForPatch (existing : Option Bytes) (createIfMissing : Bool) :
    Except PatchFileError Bytes :=
  match existing with
  | some bytes => .ok bytes
  | none => if createIfMissing then .ok [] else .error .missing

def assertExpectedHash (buffer : Bytes) (expectedHash : String) : Except PatchFileError Unit :=
  if sha256Hash sha256 buffer = expectedHash then .ok ()
  else .error (.expectedHashMismatch expectedHash (sha256Hash sha256 buffer))

/-- The action, when its lease allows it and its path is resolved. -/
def patchFile (readOnly : Bool) (existing : Option Bytes) (options : FilesystemPatchOptions) :
    Except PatchFileError PatchedFile :=
  if readOnly then .error .sandboxReadOnly
  else
    (readExistingFileForPatch existing options.createIfMissing).bind fun existingBytes =>
      (assertExpectedHash sha256 existingBytes options.expectedBaseHash).bind fun _ =>
        match applyUnifiedDiff (Utf16.ofUtf8 existingBytes) options.patchContent with
        | .error error => .error (.patch error)
        | .ok patchResult =>
          let newBytes := Utf16.toUtf8 patchResult.content
          .ok ⟨if patchResult.changed then some newBytes else existing,
            patchResult.changed, sha256Hash sha256 newBytes⟩

/-! ## The lines of a file -/

/-- The lines of bytes, with the bytes that the present line has. -/
def byteLinesFrom : Bytes → Bytes → List Bytes
  | line, [] => if line = [] then [] else [line]
  | line, byte :: rest =>
    if byte = 10 then (line ++ [10]) :: byteLinesFrom [] rest
    else if byte = 13 then
      match rest with
      | [] => [line ++ [13]]
      | next :: others =>
        if next = 10 then (line ++ [13, 10]) :: byteLinesFrom [] others
        else (line ++ [13]) :: byteLinesFrom [] (next :: others)
    else byteLinesFrom (line ++ [byte]) rest

def byteLines (bytes : Bytes) : List Bytes := byteLinesFrom [] bytes

/-! ## What a patch leaves and adds -/

/-- A line that is left as it was, or one that a hunk adds. -/
inductive Piece (α : Type) where
  | kept (line : α)
  | added (body : Line)
deriving DecidableEq

variable {α : Type}

def hunkPieces : List HunkLine → List α → List (Piece α)
  | [], _ => []
  | .insert body :: rest, lines => .added body :: hunkPieces rest lines
  | .note :: rest, lines => hunkPieces rest lines
  | .context _ :: rest, line :: lines => .kept line :: hunkPieces rest lines
  | .delete _ :: rest, _ :: lines => hunkPieces rest lines
  | .context _ :: rest, [] | .delete _ :: rest, [] => hunkPieces rest []

/-- The lines of the new file, where the hunks are placed from an index on. -/
def pieces (index : Nat) (lines : List α) : List Hunk → List (Piece α)
  | [] => lines.map .kept
  | hunk :: others =>
    let gap := (hunk.oldStart - 1) - index
    (lines.take gap).map .kept ++ (hunkPieces hunk.lines (lines.drop gap) ++
      pieces (index + gap + hunk.old.length) (lines.drop (gap + hunk.old.length)) others)

def Piece.bytes : Piece Bytes → Bytes
  | .kept line => line
  | .added body => Utf16.toUtf8 body

/-- UTF-8 without the line separator and the paragraph separator. -/
def FaithfulLine (line : Bytes) : Prop :=
  Utf8.valid line = true ∧ ∀ c ∈ Utf8.decode line, c ≠ '\u2028' ∧ c ≠ '\u2029'

end HarnessControl.LocalActions
