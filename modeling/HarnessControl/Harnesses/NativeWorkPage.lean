import Mathlib.Data.List.Lex
import HarnessControl.Library.Paging
import HarnessControl.Harnesses.Manager

/-!
# Pages of native work

`nativeWorkPage` shows the native work of a session, sorted by id, in pages of a bounded size.  The
cursor of the next page carries a digest of all that the pages show.
-/

namespace HarnessControl.Harnesses

open HarnessControl.Library HarnessControl.Protocol HarnessControl.State

/-! ## The order of strings -/

def utf16Units (text : String) : List Nat :=
  text.toList.flatMap fun c =>
    if c.toNat < 0x10000 then [c.toNat]
    else [0xD800 + (c.toNat - 0x10000) / 0x400, 0xDC00 + (c.toNat - 0x10000) % 0x400]

/-- `left <= right`, of strings. -/
def textLe (left right : String) : Bool := decide (utf16Units left ≤ utf16Units right)

theorem textLe_trans (a b c : String) (hab : textLe a b = true) (hbc : textLe b c = true) :
    textLe a c = true := by
  unfold textLe at *
  rw [decide_eq_true_eq] at *
  exact le_trans hab hbc

theorem textLe_total (a b : String) : (textLe a b || textLe b a) = true := by
  unfold textLe
  rw [Bool.or_eq_true, decide_eq_true_eq, decide_eq_true_eq]
  exact le_total _ _

/-! ## One page -/

inductive OwnerStatus where
  | active
  | unavailable
deriving DecidableEq

structure WorkRow where
  work : NativeWorkRecord
  ownerStatus : OwnerStatus

/-- What the digest of a page is taken of. -/
structure WorkRoster where
  sessionId : String
  ownerAvailable : Bool
  rows : List WorkRow
  closureUnconfirmed : Bool

structure WorkCursor where
  hash : String
  offset : Nat

/-- `JSON.stringify` of what is observed, the bytes of a row, and the texts of the cursors. -/
structure WorkPageTexts where
  observation : WorkRoster → String
  rowBytes : WorkRow → Nat
  cursors : CursorCodec WorkCursor

structure WorkReadPage where
  ownerStatus : OwnerStatus
  observationHash : String
  totalCount : Nat
  items : List WorkRow
  closureUnconfirmed : Bool
  nextCursor : Option String

def maxPageBytes : Nat := 192 * 1024

def ownerStatus (available : Bool) : OwnerStatus := if available then .active else .unavailable

structure ShownWork where
  state : NativeWorkState
  ownerAvailable : Bool
  live : List String

def ShownWork.rows (shown : ShownWork) : List WorkRow :=
  (shown.state.items.values.mergeSort fun a b => textLe a.workId b.workId).map fun work =>
    ⟨work, ownerStatus (shown.ownerAvailable && shown.live.contains work.workId)⟩

def ShownWork.roster (shown : ShownWork) (sessionId : String) : WorkRoster :=
  ⟨sessionId, shown.ownerAvailable, shown.rows, shown.state.closureUnconfirmed⟩

theorem ShownWork.rows_work (shown : ShownWork) :
    shown.rows.map WorkRow.work =
      shown.state.items.values.mergeSort fun a b => textLe a.workId b.workId := by
  unfold ShownWork.rows
  rw [List.map_map]
  exact List.map_id _

theorem ShownWork.rows_sorted (shown : ShownWork) :
    shown.rows.Pairwise fun a b => textLe a.work.workId b.work.workId = true := by
  rw [← List.pairwise_map (f := WorkRow.work) (R := fun a b => textLe a.workId b.workId = true),
    shown.rows_work]
  have htrans : ∀ a b c : NativeWorkRecord, textLe a.workId b.workId = true →
      textLe b.workId c.workId = true → textLe a.workId c.workId = true :=
    fun a b c => textLe_trans a.workId b.workId c.workId
  have htotal : ∀ a b : NativeWorkRecord,
      (textLe a.workId b.workId || textLe b.workId a.workId) = true :=
    fun a b => textLe_total a.workId b.workId
  exact List.pairwise_mergeSort htrans htotal shown.state.items.values

theorem ShownWork.rows_perm (shown : ShownWork) :
    (shown.rows.map WorkRow.work).Perm shown.state.items.values := by
  rw [shown.rows_work]
  exact List.mergeSort_perm _ _

theorem ShownWork.rows_nodup {schemas : PayloadSchemas} {shown : ShownWork}
    (h : shown.state.valid schemas = true) :
    (shown.rows.map fun row => row.work.workId).Nodup := by
  have hkeys : shown.state.items.values.map NativeWorkRecord.workId = shown.state.items.keys := by
    unfold Dict.values Dict.keys
    rw [List.map_map]
    apply List.map_congr_left
    intro entry hentry
    unfold NativeWorkState.valid at h
    simp only [Bool.and_eq_true] at h
    have hitems := h.1.1.1.1.1.1.1.2
    unfold workDictionary at hitems
    rw [List.all_eq_true] at hitems
    have hentryValid := hitems entry hentry
    rw [Bool.and_eq_true, beq_iff_eq] at hentryValid
    exact hentryValid.2
  have hperm := shown.rows_perm.map NativeWorkRecord.workId
  rw [List.map_map, hkeys] at hperm
  exact hperm.nodup_iff.mpr shown.state.items.nodup

section

variable (host : Host) (texts : WorkPageTexts) (sessionId : String) (shown : ShownWork)

def ShownWork.observationHash : String :=
  host.sha256 (texts.observation (shown.roster sessionId))

def nativeWorkOffset (cursor : Option String) : Except HarnessError Nat :=
  match cursor.filter fun text => text != "" with
  | none => .ok 0
  | some text =>
    match texts.cursors.decode text with
    | none => .error ⟨"native_work_cursor", "Invalid native-work cursor."⟩
    | some cursor =>
      if cursor.hash ≠ shown.observationHash host texts sessionId ∨
          shown.rows.length < cursor.offset then
        .error ⟨"native_work_changed",
          "Native work changed; restart pagination from a fresh read."⟩
      else .ok cursor.offset

def nativeWorkPage (cursor : Option String) (limit : Option Nat) :
    Except HarnessError WorkReadPage :=
  match nativeWorkOffset host texts sessionId shown cursor with
  | .error error => .error error
  | .ok offset =>
    let rows := shown.rows
    let items := page texts.rowBytes maxPageBytes (limit.getD 32) (rows.drop offset)
    if offset < rows.length ∧ items = [] then
      .error ⟨"native_work_record_limit", "A native-work record exceeds the bounded read size."⟩
    else
      let observationHash := shown.observationHash host texts sessionId
      let next := offset + items.length
      .ok {
        ownerStatus := ownerStatus shown.ownerAvailable
        observationHash
        totalCount := rows.length
        items
        closureUnconfirmed := shown.state.closureUnconfirmed
        nextCursor :=
          if next < rows.length then some (texts.cursors.encode ⟨observationHash, next⟩)
          else none }

end

end HarnessControl.Harnesses
