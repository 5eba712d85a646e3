import HarnessControl.Library.Paging
import HarnessControl.Harnesses.Manager

/-!
# Pages of a conversation

`publicHistory` shows the turns of a native thread, the newest ones first, in pages of a bounded
size.  The cursor of the next page carries the revision of the thread, or a digest of its turns.
-/

namespace HarnessControl.Harnesses

open HarnessControl.Library HarnessControl.Protocol HarnessControl.State

structure HistoryTurn where
  id : String
  status : String
  items : List JsonFields

structure Thread where
  id : String
  turns : List HistoryTurn
  revision : Option String

/-! ## The digest of the turns -/

section

variable (host : Host)

mutual

/-- `sorted`: the keys of every object in order. -/
def sortedJson : Json → Json
  | .arr elements => .arr (sortedElements elements)
  | .obj fields => .obj (.ofList <|
    (sortedFields fields).mergeSort fun a b => host.localeLe a.1 b.1)
  | value => value

def sortedElements : JsonList → JsonList
  | .nil => .nil
  | .cons head tail => .cons (sortedJson head) (sortedElements tail)

def sortedFields : JsonFields → List (String × Json)
  | .nil => []
  | .cons key value tail => (key, sortedJson value) :: sortedFields tail

end

end

def HistoryTurn.toJson (turn : HistoryTurn) : Json :=
  .obj <| .ofList [("id", .str turn.id), ("status", .str turn.status),
    ("items", .arr (.ofList (turn.items.map Json.obj)))]

/-- The turns of a thread, as far as their digest depends on them. -/
def Thread.content (host : Host) (thread : Thread) : Json :=
  sortedJson host (.arr (.ofList (thread.turns.map HistoryTurn.toJson)))

def Thread.historyHash (host : Host) (thread : Thread) : String :=
  thread.revision.getD (host.sha256 (host.stringify (thread.content host)))

/-! ## One page -/

structure HistoryCursor where
  hash : String
  offset : Nat
  thread : String

/-- A turn as it is shown; `content` stands for its items and portable items. -/
structure ProjectedTurn where
  id : String
  status : String
  content : Json

/-- How a turn is shown and whether that is cut, which fails where content cannot be published, the
bytes of what is shown, and the texts of the cursors. -/
structure HistoryProjection where
  content : HistoryTurn → Except HarnessError (Json × Bool)
  bytes : ProjectedTurn → Nat
  cursors : CursorCodec HistoryCursor

structure HistoryPage where
  historyHash : String
  turnCount : Nat
  truncated : Bool
  turns : List ProjectedTurn
  nextCursor : Option String

/-- `nativeConversationHistorySchema`, with the schema of a turn. -/
def nativeConversationHistorySchema (turnSchema : ProjectedTurn → Bool) (page : HistoryPage) : Bool :=
  sha256Hex page.historyHash && page.nextCursor.all (boundedText 1024) &&
    page.turns.all turnSchema && decide (page.turns.length ≤ 100)

def maxHistoryBytes : Nat := 192 * 1024

section

variable (host : Host) (projection : HistoryProjection) (thread : Thread)

/-- The offset that a request asks for, from the end of the thread. -/
def historyOffset (cursor : Option String) : Except HarnessError Nat :=
  match cursor.filter fun text => text != "" with
  | none => .ok 0
  | some text =>
    match projection.cursors.decode text with
    | none => .error ⟨"native_history_cursor", "Invalid history cursor."⟩
    | some cursor =>
      if cursor.hash ≠ thread.historyHash host ∨ cursor.thread ≠ thread.id ∨
          thread.turns.length < cursor.offset then
        .error ⟨"native_history_changed",
          "History changed; restart pagination from a fresh read."⟩
      else .ok cursor.offset

/-- The loop over the turns of a page, the newest first. -/
def projectTurns (size : Nat) (truncated : Bool) (turns : List ProjectedTurn) :
    List HistoryTurn → Except HarnessError (Bool × List ProjectedTurn)
  | [] => .ok (truncated, turns)
  | turn :: rest =>
    match projection.content turn with
    | .error error => .error error
    | .ok (content, cut) =>
      let entry : ProjectedTurn := ⟨turn.id, turn.status, content⟩
      let size := size + projection.bytes entry
      if maxHistoryBytes < size then .ok (true, turns)
      else projectTurns size (truncated || cut) (entry :: turns) rest

def publicHistory (cursor : Option String) (limit : Option Nat) :
    Except HarnessError HistoryPage :=
  match historyOffset host projection thread cursor with
  | .error error => .error error
  | .ok offset =>
    let stop := thread.turns.length - offset
    let slice := ((thread.turns.take stop).drop (stop - limit.getD 100)).reverse
    match projectTurns projection 0 false [] slice with
    | .error error => .error error
    | .ok (truncated, turns) =>
      let consumed := offset + turns.length
      if consumed < thread.turns.length ∧ turns = [] then
        .error ⟨"native_history_item_limit", "A history turn exceeds the bounded page size."⟩
      else
        .ok {
          historyHash := thread.historyHash host
          turnCount := thread.turns.length
          truncated := truncated || decide (consumed < thread.turns.length)
          turns
          nextCursor :=
            if consumed < thread.turns.length then
              some (projection.cursors.encode ⟨thread.historyHash host, consumed, thread.id⟩)
            else none }

/-! ## The turns of a page -/

/-- A turn as it is shown, where that does not fail. -/
def HistoryProjection.shown (turn : HistoryTurn) : ProjectedTurn :=
  match projection.content turn with
  | .ok (content, _) => ⟨turn.id, turn.status, content⟩
  | .error _ => ⟨turn.id, turn.status, .null⟩

/-- A turn is shown within the bytes of a page. -/
def HistoryProjection.fits (turn : HistoryTurn) : Prop :=
  (∃ shown, projection.content turn = .ok shown) ∧
    projection.bytes (projection.shown turn) ≤ maxHistoryBytes

theorem HistoryProjection.shown_id (turn : HistoryTurn) : (projection.shown turn).id = turn.id := by
  unfold HistoryProjection.shown
  split <;> rfl

theorem projectTurns_eq {slice : List HistoryTurn} (h : ∀ turn ∈ slice, projection.fits turn)
    (size : Nat) (truncated : Bool) (turns : List ProjectedTurn) :
    ∃ cut, projectTurns projection size truncated turns slice =
      .ok (cut, (fill projection.bytes maxHistoryBytes size
        (slice.map projection.shown)).reverse ++ turns) := by
  induction slice generalizing size truncated turns with
  | nil => exact ⟨truncated, rfl⟩
  | cons turn rest ih =>
    rcases (h turn List.mem_cons_self).1 with ⟨⟨content, cut⟩, hcontent⟩
    have hshown : projection.shown turn = ⟨turn.id, turn.status, content⟩ := by
      unfold HistoryProjection.shown
      rw [hcontent]
    rw [List.map_cons, hshown]
    unfold projectTurns fill
    rw [hcontent]
    dsimp only
    split
    · exact ⟨true, rfl⟩
    · rcases ih (fun other hother => h other (List.mem_cons_of_mem turn hother)) _ _ _ with
        ⟨later, hlater⟩
      refine ⟨later, ?_⟩
      rw [hlater, List.reverse_cons, List.append_assoc, List.singleton_append]

theorem slice_eq (turns : List HistoryTurn) (offset limit : Nat) :
    ((turns.take (turns.length - offset)).drop (turns.length - offset - limit)).reverse =
      (turns.reverse.drop offset).take limit := by
  rw [List.drop_reverse, List.take_reverse, List.length_take]
  congr 2
  omega

end

end HarnessControl.Harnesses
