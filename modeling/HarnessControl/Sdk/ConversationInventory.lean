import HarnessControl.Connection.CanonicalText
import HarnessControl.Harnesses.ConversationHistory
import HarnessControl.Sdk.NativeWorkInventory

/-!
# The inventory of a conversation

`readConversationInventory` reads the ids of the turns of a thread through the pages of
`publicHistory`, which begin with the newest turns.
-/

namespace HarnessControl.Sdk

open HarnessControl.Library HarnessControl.Protocol HarnessControl.Connection
open HarnessControl.State HarnessControl.Harnesses

structure HistorySnapshot where
  historyHash : String
  turnCount : Nat
deriving DecidableEq

structure ConversationInventory extends HistorySnapshot where
  turnIds : List String

def validTurnId (id : String) : Bool := id != "" && decide (utf16Length id ≤ 512)

def conversationReader : InventoryReader HistorySnapshot ProjectedTurn where
  count := HistorySnapshot.turnCount
  id := ProjectedTurn.id
  validId := validTurnId
  duplicate := .duplicateTurn

def historyInventoryPage (page : HistoryPage) : InventoryPage HistorySnapshot ProjectedTurn :=
  ⟨⟨page.historyHash, page.turnCount⟩, page.turns, page.nextCursor⟩

def conversationSizes (options : InventoryOptions) : Bool :=
  sizeIn options.maxCount 10000 && sizeIn options.maxPages 1024 && sizeIn options.pageSize 100

/-- The result, with the number of requests that were made. -/
def readConversationInventory {ρ : Type}
    (readConversation : Nat → Option String → Option Nat → Except ρ HistoryPage)
    (options : InventoryOptions) : Nat × Except (InventoryError ρ) ConversationInventory :=
  if conversationSizes options then
    let read := conversationReader.readPages (options.maxCount.getD 10000)
      (fun index cursor =>
        (readConversation index cursor (some (options.pageSize.getD 100))).map historyInventoryPage)
      (options.maxPages.getD 1024) 0 .start
    (read.1, read.2.map fun result =>
      ⟨result.1, result.2.reverse.flatten.map ProjectedTurn.id⟩)
  else (0, .error (.inventory .limit))

/-- The runner refuses a request, or its page is no payload of the protocol. -/
inductive ReadFailure where
  | refused (error : HarnessError)
  | invalid

section

variable (host : Host) (projection : HistoryProjection) (payload : HistoryPage → Bool)

def conversationPage (thread : Thread) (cursor : Option String) (limit : Option Nat) :
    Except ReadFailure HistoryPage :=
  match publicHistory host projection thread cursor limit with
  | .error error => .error (.refused error)
  | .ok page => if payload page then .ok page else .error .invalid

/-- The reader, with the thread that the provider has at each request. -/
def readThreads (options : InventoryOptions) (threads : Nat → Thread) :
    Nat × Except (InventoryError ReadFailure) ConversationInventory :=
  readConversationInventory (fun index => conversationPage host projection payload (threads index))
    options

/-! ## A thread that stays as it is -/

variable (thread : Thread)

def shownTurns : List ProjectedTurn := thread.turns.reverse.map projection.shown

def historySnapshot : HistorySnapshot := ⟨thread.historyHash host, thread.turns.length⟩

theorem shownTurns_ids :
    (shownTurns projection thread).map ProjectedTurn.id =
      (thread.turns.map HistoryTurn.id).reverse := by
  unfold shownTurns
  rw [List.map_map, ← List.map_reverse]
  apply List.map_congr_left
  intro turn _
  exact projection.shown_id turn

theorem historyOffset_served {offset : Nat} (hoffset : offset ≤ thread.turns.length) :
    historyOffset host projection thread (if offset = 0 then none else
      some (projection.cursors.encode ⟨thread.historyHash host, offset, thread.id⟩)) =
      .ok offset := by
  unfold historyOffset
  by_cases hzero : offset = 0
  · rw [if_pos hzero, hzero]
    rfl
  · rw [if_neg hzero, Option.filter_some, if_pos (bne_iff_ne.mpr (projection.cursors.encode_ne _))]
    dsimp only
    rw [projection.cursors.decode_encode]
    dsimp only
    rw [if_neg (by simp; omega)]

theorem shownTurns_length : (shownTurns projection thread).length = thread.turns.length := by
  unfold shownTurns
  rw [List.length_map, List.length_reverse]

theorem publicHistory_served {pageSize offset : Nat} (hsize : 0 < pageSize)
    (hfits : ∀ turn ∈ thread.turns, projection.fits turn) (hoffset : offset ≤ thread.turns.length) :
    ∃ cut, publicHistory host projection thread (if offset = 0 then none else
      some (projection.cursors.encode ⟨thread.historyHash host, offset, thread.id⟩))
      (some pageSize) = .ok {
        historyHash := thread.historyHash host
        turnCount := thread.turns.length
        truncated := cut
        turns := (page projection.bytes maxHistoryBytes pageSize
          ((shownTurns projection thread).drop offset)).reverse
        nextCursor :=
          if offset + (page projection.bytes maxHistoryBytes pageSize
              ((shownTurns projection thread).drop offset)).length < thread.turns.length then
            some (projection.cursors.encode ⟨thread.historyHash host,
              offset + (page projection.bytes maxHistoryBytes pageSize
                ((shownTurns projection thread).drop offset)).length, thread.id⟩)
          else none } := by
  have hslice : ∀ turn ∈ (thread.turns.reverse.drop offset).take pageSize,
      projection.fits turn := by
    intro turn hturn
    apply hfits turn
    exact List.mem_reverse.mp (List.mem_of_mem_drop (List.mem_of_mem_take hturn))
  have hpage : fill projection.bytes maxHistoryBytes 0
      (((thread.turns.reverse.drop offset).take pageSize).map projection.shown) =
      page projection.bytes maxHistoryBytes pageSize
        ((shownTurns projection thread).drop offset) := by
    unfold page shownTurns
    rw [List.map_take, List.map_drop]
  rcases projectTurns_eq projection hslice 0 false [] with ⟨cut, hturns⟩
  rw [hpage, List.append_nil] at hturns
  have hpositive : (shownTurns projection thread).drop offset ≠ [] →
      0 < (page projection.bytes maxHistoryBytes pageSize
        ((shownTurns projection thread).drop offset)).length := by
    apply page_pos hsize
    intro entry hentry
    rcases List.mem_map.mp (List.mem_of_mem_drop hentry) with ⟨turn, hturn, rfl⟩
    exact (hfits turn (List.mem_reverse.mp hturn)).2
  have hlength : ((shownTurns projection thread).drop offset).length =
      thread.turns.length - offset := by
    rw [List.length_drop, shownTurns_length]
  generalize page projection.bytes maxHistoryBytes pageSize
    ((shownTurns projection thread).drop offset) = values at *
  refine ⟨cut || decide (offset + values.length < thread.turns.length), ?_⟩
  unfold publicHistory
  rw [historyOffset_served host projection thread hoffset]
  dsimp only
  rw [Option.getD_some, slice_eq, hturns]
  dsimp only
  rw [List.length_reverse, if_neg]
  rintro ⟨hmore, hempty⟩
  have hvalues := hpositive (List.ne_nil_of_length_pos (by omega))
  rw [List.reverse_eq_nil_iff.mp hempty] at hvalues
  exact Nat.lt_irrefl 0 hvalues

/-- What the schema of a page asks of a thread. -/
structure Shows (turnSchema : ProjectedTurn → Bool) : Prop where
  hash : sha256Hex (thread.historyHash host) = true
  cursors : ∀ offset ≤ thread.turns.length, boundedText 1024
    (projection.cursors.encode ⟨thread.historyHash host, offset, thread.id⟩) = true
  turns : ∀ turn ∈ thread.turns, turnSchema (projection.shown turn) = true

variable {turnSchema : ProjectedTurn → Bool}

theorem Shows.accepts (h : Shows host projection thread turnSchema) {page : HistoryPage}
    (hhash : page.historyHash = thread.historyHash host)
    (hcursor : ∀ text ∈ page.nextCursor, ∃ offset ≤ thread.turns.length,
      text = projection.cursors.encode ⟨thread.historyHash host, offset, thread.id⟩)
    (hturns : ∀ entry ∈ page.turns, entry ∈ shownTurns projection thread)
    (hlength : page.turns.length ≤ 100) :
    nativeConversationHistorySchema turnSchema page = true := by
  unfold nativeConversationHistorySchema
  rw [hhash, h.hash, Bool.true_and, Bool.and_eq_true, Bool.and_eq_true, decide_eq_true_eq]
  refine ⟨⟨?_, List.all_eq_true.mpr fun entry hentry => ?_⟩, hlength⟩
  · rw [Option.all_eq_true]
    intro text htext
    rcases hcursor text htext with ⟨offset, hoffset, rfl⟩
    exact h.cursors offset hoffset
  · rcases List.mem_map.mp (hturns entry hentry) with ⟨turn, hturn, rfl⟩
    exact h.turns turn (List.mem_reverse.mp hturn)

theorem conversationPage_serves {pageSize : Nat} (hsize : 0 < pageSize) (hlimit : pageSize ≤ 100)
    (hfits : ∀ turn ∈ thread.turns, projection.fits turn)
    (hshows : Shows host projection thread turnSchema) :
    InventoryReader.Serves (historySnapshot host thread) (shownTurns projection thread)
      projection.bytes maxHistoryBytes pageSize List.reverse
      (fun offset => projection.cursors.encode ⟨thread.historyHash host, offset, thread.id⟩)
      (fun _ cursor => (conversationPage host projection
        (nativeConversationHistorySchema turnSchema) thread cursor
        (some pageSize)).map historyInventoryPage) where
  serve index offset hoffset := by
    rw [shownTurns_length] at hoffset ⊢
    rcases publicHistory_served host projection thread hsize hfits hoffset with ⟨cut, hserved⟩
    unfold conversationPage
    rw [hserved]
    dsimp only
    rw [if_pos]
    · rfl
    · apply hshows.accepts host projection thread rfl
      · intro text htext
        rcases Option.ite_none_right_eq_some.mp htext with ⟨hmore, hcursor⟩
        exact ⟨_, Nat.le_of_lt hmore, (Option.some.inj hcursor).symm⟩
      · intro entry hentry
        have hpage := (page_isPrefix _).subset (List.mem_reverse.mp hentry)
        exact List.mem_of_mem_drop hpage
      · rw [List.length_reverse]
        exact Nat.le_trans (page_length_limit _) hlimit
  arranged values := List.reverse_perm values
  injective a b hsame := by
    have hcursor := projection.cursors.encode_injective hsame
    exact congrArg HistoryCursor.offset hcursor
  nonempty offset := projection.cursors.encode_ne _

theorem readThreads_unchanged {options : InventoryOptions}
    (hsizes : conversationSizes options = true)
    (hnodup : (thread.turns.map HistoryTurn.id).Nodup)
    (hids : ∀ turn ∈ thread.turns, validTurnId turn.id = true)
    (hfits : ∀ turn ∈ thread.turns, projection.fits turn)
    (hshows : Shows host projection thread turnSchema)
    (hcount : thread.turns.length ≤ options.maxCount.getD 10000) :
    (readThreads host projection (nativeConversationHistorySchema turnSchema) options
        fun _ => thread).2 =
      if (pages projection.bytes maxHistoryBytes (options.pageSize.getD 100)
          (shownTurns projection thread)).length ≤ options.maxPages.getD 1024 then
        .ok ⟨historySnapshot host thread, thread.turns.map HistoryTurn.id⟩
      else .error (.inventory .limit) := by
  have hpageSize : 0 < options.pageSize.getD 100 ∧ options.pageSize.getD 100 ≤ 100 := by
    unfold conversationSizes sizeIn at hsizes
    simp only [Bool.and_eq_true, decide_eq_true_eq] at hsizes
    exact hsizes.2
  have hserves := conversationPage_serves host projection thread hpageSize.1 hpageSize.2 hfits
    hshows
  have hshownFits : ∀ entry ∈ shownTurns projection thread,
      projection.bytes entry ≤ maxHistoryBytes := by
    intro entry hentry
    rcases List.mem_map.mp hentry with ⟨turn, hturn, rfl⟩
    exact (hfits turn (List.mem_reverse.mp hturn)).2
  have hshownIds : ∀ entry ∈ shownTurns projection thread, validTurnId entry.id = true := by
    intro entry hentry
    rcases List.mem_map.mp hentry with ⟨turn, hturn, rfl⟩
    rw [projection.shown_id]
    exact hids turn (List.mem_reverse.mp hturn)
  have hshownNodup : ((shownTurns projection thread).map ProjectedTurn.id).Nodup := by
    rw [shownTurns_ids]
    exact List.nodup_reverse.mpr hnodup
  have hshownCount : (shownTurns projection thread).length ≤ options.maxCount.getD 10000 := by
    rw [shownTurns_length]
    exact hcount
  have hread : conversationReader.readPages _ _ _ _ _ = _ :=
    InventoryReader.readPages_served hserves hpageSize.1 hshownFits hshownIds hshownNodup
      (shownTurns_length projection thread).symm hshownCount (options.maxPages.getD 1024) 0
      InventoryReader.ReadAt.start
  unfold readThreads readConversationInventory
  rw [if_pos hsizes]
  dsimp only
  rw [hread, List.drop_zero]
  split
  · -- the pages are reversed, and so is what is in them
    have hturnIds : ((pages projection.bytes maxHistoryBytes (options.pageSize.getD 100)
        (shownTurns projection thread)).map List.reverse).reverse.flatten.map ProjectedTurn.id =
          thread.turns.map HistoryTurn.id := by
      rw [← List.reverse_flatten, flatten_pages hpageSize.1 hshownFits, List.map_reverse,
        shownTurns_ids, List.reverse_reverse]
    rw [← hturnIds]
    rfl
  · rfl

/-! ## A thread that changes -/

theorem publicHistory_hash {cursor : Option String} {limit : Option Nat} {page : HistoryPage}
    (h : publicHistory host projection thread cursor limit = .ok page) :
    page.historyHash = thread.historyHash host := by
  unfold publicHistory at h
  split at h
  · cases h
  · dsimp only at h
    split at h
    · cases h
    · split at h
      · cases h
      · cases h
        rfl

theorem conversationPage_hash {cursor : Option String} {limit : Option Nat} {page : HistoryPage}
    (h : conversationPage host projection payload thread cursor limit = .ok page) :
    page.historyHash = thread.historyHash host := by
  unfold conversationPage at h
  split at h
  · cases h
  · rename_i shownPage hshown
    split at h
    · cases h
      exact publicHistory_hash host projection thread hshown
    · cases h

variable (options : InventoryOptions) (threads : Nat → Thread)

theorem readThreads_hash (inventory : ConversationInventory)
    (hread : (readThreads host projection payload options threads).2 = .ok inventory) (i : Nat)
    (hi : i < (readThreads host projection payload options threads).1) :
    (threads i).historyHash host = inventory.historyHash := by
  unfold readThreads readConversationInventory at hread hi
  by_cases hsizes : conversationSizes options = true
  · rw [if_pos hsizes] at hread hi
    rcases map_eq_ok hread with ⟨result, hresult, rfl⟩
    have hall := (InventoryReader.readPages_snapshots (Prod.ext rfl hresult)).2 i (Nat.zero_le i) hi
    rcases hall with ⟨cursor, page, hpage, hsnapshot⟩
    rcases map_eq_ok hpage with ⟨shownPage, hshown, rfl⟩
    rw [← conversationPage_hash host projection payload (threads i) hshown, ← hsnapshot]
    rfl
  · rw [if_neg hsizes] at hread
    cases hread

end

/-- Reading a conversation page by page gives the ids of all its turns in order, if the pages that
the caller allows are enough; if between two requests the revision of the thread changes or, where
it has none, its content, or if it gets a revision other than the digest of its content, the read
fails. -/
theorem conversation_inventory (host : Host) (projection : HistoryProjection)
    (turnSchema : ProjectedTurn → Bool) (options : InventoryOptions) (threads : Nat → Thread)
    (hsizes : conversationSizes options = true)
    (hsha : ∀ i j, host.sha256 (host.stringify ((threads i).content host)) =
        host.sha256 (host.stringify ((threads j).content host)) →
      host.stringify ((threads i).content host) = host.stringify ((threads j).content host))
    (htext : ∀ i j, host.stringify ((threads i).content host) =
        host.stringify ((threads j).content host) →
      (threads i).content host = (threads j).content host) :
    let read := readThreads host projection (nativeConversationHistorySchema turnSchema) options threads
    ((∀ index, threads index = threads 0) →
      ((threads 0).turns.map HistoryTurn.id).Nodup →
      (∀ turn ∈ (threads 0).turns, validTurnId turn.id = true) →
      (∀ turn ∈ (threads 0).turns, projection.fits turn) →
      Shows host projection (threads 0) turnSchema →
      (threads 0).turns.length ≤ options.maxCount.getD 10000 →
      (pages projection.bytes maxHistoryBytes (options.pageSize.getD 100)
        (shownTurns projection (threads 0))).length ≤ options.maxPages.getD 1024 →
      read.2 = .ok ⟨historySnapshot host (threads 0), (threads 0).turns.map HistoryTurn.id⟩) ∧
    ∀ i j, i < read.1 → j < read.1 →
      ((∃ old new, (threads i).revision = some old ∧ (threads j).revision = some new ∧ old ≠ new) ∨
        ((threads i).revision = none ∧ (threads j).revision = none ∧
          (threads i).content host ≠ (threads j).content host) ∨
        ((threads i).revision = none ∧ ∃ new, (threads j).revision = some new ∧
          new ≠ host.sha256 (host.stringify ((threads i).content host)))) →
      ∃ error, read.2 = .error error := by
  intro read
  constructor
  · intro hunchanged hnodup hids hfits hshows hcount hpages
    have hthreads : threads = fun _ => threads 0 := funext hunchanged
    have hread := readThreads_unchanged host projection (threads 0) hsizes hnodup hids hfits hshows
      hcount
    rw [if_pos hpages, ← hthreads] at hread
    exact hread
  · intro i j hi hj hchanged
    cases hread : read.2 with
    | error error => exact ⟨error, rfl⟩
    | ok inventory =>
      have hleft := readThreads_hash host projection _ options threads inventory hread i hi
      have hright := readThreads_hash host projection _ options threads inventory hread j hj
      have hsame := hleft.trans hright.symm
      unfold Thread.historyHash at hsame
      rcases hchanged with ⟨old, new, hold, hnew, hne⟩ | ⟨hold, hnew, hne⟩ | ⟨hold, new, hnew, hne⟩
      · rw [hold, hnew] at hsame
        exact absurd hsame hne
      · rw [hold, hnew] at hsame
        exact absurd (htext i j (hsha i j hsame)) hne
      · rw [hold, hnew] at hsame
        exact absurd hsame.symm hne

/-! ## A thread of many turns -/

def numberedTurn (number : Nat) : HistoryTurn :=
  ⟨String.ofList (unary (number / 64) ++ List.replicate (number % 64) 'x'), "completed", []⟩

def numberedThread (count : Nat) : Thread :=
  ⟨"native-thread", (List.range count).map numberedTurn, none⟩

/-- `{"id":"...","status":"...","items":[]}` of a turn without items. -/
def plainProjection : HistoryProjection where
  content _ := .ok (.obj (.ofList [("items", .arr .nil)]), false)
  bytes turn := 32 + turn.id.length + turn.status.length
  cursors := plainCodec.map
    (fun cursor => (cursor.offset / 64, cursor.hash,
      String.ofList (unary (cursor.offset % 64) ++ cursor.thread.toList)))
    (fun entry =>
      let thread := readUnary entry.2.2.toList
      ⟨entry.2.1, 64 * entry.1 + thread.1, String.ofList thread.2⟩)
    fun cursor => by
      dsimp only
      rw [String.toList_ofList, readUnary_unary, Nat.div_add_mod, String.ofList_toList]

/-- `JSON.stringify`: the entries stay in their order. -/
def jsonText : Json → String :=
  stableStringify { plainHost with
    stringify := leafText
    localeLe := fun _ _ => true }

/-- The digest is that of the turns of a numbered thread. -/
def numberedHost (count : Nat) (digest : String) (h : sha256Hex digest = true) : Host :=
  { plainHost with
    stringify := jsonText
    sha256 := fun text =>
      if text = jsonText ((numberedThread count).content plainHost) then digest else emptyHash
    sha256_hex := by
      intro text
      split
      · exact h
      · decide }

def threeTurns : Host :=
  numberedHost 3 "5b729b32069dd43404cf9b885dfa7c3ea2f97c9f6571f88b943a7e26e73be4e6" (by decide)

def manyTurns : Host :=
  numberedHost 1025 "0471c431c722c3285cb9da626fa8b9f23697956f9b897db891069726594e9f67" (by decide)

theorem numberedTurn_injective : Function.Injective fun number => (numberedTurn number).id := by
  intro a b hsame
  have hlists := String.ofList_injective hsame
  have hread := congrArg readUnary hlists
  rw [readUnary_unary, readUnary_unary, Prod.mk.injEq] at hread
  have hlength := congrArg List.length hread.2
  rw [List.length_replicate, List.length_replicate] at hlength
  omega

theorem length_unary (n : Nat) : (unary n).length = n + 1 := by
  unfold unary
  rw [List.length_append, List.length_replicate, List.length_singleton]

theorem numberedTurn_length (number : Nat) :
    (numberedTurn number).id.toList.length = number / 64 + 1 + number % 64 := by
  unfold numberedTurn
  rw [String.toList_ofList, List.length_append, length_unary, List.length_replicate]

theorem utf16Length_bounds (text : String) :
    text.toList.length ≤ utf16Length text ∧ utf16Length text ≤ 2 * text.toList.length := by
  unfold utf16Length
  induction text.toList with
  | nil => exact ⟨Nat.le_refl 0, Nat.le_refl 0⟩
  | cons c rest ih =>
    rw [List.map_cons, List.sum_cons, List.length_cons]
    split <;> omega

theorem numberedThread_nodup (count : Nat) :
    ((numberedThread count).turns.map HistoryTurn.id).Nodup := by
  unfold numberedThread
  rw [List.map_map]
  exact List.nodup_range.map numberedTurn_injective

theorem numberedThread_length (count : Nat) : (numberedThread count).turns.length = count := by
  unfold numberedThread
  rw [List.length_map, List.length_range]

theorem numberedThread_valid (count : Nat) (hcount : count ≤ 2048) (turn : HistoryTurn)
    (hturn : turn ∈ (numberedThread count).turns) : validTurnId turn.id = true := by
  rcases List.mem_map.mp hturn with ⟨number, hnumber, rfl⟩
  rw [List.mem_range] at hnumber
  have hlength := numberedTurn_length number
  have hunits := (utf16Length_bounds (numberedTurn number).id).2
  unfold validTurnId
  rw [Bool.and_eq_true, bne_iff_ne, decide_eq_true_eq]
  constructor
  · intro hempty
    rw [hempty] at hlength
    change 0 = _ at hlength
    omega
  · omega

theorem numberedThread_fits (count : Nat) (hcount : count ≤ 2048) (turn : HistoryTurn)
    (hturn : turn ∈ (numberedThread count).turns) : plainProjection.fits turn := by
  rcases List.mem_map.mp hturn with ⟨number, hnumber, rfl⟩
  rw [List.mem_range] at hnumber
  have hlength := numberedTurn_length number
  refine ⟨⟨_, rfl⟩, ?_⟩
  show 32 + (numberedTurn number).id.length + "completed".length ≤ 192 * 1024
  rw [← String.length_toList, hlength, show "completed".length = 9 from rfl]
  omega

theorem numberedThread_shown (count : Nat) (hcount : count ≤ 2048) (entry : ProjectedTurn)
    (hentry : entry ∈ shownTurns plainProjection (numberedThread count)) :
    plainProjection.bytes entry ≤ maxHistoryBytes := by
  rcases List.mem_map.mp hentry with ⟨turn, hturn, rfl⟩
  exact (numberedThread_fits count hcount turn (List.mem_reverse.mp hturn)).2

theorem numberedThread_shows (host : Host) (count : Nat) (hcount : count ≤ 2048) :
    Shows host plainProjection (numberedThread count) fun _ => true := by
  have hhash : sha256Hex ((numberedThread count).historyHash host) = true := host.sha256_hex _
  refine ⟨hhash, fun offset hoffset => ?_, fun _ _ => rfl⟩
  rw [numberedThread_length] at hoffset
  generalize (numberedThread count).historyHash host = digest at hhash ⊢
  unfold sha256Hex at hhash
  rw [Bool.and_eq_true, beq_iff_eq] at hhash
  have hlength : (plainProjection.cursors.encode ⟨digest, offset, "native-thread"⟩).toList.length =
      offset / 64 + 1 + (64 + 1 + (64 + (offset % 64 + 1 + 13))) := by
    show (String.ofList (unary (offset / 64) ++ (unary digest.toList.length ++ (digest.toList ++
      (String.ofList (unary (offset % 64) ++ "native-thread".toList)).toList)))).toList.length = _
    rw [String.toList_ofList, String.toList_ofList]
    simp only [List.length_append, length_unary, hhash.1]
    rfl
  have hunits := utf16Length_bounds
    (plainProjection.cursors.encode ⟨digest, offset, "native-thread"⟩)
  show boundedText 1024 (plainProjection.cursors.encode ⟨digest, offset, "native-thread"⟩) = true
  unfold boundedText
  rw [Bool.and_eq_true, decide_eq_true_eq, decide_eq_true_eq]
  omega

theorem conversation_inventory_three :
    (readThreads threeTurns plainProjection (nativeConversationHistorySchema fun _ => true)
      ⟨none, none, some 2⟩ fun _ => numberedThread 3).2 =
      .ok ⟨historySnapshot threeTurns (numberedThread 3),
        (numberedThread 3).turns.map HistoryTurn.id⟩ := by
  have hread := conversation_inventory threeTurns plainProjection (fun _ => true)
    ⟨none, none, some 2⟩ (fun _ => numberedThread 3) (by decide) (fun _ _ _ => rfl)
    (fun _ _ _ => rfl)
  apply hread.1 (fun _ => rfl) (numberedThread_nodup 3) (numberedThread_valid 3 (by decide))
    (numberedThread_fits 3 (by decide)) (numberedThread_shows threeTurns 3 (by decide))
  · decide
  · have hpages : (pages plainProjection.bytes maxHistoryBytes 2
        (shownTurns plainProjection (numberedThread 3))).length ≤ _ :=
      length_pages_le (by decide) (numberedThread_shown 3 (by decide))
    rw [shownTurns_length, numberedThread_length] at hpages
    exact Nat.le_trans hpages (by decide)

/-- 1025 turns take more pages of one turn than the default allows. -/
theorem conversation_inventory_limit :
    conversationSizes ⟨none, none, some 1⟩ = true ∧
      ((numberedThread 1025).turns.map HistoryTurn.id).Nodup ∧
      (∀ turn ∈ (numberedThread 1025).turns,
        validTurnId turn.id = true ∧ plainProjection.fits turn) ∧
      Shows manyTurns plainProjection (numberedThread 1025) (fun _ => true) ∧
      (numberedThread 1025).turns.length ≤ 10000 ∧
      (readThreads manyTurns plainProjection (nativeConversationHistorySchema fun _ => true)
        ⟨none, none, some 1⟩ fun _ => numberedThread 1025).2 = .error (.inventory .limit) := by
  have hsizes : conversationSizes ⟨none, none, some 1⟩ = true := by decide
  have hvalid := numberedThread_valid 1025 (by decide)
  have hfits := numberedThread_fits 1025 (by decide)
  have hshows := numberedThread_shows manyTurns 1025 (by decide)
  have hcount : (numberedThread 1025).turns.length ≤ 10000 := by
    rw [numberedThread_length]
    decide
  refine ⟨hsizes, numberedThread_nodup 1025, fun turn hturn => ⟨hvalid turn hturn, hfits turn hturn⟩,
    hshows, hcount, ?_⟩
  have hread := readThreads_unchanged manyTurns plainProjection (numberedThread 1025) hsizes
    (numberedThread_nodup 1025) hvalid hfits hshows hcount
  have hlength : (shownTurns plainProjection (numberedThread 1025)).length = 1025 := by
    rw [shownTurns_length, numberedThread_length]
  have hpages := length_pages_one (numberedThread_shown 1025 (by decide))
    (List.ne_nil_of_length_pos (by omega))
  rw [hread, Option.getD_some, hpages, hlength]
  rfl

end HarnessControl.Sdk
