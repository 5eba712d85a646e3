import HarnessControl.Harnesses.NativeWorkPage
import HarnessControl.Sdk.Inventories

/-!
# The inventory of native work

`readNativeWorkInventory` reads the roster of a session through the pages of `nativeWorkPage`.
-/

namespace HarnessControl.Sdk

open HarnessControl.Library HarnessControl.Protocol HarnessControl.State HarnessControl.Harnesses

structure WorkSnapshot where
  observationHash : String
  totalCount : Nat
  ownerStatus : OwnerStatus
  closureUnconfirmed : Bool
deriving DecidableEq

structure NativeWorkInventory extends WorkSnapshot where
  items : List WorkRow

structure InventoryOptions where
  maxCount : Option Nat
  maxPages : Option Nat
  pageSize : Option Nat

/-- A size that the caller gave, or the default, which is the greatest there is. -/
def sizeIn (given : Option Nat) (maximum : Nat) : Bool :=
  decide (1 ≤ given.getD maximum) && decide (given.getD maximum ≤ maximum)

def nativeWorkReader : InventoryReader WorkSnapshot WorkRow where
  count := WorkSnapshot.totalCount
  id row := row.work.workId
  validId _ := true
  duplicate := .duplicateWork

def inventoryPage (page : WorkReadPage) : InventoryPage WorkSnapshot WorkRow :=
  ⟨⟨page.observationHash, page.totalCount, page.ownerStatus, page.closureUnconfirmed⟩, page.items,
    page.nextCursor⟩

def nativeWorkSizes (options : InventoryOptions) : Bool :=
  sizeIn options.maxCount 128 && sizeIn options.maxPages 128 && sizeIn options.pageSize 32

/-- The result, with the number of requests that were made. -/
def readNativeWorkInventory {ρ : Type}
    (readNativeWork : Nat → Option String → Option Nat → Except ρ WorkReadPage)
    (options : InventoryOptions) : Nat × Except (InventoryError ρ) NativeWorkInventory :=
  if nativeWorkSizes options then
    let read := nativeWorkReader.readPages (options.maxCount.getD 128)
      (fun index cursor =>
        (readNativeWork index cursor (some (options.pageSize.getD 32))).map inventoryPage)
      (options.maxPages.getD 128) 0 .start
    (read.1, read.2.map fun result => ⟨result.1, result.2.flatten⟩)
  else (0, .error (.inventory .limit))

/-- The reader, with the work that the session shows at each request. -/
def readShownWork (host : Host) (texts : WorkPageTexts) (sessionId : String)
    (options : InventoryOptions) (worlds : Nat → ShownWork) :
    Nat × Except (InventoryError HarnessError) NativeWorkInventory :=
  readNativeWorkInventory (fun index => nativeWorkPage host texts sessionId (worlds index)) options

/-! ## Work that stays as it is -/

section

variable (host : Host) (texts : WorkPageTexts) (sessionId : String) (shown : ShownWork)

def workSnapshot : WorkSnapshot :=
  ⟨shown.observationHash host texts sessionId, shown.rows.length, ownerStatus shown.ownerAvailable,
    shown.state.closureUnconfirmed⟩

theorem nativeWorkOffset_served {offset : Nat} (hoffset : offset ≤ shown.rows.length) :
    nativeWorkOffset host texts sessionId shown (if offset = 0 then none else
      some (texts.cursors.encode ⟨shown.observationHash host texts sessionId, offset⟩)) =
      .ok offset := by
  unfold nativeWorkOffset
  by_cases hzero : offset = 0
  · rw [if_pos hzero, hzero]
    rfl
  · rw [if_neg hzero, Option.filter_some, if_pos (bne_iff_ne.mpr (texts.cursors.encode_ne _))]
    dsimp only
    rw [texts.cursors.decode_encode]
    dsimp only
    rw [if_neg (by simp; omega)]

theorem nativeWorkPage_serves {pageSize : Nat} (hsize : 0 < pageSize)
    (hfits : ∀ row ∈ shown.rows, texts.rowBytes row ≤ maxPageBytes) :
    InventoryReader.Serves (workSnapshot host texts sessionId shown) shown.rows texts.rowBytes
      maxPageBytes pageSize id
      (fun offset => texts.cursors.encode ⟨shown.observationHash host texts sessionId, offset⟩)
      (fun _ cursor =>
        (nativeWorkPage host texts sessionId shown cursor (some pageSize)).map inventoryPage) where
  serve index offset hoffset := by
    unfold nativeWorkPage
    rw [nativeWorkOffset_served host texts sessionId shown hoffset]
    dsimp only
    rw [Option.getD_some, if_neg]
    · rfl
    · rintro ⟨hmore, hempty⟩
      have hpositive := page_pos hsize (fun row hrow => hfits row (List.mem_of_mem_drop hrow))
        (List.ne_nil_of_length_pos (by rw [List.length_drop]; omega) : shown.rows.drop offset ≠ [])
      rw [hempty] at hpositive
      exact Nat.lt_irrefl 0 hpositive
  arranged values := List.Perm.refl values
  injective a b hsame := by
    have hcursor := texts.cursors.encode_injective hsame
    exact congrArg WorkCursor.offset hcursor
  nonempty offset := texts.cursors.encode_ne _

theorem nativeWorkPage_congr {other : ShownWork}
    (h : shown.roster sessionId = other.roster sessionId) (cursor : Option String)
    (limit : Option Nat) : nativeWorkPage host texts sessionId shown cursor limit =
      nativeWorkPage host texts sessionId other cursor limit := by
  have hrows : shown.rows = other.rows := congrArg WorkRoster.rows h
  have howner : shown.ownerAvailable = other.ownerAvailable := congrArg WorkRoster.ownerAvailable h
  have hclosure : shown.state.closureUnconfirmed = other.state.closureUnconfirmed :=
    congrArg WorkRoster.closureUnconfirmed h
  unfold nativeWorkPage nativeWorkOffset ShownWork.observationHash
  rw [h, hrows, howner, hclosure]

theorem nativeWorkPage_hash {cursor : Option String} {limit : Option Nat} {page : WorkReadPage}
    (h : nativeWorkPage host texts sessionId shown cursor limit = .ok page) :
    page.observationHash = shown.observationHash host texts sessionId := by
  unfold nativeWorkPage at h
  split at h
  · cases h
  · dsimp only at h
    split at h
    · cases h
    · cases h
      rfl

theorem readNativeWorkInventory_unchanged {schemas : PayloadSchemas} {options : InventoryOptions}
    (hsizes : nativeWorkSizes options = true) (hvalid : shown.state.valid schemas = true)
    (hfits : ∀ row ∈ shown.rows, texts.rowBytes row ≤ maxPageBytes)
    (hcount : shown.rows.length ≤ options.maxCount.getD 128) :
    (readShownWork host texts sessionId options fun _ => shown).2 =
      if (pages texts.rowBytes maxPageBytes (options.pageSize.getD 32) shown.rows).length ≤
          options.maxPages.getD 128 then
        .ok ⟨workSnapshot host texts sessionId shown, shown.rows⟩
      else .error (.inventory .limit) := by
  have hpageSize : 0 < options.pageSize.getD 32 := by
    unfold nativeWorkSizes sizeIn at hsizes
    simp only [Bool.and_eq_true, decide_eq_true_eq] at hsizes
    exact hsizes.2.1
  have hserves := nativeWorkPage_serves host texts sessionId shown hpageSize hfits
  have hread : nativeWorkReader.readPages _ _ _ _ _ = _ :=
    InventoryReader.readPages_served hserves hpageSize hfits (fun _ _ => rfl)
      (ShownWork.rows_nodup hvalid) rfl hcount (options.maxPages.getD 128) 0
      InventoryReader.ReadAt.start
  unfold readShownWork readNativeWorkInventory
  rw [if_pos hsizes]
  dsimp only
  rw [hread, List.drop_zero]
  split
  · rw [List.map_id]
    change Except.ok (NativeWorkInventory.mk _ ([] ++ pages _ _ _ _).flatten) = _
    rw [List.nil_append, flatten_pages hpageSize hfits]
  · rfl

theorem pages_enough {options : InventoryOptions} (hsizes : nativeWorkSizes options = true)
    (hfits : ∀ row ∈ shown.rows, texts.rowBytes row ≤ maxPageBytes)
    (hcount : shown.rows.length ≤ options.maxCount.getD 128)
    (hpages : options.maxPages = none ∨
      (pages texts.rowBytes maxPageBytes (options.pageSize.getD 32) shown.rows).length ≤
        options.maxPages.getD 128) :
    (pages texts.rowBytes maxPageBytes (options.pageSize.getD 32) shown.rows).length ≤
      options.maxPages.getD 128 := by
  rcases hpages with hnone | hpages
  · unfold nativeWorkSizes sizeIn at hsizes
    simp only [Bool.and_eq_true, decide_eq_true_eq] at hsizes
    have hlength := length_pages_le hsizes.2.1 hfits
    rw [hnone, Option.getD_none]
    omega
  · exact hpages

end

/-! ## Work that changes -/

section

variable (host : Host) (texts : WorkPageTexts) (sessionId : String) (options : InventoryOptions)
  (worlds : Nat → ShownWork)

theorem map_eq_ok {ε α β : Type} {result : Except ε α} {f : α → β} {b : β}
    (h : result.map f = .ok b) : ∃ a, result = .ok a ∧ f a = b := by
  cases result with
  | error error => cases h
  | ok a => exact ⟨a, rfl, Except.ok.inj h⟩

theorem readShownWork_hash (inventory : NativeWorkInventory)
    (hread : (readShownWork host texts sessionId options worlds).2 = .ok inventory) (i : Nat)
    (hi : i < (readShownWork host texts sessionId options worlds).1) :
    (worlds i).observationHash host texts sessionId = inventory.observationHash := by
  unfold readShownWork readNativeWorkInventory at hread hi
  by_cases hsizes : nativeWorkSizes options = true
  · rw [if_pos hsizes] at hread hi
    rcases map_eq_ok hread with ⟨result, hresult, rfl⟩
    have hall := (InventoryReader.readPages_snapshots (Prod.ext rfl hresult)).2 i (Nat.zero_le i) hi
    rcases hall with ⟨cursor, page, hpage, hsnapshot⟩
    rcases map_eq_ok hpage with ⟨shownPage, hshown, rfl⟩
    rw [← nativeWorkPage_hash host texts sessionId (worlds i) hshown, ← hsnapshot]
    rfl
  · rw [if_neg hsizes] at hread
    cases hread

theorem readShownWork_congr {others : Nat → ShownWork}
    (hsame : ∀ i < (readShownWork host texts sessionId options worlds).1,
      (worlds i).roster sessionId = (others i).roster sessionId) :
    readShownWork host texts sessionId options worlds =
      readShownWork host texts sessionId options others := by
  unfold readShownWork readNativeWorkInventory at *
  by_cases hsizes : nativeWorkSizes options = true
  · rw [if_pos hsizes] at hsame ⊢
    rw [if_pos hsizes]
    dsimp only at hsame ⊢
    rw [InventoryReader.readPages_congr nativeWorkReader]
    intro i cursor _ hi
    rw [nativeWorkPage_congr host texts sessionId (worlds i) (hsame i hi)]
  · rw [if_neg hsizes, if_neg hsizes]

end

/-- Reading the native work page by page gives the rows of all items, sorted by id, if the pages
that the caller allows are enough; if the work that is shown changes between two requests, the read
fails, and no result mixes two rosters. -/
theorem native_work_inventory (schemas : PayloadSchemas) (host : Host) (texts : WorkPageTexts)
    (sessionId : String) (options : InventoryOptions) (worlds : Nat → ShownWork)
    (hsizes : nativeWorkSizes options = true)
    (hsha : ∀ i j, host.sha256 (texts.observation ((worlds i).roster sessionId)) =
        host.sha256 (texts.observation ((worlds j).roster sessionId)) →
      texts.observation ((worlds i).roster sessionId) =
        texts.observation ((worlds j).roster sessionId))
    (htext : ∀ i j, texts.observation ((worlds i).roster sessionId) =
        texts.observation ((worlds j).roster sessionId) →
      (worlds i).roster sessionId = (worlds j).roster sessionId) :
    ((∀ index, worlds index = worlds 0) → (worlds 0).state.valid schemas = true →
      (∀ row ∈ (worlds 0).rows, texts.rowBytes row ≤ maxPageBytes) →
      (worlds 0).rows.length ≤ options.maxCount.getD 128 →
      (options.maxPages = none ∨
        (pages texts.rowBytes maxPageBytes (options.pageSize.getD 32) (worlds 0).rows).length ≤
          options.maxPages.getD 128) →
      (readShownWork host texts sessionId options worlds).2 =
          .ok ⟨workSnapshot host texts sessionId (worlds 0), (worlds 0).rows⟩ ∧
        (worlds 0).rows.Pairwise (fun a b => textLe a.work.workId b.work.workId = true) ∧
        ((worlds 0).rows.map fun row => row.work.workId).Nodup ∧
        ((worlds 0).rows.map WorkRow.work).Perm (worlds 0).state.items.values) ∧
    (∀ i j, i < (readShownWork host texts sessionId options worlds).1 →
      j < (readShownWork host texts sessionId options worlds).1 →
      (worlds i).roster sessionId ≠ (worlds j).roster sessionId →
      ∃ error, (readShownWork host texts sessionId options worlds).2 = .error error) ∧
    ∀ inventory, (readShownWork host texts sessionId options worlds).2 = .ok inventory →
      (readShownWork host texts sessionId options fun _ => worlds 0).2 = .ok inventory := by
  have hsame : ∀ inventory, (readShownWork host texts sessionId options worlds).2 = .ok inventory →
      ∀ i j, i < (readShownWork host texts sessionId options worlds).1 →
        j < (readShownWork host texts sessionId options worlds).1 →
        (worlds i).roster sessionId = (worlds j).roster sessionId := by
    intro inventory hread i j hi hj
    apply htext i j (hsha i j _)
    have hleft := readShownWork_hash host texts sessionId options worlds inventory hread i hi
    have hright := readShownWork_hash host texts sessionId options worlds inventory hread j hj
    exact hleft.trans hright.symm
  refine ⟨?_, ?_, ?_⟩
  · intro hunchanged hvalid hfits hcount hpages
    have hworlds : worlds = fun _ => worlds 0 := funext hunchanged
    have hread := readNativeWorkInventory_unchanged host texts sessionId (worlds 0) hsizes hvalid
      hfits hcount
    have henough := pages_enough texts (worlds 0) hsizes hfits hcount hpages
    rw [if_pos henough, ← hworlds] at hread
    exact ⟨hread, (worlds 0).rows_sorted, ShownWork.rows_nodup hvalid, (worlds 0).rows_perm⟩
  · intro i j hi hj hchanged
    cases hread : (readShownWork host texts sessionId options worlds).2 with
    | error error => exact ⟨error, rfl⟩
    | ok inventory =>
      exact absurd (hsame inventory hread i j hi hj) hchanged
  · intro inventory hread
    rw [← readShownWork_congr host texts sessionId options worlds, hread]
    intro i hi
    exact hsame inventory hread i 0 hi (Nat.zero_lt_of_lt hi)

/-! ## Two items -/

def twoItems : ShownWork where
  state := { plainWorkState with
    items := (Dict.empty.set "work-1" plainWork).set "work-2" { plainWork with workId := "work-2" } }
  ownerAvailable := false
  live := []

/-- `JSON.stringify` of the roster of the two items. -/
def twoItemsText : String :=
  "\x7b\"sessionId\":\"session-1\",\"ownerAvailable\":false,\"rows\":[\x7b\"work\":\x7b" ++
  "\"work_id\":\"work-1\",\"native_reference\":\"thread-3\",\"origin_turn_id\":\"turn-1" ++
  "\",\"kind\":\"agent\",\"background\":false,\"status\":\"completed\",\"supports_cance" ++
  "l\":false,\"revision\":1\x7d,\"owner_status\":\"unavailable\"\x7d,\x7b\"work\":\x7b" ++
  "\"work_id\":\"work-2\",\"native_reference\":\"thread-3\",\"origin_turn_id\":\"turn-1" ++
  "\",\"kind\":\"agent\",\"background\":false,\"status\":\"completed\",\"supports_cance" ++
  "l\":false,\"revision\":1\x7d,\"owner_status\":\"unavailable\"\x7d]\x7d"

def twoItemsTexts : WorkPageTexts where
  observation _ := twoItemsText
  rowBytes _ := 206
  cursors := plainCodec.map (fun cursor => (cursor.offset, cursor.hash, ""))
    (fun entry => ⟨entry.2.1, entry.1⟩) fun _ => rfl

/-- Only the text of the roster is hashed with it. -/
def twoItemsHost : Host :=
  { plainHost with
    sha256 := fun _ => "1e96d630c2a09deb877f80e4fb5c7fecbc298928c28a8305357ae9f9aeb051be"
    sha256_hex := fun _ => by decide }

theorem twoItems_length : twoItems.rows.length = 2 := by
  unfold ShownWork.rows
  rw [List.length_map, List.length_mergeSort]
  rfl

theorem twoItems_valid : twoItems.state.valid plainSchemas = true := by decide

theorem twoItems_fits (row : WorkRow) (_ : row ∈ twoItems.rows) :
    twoItemsTexts.rowBytes row ≤ maxPageBytes := by
  show 206 ≤ maxPageBytes
  decide

theorem twoItems_count : twoItems.rows.length ≤ 128 := by
  rw [twoItems_length]
  decide

theorem twoItems_pages :
    (pages twoItemsTexts.rowBytes maxPageBytes 1 twoItems.rows).length = 2 := by
  rw [length_pages_one twoItems_fits (List.ne_nil_of_length_pos (by rw [twoItems_length]; decide)),
    twoItems_length]

/-- One item is on each page, so that a cursor is followed. -/
theorem native_work_inventory_two :
    (pages twoItemsTexts.rowBytes maxPageBytes 1 twoItems.rows).length = 2 ∧
      (readShownWork twoItemsHost twoItemsTexts "session-1" ⟨none, none, some 1⟩
        fun _ => twoItems).2 =
        .ok ⟨workSnapshot twoItemsHost twoItemsTexts "session-1" twoItems, twoItems.rows⟩ := by
  have hread := native_work_inventory plainSchemas twoItemsHost twoItemsTexts "session-1"
    ⟨none, none, some 1⟩ (fun _ => twoItems) (by decide) (fun _ _ _ => rfl) (fun _ _ _ => rfl)
  exact ⟨twoItems_pages, (hread.1 (fun _ => rfl) twoItems_valid twoItems_fits twoItems_count
    (Or.inl rfl)).1⟩

/-- The caller allows fewer pages than the items take. -/
theorem native_work_inventory_limit :
    nativeWorkSizes ⟨none, some 1, some 1⟩ = true ∧ twoItems.state.valid plainSchemas = true ∧
      (∀ row ∈ twoItems.rows, twoItemsTexts.rowBytes row ≤ maxPageBytes) ∧
      twoItems.rows.length ≤ 128 ∧
      (readShownWork twoItemsHost twoItemsTexts "session-1" ⟨none, some 1, some 1⟩
        fun _ => twoItems).2 = .error (.inventory .limit) := by
  have hsizes : nativeWorkSizes ⟨none, some 1, some 1⟩ = true := by decide
  have hread := readNativeWorkInventory_unchanged twoItemsHost twoItemsTexts "session-1" twoItems
    hsizes twoItems_valid twoItems_fits twoItems_count
  refine ⟨hsizes, twoItems_valid, twoItems_fits, twoItems_count, ?_⟩
  rw [hread, Option.getD_some, Option.getD_some, twoItems_pages]
  rfl

end HarnessControl.Sdk
