import HarnessControl.Workspaces.Browse

/-!
# Following the pages of a folder

Where every entry can be followed or is left out, and where no entry is too long for a page, the
pages put together are the directories of the folder.
-/

namespace HarnessControl.Workspaces

open HarnessControl.Library HarnessControl.Library.Posix

section

variable (system : FileSystem) (roots : List Path) (directory : Path)

/-- An entry of a folder that resolves to a directory in one of the roots. -/
def Listed (listing : List Dirent) (item : DirectoryEntry) : Prop :=
  ∃ entry ∈ listing, entry.name = item.name ∧
    system.realpath (join directory entry.name) = .ok item.path ∧
    Inside system roots item.path ∧ system.isDirectory item.path = .ok true

/-- An entry can be followed, or the error is one that leaves it out. -/
def Followed (entry : Dirent) : Prop :=
  ∀ code, visit system roots directory entry = .error code → code.skipped = true

def resolved (entry : Dirent) : Option DirectoryEntry :=
  match visit system roots directory entry with
  | .error _ => none
  | .ok found => found

end

variable {system : FileSystem} {roots : List Path} {directory : Path}

/-! ## One entry -/

variable {entry : Dirent} {item : DirectoryEntry}

theorem visit_ok_some :
    visit system roots directory entry = .ok (some item) ↔
      entry.name = item.name ∧ system.realpath (join directory entry.name) = .ok item.path ∧
        Inside system roots item.path ∧ system.isDirectory item.path = .ok true := by
  unfold visit
  rw [bind_ok]
  constructor
  · rintro ⟨canonical, hcanonical, h⟩
    split at h
    · rename_i hinside
      obtain ⟨found, hfound, h⟩ := map_ok.mp h
      cases found with
      | false => nomatch h
      | true =>
        obtain rfl := Option.some.inj h
        exact ⟨rfl, hcanonical, any_contained.mp hinside, hfound⟩
    · nomatch h
  · rintro ⟨hname, hcanonical, hinside, hfound⟩
    refine ⟨item.path, hcanonical, ?_⟩
    rw [if_pos (any_contained.mpr hinside), hfound, hname]
    rfl

theorem resolved_eq_some :
    resolved system roots directory entry = some item ↔
      visit system roots directory entry = .ok (some item) := by
  unfold resolved
  cases visit system roots directory entry with
  | error code => exact ⟨nofun, nofun⟩
  | ok found => exact ⟨fun h => congrArg _ h, fun h => Except.ok.inj h⟩

theorem resolved_key
    (h : resolved system roots directory entry = some item) : item.key = entry.key := by
  have hname := (visit_ok_some.mp (resolved_eq_some.mp h)).1
  unfold DirectoryEntry.key Dirent.key
  rw [hname]

/-- The directories of a folder, in order. -/
def items (system : FileSystem) (roots : List Path) (directory : Path) (listing : List Dirent) :
    List DirectoryEntry :=
  (candidates none listing).filterMap (resolved system roots directory)

theorem mem_items {path : Path} {listing : List Dirent}
    (hdirectory : system.realpath path = .ok directory)
    (hlisting : system.readdir directory = .ok listing) {item : DirectoryEntry} :
    item ∈ items system roots directory listing ↔ Listed system roots directory listing item := by
  unfold items Listed
  rw [List.mem_filterMap]
  apply exists_congr
  intro entry
  rw [mem_candidates, resolved_eq_some, visit_ok_some, and_assoc]
  apply and_congr_right
  intro hentry
  constructor
  · exact fun h => h.2
  · intro h
    refine ⟨fun hkind => ?_, h⟩
    exact system.other_kind hdirectory hlisting hentry hkind h.2.1 h.2.2.2

theorem items_ascending {listing : List Dirent} (h : (listing.map Dirent.name).Nodup) :
    Ascending DirectoryEntry.key (items system roots directory listing) :=
  (candidates_ascending h).filterMap fun _ _ => resolved_key

/-! ## One page -/

variable {times : Times}

theorem collect_followed (hfresh : ∀ reading, times.now reading < times.expires_at)
    {list : List Dirent} (h : ∀ entry ∈ list, Followed system roots directory entry)
    (reading used : Nat) {entries : List DirectoryEntry} (hcount : entries.length ≤ maxEntries) :
    let found := list.filterMap (resolved system roots directory)
    let more :=
      fill DirectoryEntry.bytes maxPageBytes used (found.take (maxEntries - entries.length))
    collect system roots directory times reading entries used list =
      .ok (entries ++ more, decide (more.length < found.length)) := by
  induction list generalizing reading used entries with
  | nil =>
    dsimp only
    unfold collect
    rw [List.filterMap_nil, List.take_nil, fill, List.append_nil]
    rfl
  | cons entry rest ih =>
    rw [List.forall_mem_cons] at h
    have hvisit := h.1
    dsimp only at ih ⊢
    unfold collect
    rw [if_neg (Int.not_le.mpr (hfresh reading))]
    unfold Followed at hvisit
    cases hentry : visit system roots directory entry with
    | error code =>
      have hnone : resolved system roots directory entry = none := by
        unfold resolved
        rw [hentry]
      dsimp only
      rw [if_pos (hvisit code hentry), ih h.2 _ _ hcount, List.filterMap_cons_none hnone]
    | ok found =>
      have hresolved : resolved system roots directory entry = found := by
        unfold resolved
        rw [hentry]
      cases found with
      | none =>
        dsimp only
        rw [ih h.2 _ _ hcount, List.filterMap_cons_none hresolved]
      | some item =>
        dsimp only
        rw [List.filterMap_cons_some hresolved, List.length_cons]
        by_cases hfull : entries.length = maxEntries
        · rw [if_pos (Or.inl hfull), hfull, Nat.sub_self, List.take_zero, fill,
            List.append_nil, List.length_nil, decide_eq_true (Nat.succ_pos _)]
        · obtain ⟨left, hleft⟩ : ∃ left, maxEntries - entries.length = left + 1 :=
            ⟨maxEntries - entries.length - 1, by omega⟩
          rw [hleft, List.take_succ_cons, fill]
          by_cases hlarge : maxPageBytes < used + item.bytes
          · rw [if_pos (Or.inr hlarge), if_pos hlarge, List.append_nil, List.length_nil,
              decide_eq_true (Nat.succ_pos _)]
          · have hnext : maxEntries - (entries ++ [item]).length = left := by
              rw [List.length_append, List.length_singleton]
              omega
            rw [if_neg (fun hor => hor.elim hfull hlarge), if_neg hlarge,
              ih h.2 _ _ (by rw [List.length_append, List.length_singleton]; omega), hnext,
              List.append_assoc, List.singleton_append, List.length_cons]
            congr 2
            rw [decide_eq_decide]
            omega

/-- What a page that succeeds says of the candidates that it went through. -/
def WentThrough (system : FileSystem) (roots : List Path) (directory : Path) (list : List Dirent)
    (entries result : List DirectoryEntry) (more : Bool) : Prop :=
  ∃ seen rest, list = seen ++ rest ∧ (∀ entry ∈ seen, Followed system roots directory entry) ∧
    result = entries ++ seen.filterMap (resolved system roots directory) ∧
    (∀ item ∈ seen.filterMap (resolved system roots directory), item.bytes ≤ maxPageBytes) ∧
    (more = false → rest = [])

variable {entries result : List DirectoryEntry}

theorem WentThrough.skip {list : List Dirent} {more : Bool}
    (hfollowed : Followed system roots directory entry)
    (hnone : resolved system roots directory entry = none)
    (h : WentThrough system roots directory list entries result more) :
    WentThrough system roots directory (entry :: list) entries result more := by
  obtain ⟨seen, rest, hlist, hseen, hresult, hsize, hlast⟩ := h
  refine ⟨entry :: seen, rest, by rw [hlist, List.cons_append], ?_, ?_, ?_, hlast⟩
  · exact List.forall_mem_cons.mpr ⟨hfollowed, hseen⟩
  · rw [List.filterMap_cons_none hnone]
    exact hresult
  · rw [List.filterMap_cons_none hnone]
    exact hsize

theorem WentThrough.take {list : List Dirent} {more : Bool}
    (hfollowed : Followed system roots directory entry)
    (hitem : resolved system roots directory entry = some item) (hfits : item.bytes ≤ maxPageBytes)
    (h : WentThrough system roots directory list (entries ++ [item]) result more) :
    WentThrough system roots directory (entry :: list) entries result more := by
  obtain ⟨seen, rest, hlist, hseen, hresult, hsize, hlast⟩ := h
  refine ⟨entry :: seen, rest, by rw [hlist, List.cons_append], ?_, ?_, ?_, hlast⟩
  · exact List.forall_mem_cons.mpr ⟨hfollowed, hseen⟩
  · rw [List.filterMap_cons_some hitem, hresult, List.append_assoc, List.singleton_append]
  · rw [List.filterMap_cons_some hitem]
    exact List.forall_mem_cons.mpr ⟨hfits, hsize⟩

theorem collect_ok {list : List Dirent} {reading used : Nat} {more : Bool}
    (h : collect system roots directory times reading entries used list = .ok (result, more)) :
    WentThrough system roots directory list entries result more := by
  induction list generalizing reading used entries with
  | nil =>
    unfold collect at h
    obtain ⟨rfl, rfl⟩ := Prod.mk.inj (Except.ok.inj h)
    exact ⟨[], [], rfl, nofun, (List.append_nil _).symm, nofun, fun _ => rfl⟩
  | cons entry others ih =>
    unfold collect at h
    split at h
    · nomatch h
    · cases hentry : visit system roots directory entry with
      | error code =>
        have hnone : resolved system roots directory entry = none := by
          unfold resolved
          rw [hentry]
        rw [hentry] at h
        dsimp only at h
        split at h
        · rename_i hskipped
          apply WentThrough.skip _ hnone (ih h)
          intro other hother
          rw [hentry] at hother
          exact Except.error.inj hother ▸ hskipped
        · nomatch h
      | ok found =>
        have hfollowed : Followed system roots directory entry := by
          intro other hother
          rw [hentry] at hother
          nomatch hother
        have hresolved : resolved system roots directory entry = found := by
          unfold resolved
          rw [hentry]
        rw [hentry] at h
        cases found with
        | none => exact WentThrough.skip hfollowed hresolved (ih h)
        | some item =>
          dsimp only at h
          split at h
          · obtain ⟨rfl, rfl⟩ := Prod.mk.inj (Except.ok.inj h)
            exact ⟨[], entry :: others, rfl, nofun, (List.append_nil _).symm, nofun, nofun⟩
          · rename_i hroom
            have hfits : item.bytes ≤ maxPageBytes := by
              have hsmall := fun hlarge => hroom (Or.inr hlarge)
              omega
            exact WentThrough.take hfollowed hresolved hfits (ih h)

/-! ## All pages -/

/-- Requests that follow the cursors until there is none. -/
inductive Browses (system : FileSystem) (allowed : List Path) (path : Option Path)
    (times : Nat → Times) : Nat → Option Path → List DirectoryOutcome → Prop where
  | last {request : Nat} {cursor : Option Path} {page : DirectoryOutcome} :
    browse system allowed (times request) ⟨path, cursor⟩ = .ok page →
    page.next_cursor = none → Browses system allowed path times request cursor [page]
  | next {request : Nat} {cursor : Option Path} {page : DirectoryOutcome} {reached : Path}
    {pages : List DirectoryOutcome} :
    browse system allowed (times request) ⟨path, cursor⟩ = .ok page →
    page.next_cursor = some reached →
    Browses system allowed path times (request + 1) (some reached) pages →
    Browses system allowed path times request cursor (page :: pages)

/-- Every directory of a folder once, in increasing order, on pages that are not too long. -/
structure Complete (system : FileSystem) (roots : List Path) (directory : Path)
    (listing : List Dirent) (pages : List DirectoryOutcome) : Prop where
  ascending : Ascending DirectoryEntry.key (pages.flatMap DirectoryOutcome.entries)
  listed : ∀ item, item ∈ pages.flatMap DirectoryOutcome.entries ↔
    Listed system roots directory listing item
  short : ∀ page ∈ pages, page.entries.length ≤ 200

section

variable {allowed : List Path} {path : Option Path} {listing : List Dirent}
  {requests : Nat → Times}
  (hroots : canonicalRoots system allowed = .ok roots)
  (hdirectory : allowedDirectory system (requestedPath system roots path) roots = .ok directory)
  (hlisting : system.readdir directory = .ok listing)

include hroots hdirectory hlisting in
theorem browse_allowed (hfresh : times.now 0 < times.expires_at) (cursor : Option Path) :
    browse system allowed times ⟨path, cursor⟩ =
      (collect system roots directory times 1 [] 0 (candidates cursor listing)).bind fun page =>
        directoryOutcome system roots directory page.1 page.2 := by
  unfold browse
  rw [if_neg (Int.not_le.mpr hfresh), hroots]
  dsimp only [Except.bind]
  rw [hdirectory]
  dsimp only
  rw [ofSystem_ok.mpr hlisting]

variable {entries : List DirectoryEntry}

theorem directoryOutcome_last {page : DirectoryOutcome}
    (h : directoryOutcome system roots directory entries false = .ok page) :
    page.entries = entries ∧ page.next_cursor = none := by
  obtain rfl := Except.ok.inj h
  exact ⟨rfl, rfl⟩

theorem directoryOutcome_more {page : DirectoryOutcome}
    (h : directoryOutcome system roots directory entries true = .ok page) :
    page.entries = entries ∧ ∃ last, entries.getLast? = some last ∧
      page.next_cursor = some last.name.val := by
  unfold directoryOutcome at h
  dsimp only at h
  rw [if_pos rfl] at h
  cases hlast : entries.getLast? with
  | none =>
    rw [hlast] at h
    nomatch h
  | some last =>
    rw [hlast] at h
    obtain rfl := Except.ok.inj h
    exact ⟨rfl, last, rfl, rfl⟩

theorem directoryOutcome_some {last : DirectoryEntry}
    (h : entries.getLast? = some last) :
    ∃ page, directoryOutcome system roots directory entries true = .ok page ∧
      page.entries = entries ∧ page.next_cursor = some last.name.val := by
  unfold directoryOutcome
  rw [h]
  exact ⟨_, rfl, rfl, rfl⟩

theorem lastKey_eq {last : DirectoryEntry}
    (h : entries.getLast? = some last) :
    lastKey DirectoryEntry.key entries = (some last.name.val).map nameKey := by
  unfold lastKey
  rw [h]
  rfl

include hroots hdirectory hlisting in
theorem browses_followed
    (hfresh : ∀ request reading, (requests request).now reading < (requests request).expires_at)
    (hfollowed : ∀ entry ∈ candidates none listing, Followed system roots directory entry)
    (hsize : ∀ item ∈ items system roots directory listing, item.bytes ≤ maxPageBytes) (left : Nat)
    (request : Nat) (cursor : Option Path)
    (hleft : (after DirectoryEntry.key (cursor.map nameKey)
      (items system roots directory listing)).length = left) :
    ∃ pages, Browses system allowed path requests request cursor pages ∧
      pages.flatMap DirectoryOutcome.entries =
        after DirectoryEntry.key (cursor.map nameKey) (items system roots directory listing) ∧
      ∀ page ∈ pages, page.entries.length ≤ maxEntries := by
  have hnames := system.names_nodup hlisting
  have hsorted : Ascending DirectoryEntry.key (after DirectoryEntry.key (cursor.map nameKey)
      (items system roots directory listing)) :=
    (items_ascending hnames).after (cursor.map nameKey)
  induction left using Nat.strongRecOn generalizing request cursor with
  | ind left ih =>
    have hcandidates : ∀ entry ∈ candidates cursor listing,
        Followed system roots directory entry := by
      rw [candidates_eq hnames]
      exact fun entry hentry => hfollowed entry (mem_after.mp hentry).1
    have hfound : (candidates cursor listing).filterMap (resolved system roots directory) =
        after DirectoryEntry.key (cursor.map nameKey) (items system roots directory listing) := by
      rw [candidates_eq hnames, after_filterMap fun _ _ => resolved_key]
      rfl
    have hnone : ([] : List DirectoryEntry).length ≤ maxEntries := Nat.zero_le _
    have hcollect := collect_followed (hfresh request) hcandidates 1 0 hnone
    have hbrowse := browse_allowed hroots hdirectory hlisting (hfresh request 0) cursor
    dsimp only at hcollect
    rw [hfound, List.length_nil, Nat.sub_zero, List.nil_append] at hcollect
    rw [hcollect] at hbrowse
    dsimp only [Except.bind] at hbrowse
    generalize hrest : after DirectoryEntry.key (cursor.map nameKey)
      (items system roots directory listing) = rest at *
    have hfits : ∀ item ∈ rest, item.bytes ≤ maxPageBytes := by
      rw [← hrest]
      exact fun item hitem => hsize item (mem_after.mp hitem).1
    change browse system allowed (requests request) ⟨path, cursor⟩ =
      directoryOutcome system roots directory
        (page DirectoryEntry.bytes maxPageBytes maxEntries rest)
        (decide ((page DirectoryEntry.bytes maxPageBytes maxEntries rest).length < rest.length))
      at hbrowse
    have hshort : (page DirectoryEntry.bytes maxPageBytes maxEntries rest).length ≤ maxEntries :=
      page_length_limit rest
    have hparts : page DirectoryEntry.bytes maxPageBytes maxEntries rest ++
        rest.drop (page DirectoryEntry.bytes maxPageBytes maxEntries rest).length = rest :=
      page_append_drop rest
    have hlimit : 0 < maxEntries := by decide
    by_cases hmore : (page DirectoryEntry.bytes maxPageBytes maxEntries rest).length < rest.length
    · rw [decide_eq_true hmore] at hbrowse
      have hadvance := page_advances hlimit hfits hmore
      generalize hfirst : page DirectoryEntry.bytes maxPageBytes maxEntries rest = first at *
      have hne := List.ne_nil_of_length_pos hadvance
      have hlast := List.getLast?_eq_some_getLast hne
      obtain ⟨answer, hanswer, hentries, hnext⟩ :
          ∃ answer, directoryOutcome system roots directory first true = .ok answer ∧
            answer.entries = first ∧
            answer.next_cursor = some (first.getLast hne).name.val :=
        directoryOutcome_some hlast
      -- the next page begins after the last directory of this one
      have hkey := lastKey_eq hlast
      have hlater : ∀ reached, cursor.map nameKey = some reached →
          reached < nameKey (first.getLast hne).name.val := by
        have hin : first.getLast hne ∈ rest := by
          rw [← hparts]
          exact List.mem_append_left _ (List.getLast_mem hne)
        rw [← hrest] at hin
        exact (mem_after.mp hin).2
      have hrestNext : after DirectoryEntry.key ((some (first.getLast hne).name.val).map nameKey)
          (items system roots directory listing) = rest.drop first.length := by
        rw [Option.map_some, ← after_after hlater, hrest, ← Option.map_some (f := nameKey),
          ← hkey]
        conv_lhs => rw [← hparts]
        apply Ascending.after_lastKey _ hne
        rw [hparts]
        exact hsorted
      obtain ⟨pages, hbrowses, hpages, hlengths⟩ := ih (rest.drop first.length).length
        (by rw [List.length_drop]; omega) (request + 1) (some (first.getLast hne).name.val)
        (by rw [hrestNext])
        (by
          rw [hrestNext]
          exact List.Pairwise.sublist (List.drop_sublist _ _) hsorted)
      refine ⟨answer :: pages, Browses.next (hbrowse.trans hanswer) hnext hbrowses, ?_, ?_⟩
      · rw [List.flatMap_cons, hpages, hentries, hrestNext]
        exact hparts
      · rw [List.forall_mem_cons, hentries]
        exact ⟨hshort, hlengths⟩
    · rw [decide_eq_false hmore] at hbrowse
      obtain ⟨answer, hanswer, hentries, hnext⟩ :
          ∃ answer, directoryOutcome system roots directory
              (page DirectoryEntry.bytes maxPageBytes maxEntries rest) false = .ok answer ∧
            answer.entries = page DirectoryEntry.bytes maxPageBytes maxEntries rest ∧
            answer.next_cursor = none := ⟨_, rfl, rfl, rfl⟩
      refine ⟨[answer], Browses.last (hbrowse.trans hanswer) hnext, ?_, ?_⟩
      · rw [List.flatMap_singleton, hentries]
        exact (page_isPrefix rest).eq_of_length_le (Nat.not_lt.mp hmore)
      · rw [List.forall_mem_singleton, hentries]
        exact hshort

include hroots hdirectory hlisting in
theorem followed_of_browses
    (hfresh : ∀ request reading, (requests request).now reading < (requests request).expires_at)
    {request : Nat} {cursor : Option Path} {pages : List DirectoryOutcome}
    (h : Browses system allowed path requests request cursor pages) :
    (∀ entry ∈ candidates cursor listing, Followed system roots directory entry) ∧
      ∀ item ∈ (candidates cursor listing).filterMap (resolved system roots directory),
        item.bytes ≤ maxPageBytes := by
  have hnames := system.names_nodup hlisting
  induction h with
  | @last request cursor page hpage hcursor =>
    rw [browse_allowed hroots hdirectory hlisting (hfresh request 0), bind_ok] at hpage
    obtain ⟨⟨entries, more⟩, hcollect, hpage⟩ := hpage
    obtain ⟨seen, rest, hlist, hseen, _, hsize, hlast⟩ := collect_ok hcollect
    cases more with
    | true =>
      obtain ⟨_, last, _, hnext⟩ := directoryOutcome_more hpage
      rw [hcursor] at hnext
      nomatch hnext
    | false =>
      rw [hlist, hlast rfl, List.append_nil]
      exact ⟨hseen, hsize⟩
  | @next request cursor page reached pages hpage hcursor _ ih =>
    rw [browse_allowed hroots hdirectory hlisting (hfresh request 0), bind_ok] at hpage
    obtain ⟨⟨entries, more⟩, hcollect, hpage⟩ := hpage
    obtain ⟨seen, rest, hlist, hseen, hresult, hsize, _⟩ := collect_ok hcollect
    cases more with
    | false =>
      have hnone := (directoryOutcome_last hpage).2
      rw [hcursor] at hnone
      nomatch hnone
    | true =>
      obtain ⟨_, last, hlast, hnext⟩ := directoryOutcome_more hpage
      obtain rfl := Option.some.inj (hcursor.symm.trans hnext)
      rw [List.nil_append] at hresult
      have hin := List.mem_of_getLast? hlast
      dsimp only at hresult hin
      rw [hresult] at hin
      obtain ⟨entry, hentry, hresolved⟩ := List.mem_filterMap.mp hin
      obtain ⟨before, later, rfl⟩ := List.append_of_mem hentry
      -- what is left begins after that entry
      have hkey : nameKey last.name.val = entry.key := resolved_key hresolved
      have hleft : candidates (some last.name.val) listing = later ++ rest := by
        have hlater : ∀ reached, cursor.map nameKey = some reached → reached < entry.key := by
          have hmem : entry ∈ candidates cursor listing := by
            rw [hlist]
            exact List.mem_append_left _ hentry
          rw [candidates_eq hnames] at hmem
          exact (mem_after.mp hmem).2
        have hsorted := (candidates_ascending hnames).after (cursor.map nameKey)
        rw [← candidates_eq hnames, hlist, List.append_assoc, List.cons_append] at hsorted
        rw [candidates_eq hnames, Option.map_some, hkey, ← after_after hlater,
          ← candidates_eq hnames, hlist, List.append_assoc, List.cons_append]
        exact hsorted.after_append_cons
      rw [hleft] at ih
      rw [hlist]
      constructor
      · intro other hother
        obtain hother | hother := List.mem_append.mp hother
        · exact hseen other hother
        · exact ih.1 other (List.mem_append_right _ hother)
      · intro item hitem
        rw [List.filterMap_append] at hitem ih
        obtain hitem | hitem := List.mem_append.mp hitem
        · exact hsize item hitem
        · exact ih.2 item (List.mem_append_right _ hitem)

include hroots hdirectory hlisting in
/-- Following the cursors ends with every directory of the folder exactly where every directory and
link can be followed or is left out, and every entry fits on a page. -/
theorem browsing_loses_nothing
    (hfresh : ∀ request reading, (requests request).now reading < (requests request).expires_at) :
    (∃ pages, Browses system allowed path requests 0 none pages ∧
        Complete system roots directory listing pages) ↔
      (∀ entry ∈ listing, entry.kind ≠ .other → Followed system roots directory entry) ∧
        ∀ item, Listed system roots directory listing item → item.bytes ≤ maxPageBytes := by
  have hreal := (allowedDirectory_ok.mp hdirectory).2.1
  have hitems : ∀ item, item ∈ items system roots directory listing ↔
      Listed system roots directory listing item := fun item => mem_items hreal hlisting
  constructor
  · rintro ⟨pages, hbrowses, _⟩
    obtain ⟨hfollowed, hsize⟩ := followed_of_browses hroots hdirectory hlisting hfresh hbrowses
    constructor
    · exact fun entry hentry hkind => hfollowed entry (mem_candidates.mpr ⟨hentry, hkind⟩)
    · exact fun item hitem => hsize item ((hitems item).mpr hitem)
  · rintro ⟨hfollowed, hsize⟩
    obtain ⟨pages, hbrowses, hpages, hshort⟩ := browses_followed hroots hdirectory hlisting hfresh
      (fun entry hentry =>
        have hin := mem_candidates.mp hentry
        hfollowed entry hin.1 hin.2)
      (fun item hitem => hsize item ((hitems item).mp hitem)) _ 0 none rfl
    rw [Option.map_none, after_none] at hpages
    refine ⟨pages, hbrowses, ?_, ?_, hshort⟩
    · rw [hpages]
      exact items_ascending (system.names_nodup hlisting)
    · rw [hpages]
      exact hitems

end

/-! ## A link that leads nowhere -/

def linkRoot : Path := Utf16.text "/r"

def brokenLink : Dirent := ⟨⟨Utf16.text "b", by decide⟩, .symbolicLink⟩

/-- More directories than there are on a page, each named by one character. -/
def linkDirectories : List Dirent :=
  (List.range 201).map fun n => ⟨⟨[UInt16.ofNat (0x4E00 + n)], List.cons_ne_nil _ _⟩, .directory⟩

def linkListing : List Dirent := brokenLink :: linkDirectories

def linkPaths : List Path := linkDirectories.map fun entry => join linkRoot entry.name

theorem linkDirectories_nodup : (linkDirectories.map Dirent.name).Nodup := by
  unfold linkDirectories
  rw [List.map_map]
  refine List.nodup_range.map_on fun m hm n hn hname => ?_
  rw [List.mem_range] at hm hn
  have hunit := congrArg UInt16.toNat (List.cons.inj (congrArg Subtype.val hname)).1
  rw [Utf16.toNat_ofNat (by omega), Utf16.toNat_ofNat (by omega)] at hunit
  omega

theorem linkListing_nodup : (linkListing.map Dirent.name).Nodup :=
  List.nodup_cons.mpr ⟨by decide +kernel, linkDirectories_nodup⟩

theorem brokenLink_path : join linkRoot brokenLink.name ∉ linkPaths := by decide +kernel

theorem linkDirectories_short :
    ∀ entry ∈ linkDirectories,
      (⟨entry.name, join linkRoot entry.name⟩ : DirectoryEntry).bytes ≤ maxPageBytes := by
  decide +kernel

theorem linkDirectories_below :
    ∀ entry ∈ linkDirectories, below linkRoot linkRoot (join linkRoot entry.name) = true := by
  decide +kernel

theorem kind_of_mem_linkListing {entry : Dirent} (h : entry ∈ linkListing) :
    entry.kind ≠ .other := by
  obtain rfl | h := List.mem_cons.mp h
  · decide
  · obtain ⟨n, -, rfl⟩ := List.mem_map.mp h
    exact fun hkind => by cases hkind

/-- A root with directories, and a link that cannot be followed. -/
def linkSystem (broken : ErrorCode) : FileSystem where
  workingDirectory := linkRoot
  homedir := linkRoot
  realpath path :=
    if path = linkRoot ∨ path ∈ linkPaths then .ok path
    else .error (if path = join linkRoot brokenLink.name then broken else .ENOENT)
  isDirectory _ := .ok true
  readdir path := if path = linkRoot then .ok linkListing else .error .ENOENT
  names_nodup := by
    intro path entries h
    split at h
    · obtain rfl := Except.ok.inj h
      exact linkListing_nodup
    · nomatch h
  other_kind := by
    intro path directory entries entry canonical _ h hentry hkind
    split at h
    · obtain rfl := Except.ok.inj h
      exact absurd hkind (kind_of_mem_linkListing hentry)
    · nomatch h

def linkTimes : Times := ⟨1, fun _ => 0⟩

variable (broken : ErrorCode)

theorem linkSystem_roots :
    canonicalRoots (linkSystem broken) [linkRoot] = .ok [linkRoot] := rfl

theorem linkSystem_directory :
    allowedDirectory (linkSystem broken)
      (requestedPath (linkSystem broken) [linkRoot] (some linkRoot)) [linkRoot] = .ok linkRoot :=
  allowedDirectory_ok.mpr ⟨rfl, rfl, ⟨linkRoot, List.mem_singleton_self _, List.prefix_rfl⟩, rfl⟩

theorem linkSystem_broken :
    (linkSystem broken).realpath (join linkRoot brokenLink.name) = .error broken := by
  unfold linkSystem
  dsimp only
  rw [if_neg (not_or.mpr ⟨by decide, brokenLink_path⟩), if_pos rfl]

theorem linkSystem_visit :
    visit (linkSystem broken) [linkRoot] linkRoot brokenLink = .error broken := by
  unfold visit
  rw [linkSystem_broken]
  rfl

theorem linkSystem_directories {entry : Dirent} (h : entry ∈ linkDirectories) :
    (linkSystem broken).realpath (join linkRoot entry.name) = .ok (join linkRoot entry.name) :=
  if_pos (Or.inr (List.mem_map_of_mem h))

theorem two_le_length_of_complete {pages : List DirectoryOutcome}
    (h : Complete (linkSystem broken) [linkRoot] linkRoot linkListing pages) :
    2 ≤ pages.length := by
  have hnodup : (linkDirectories.map fun entry =>
      (⟨entry.name, join linkRoot entry.name⟩ : DirectoryEntry)).Nodup := by
    apply List.Nodup.of_map DirectoryEntry.name
    rw [List.map_map]
    exact linkDirectories_nodup
  have hentries : 201 ≤ (pages.flatMap DirectoryOutcome.entries).length := by
    refine (List.subperm_of_subset hnodup fun item hitem => ?_).length_le
    obtain ⟨entry, hentry, rfl⟩ := List.mem_map.mp hitem
    refine (h.listed _).mpr ⟨entry, List.mem_cons_of_mem _ hentry, rfl,
      linkSystem_directories broken hentry, any_contained.mp ?_, rfl⟩
    exact List.any_eq_true.mpr
      ⟨linkRoot, List.mem_singleton_self _, linkDirectories_below entry hentry⟩
  match pages, h.short with
  | [], _ => exact absurd hentries (by decide)
  | [page], hshort =>
    have hpage := hshort page (List.mem_singleton_self _)
    rw [List.flatMap_singleton] at hentries
    omega
  | _ :: _ :: rest, _ => exact Nat.le_add_left 2 rest.length

/-- A link to what is missing is left out, and the directories do not fit on one page. -/
theorem missing_link_left_out :
    ∃ pages, (Browses (linkSystem .ENOENT) [linkRoot] (some linkRoot) (fun _ => linkTimes) 0 none
        pages ∧
      Complete (linkSystem .ENOENT) [linkRoot] linkRoot linkListing pages) ∧ 2 ≤ pages.length := by
  have hboth : (∀ entry ∈ linkListing, entry.kind ≠ .other →
        Followed (linkSystem .ENOENT) [linkRoot] linkRoot entry) ∧
      ∀ item, Listed (linkSystem .ENOENT) [linkRoot] linkRoot linkListing item →
        item.bytes ≤ maxPageBytes := by
    constructor
    · intro entry hentry _ code hcode
      obtain rfl | hentry := List.mem_cons.mp hentry
      · rw [linkSystem_visit] at hcode
        obtain rfl := Except.error.inj hcode
        rfl
      · unfold visit at hcode
        rw [linkSystem_directories _ hentry] at hcode
        dsimp only [Except.bind] at hcode
        split at hcode <;> nomatch hcode
    · rintro ⟨name, path⟩ ⟨entry, hentry, hname, hpath, _⟩
      obtain rfl | hentry := List.mem_cons.mp hentry
      · rw [linkSystem_broken] at hpath
        nomatch hpath
      · rw [linkSystem_directories _ hentry] at hpath
        obtain rfl : entry.name = name := hname
        obtain rfl := Except.ok.inj hpath
        exact linkDirectories_short entry hentry
  have hsome : ∃ pages, Browses (linkSystem .ENOENT) [linkRoot] (some linkRoot) (fun _ => linkTimes)
        0 none pages ∧ Complete (linkSystem .ENOENT) [linkRoot] linkRoot linkListing pages :=
    (browsing_loses_nothing (linkSystem_roots .ENOENT) (linkSystem_directory .ENOENT) rfl
      fun _ _ => Int.zero_lt_one).mpr hboth
  obtain ⟨pages, hpages⟩ := hsome
  exact ⟨pages, hpages, two_le_length_of_complete _ hpages.2⟩

/-- A link whose path goes through a file fails every page. -/
theorem link_through_file_fails :
    ¬ ∃ pages, Browses (linkSystem (.other "ENOTDIR")) [linkRoot] (some linkRoot)
          (fun _ => linkTimes) 0 none pages ∧
        Complete (linkSystem (.other "ENOTDIR")) [linkRoot] linkRoot linkListing pages := by
  rintro ⟨pages, hbrowses, _⟩
  have hfollowed := (followed_of_browses (linkSystem_roots _) (linkSystem_directory _) rfl
    (fun _ _ => Int.zero_lt_one) hbrowses).1 _ (mem_candidates.mpr ⟨List.mem_cons_self, by decide⟩)
  exact absurd (hfollowed _ (linkSystem_visit _)) (by decide)

end HarnessControl.Workspaces
