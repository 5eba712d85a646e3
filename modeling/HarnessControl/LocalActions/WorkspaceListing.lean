import HarnessControl.Library.BoundedCollection
import Mathlib.Data.PNat.Notation

/-!
# Listing a workspace

A recursion over directories shares one list and one flag.  Where the list is full, the flag stops
every level of it.
-/

namespace HarnessControl.LocalActions

open HarnessControl.Library

/-! ## Directories -/

abbrev FileName := {name : String // name ≠ ""}

inductive Dirent where
  | file (name : FileName)
  | directory (name : FileName) (entries : List Dirent)
  | other (name : FileName)

inductive EntryType where
  | file
  | directory
  | other

namespace Dirent

def name : Dirent → FileName
  | file name | directory name _ | other name => name

def type : Dirent → EntryType
  | file _ => .file
  | directory _ _ => .directory
  | other _ => .other

/-- `entry.name.startsWith(".")`. -/
def hidden (name : FileName) : Bool := name.val.toList.head? == some '.'

end Dirent

structure FilesystemListOptions where
  recursive : Option Bool
  includeHidden : Option Bool
  maxDepth : Option ℕ+
  entryLimit : Option Nat

structure ListedEntry where
  name : String
  type : EntryType

section

variable (localeCompare : String → String → Int)

/-- `entries.sort((left, right) => left.name.localeCompare(right.name))`. -/
def sortByName (entries : List Dirent) : List Dirent :=
  entries.mergeSort fun left right => decide (localeCompare left.name right.name ≤ 0)

theorem sortByName_perm (entries : List Dirent) :
    (sortByName localeCompare entries).Perm entries := List.mergeSort_perm _ _

theorem sizeOf_perm {first second : List Dirent} (h : first.Perm second) :
    sizeOf first = sizeOf second := by
  induction h with
  | nil => rfl
  | cons entry _ ih => simp [ih]
  | swap entry other rest =>
    simp
    omega
  | trans _ _ ih ih' => exact ih.trans ih'

theorem sizeOf_sortByName (entries : List Dirent) :
    sizeOf (sortByName localeCompare entries) = sizeOf entries :=
  sizeOf_perm (sortByName_perm localeCompare entries)

/-! ## The listing -/

/-- Directories are entered at depths below the bound. -/
def maxDepth (options : FilesystemListOptions) : Option Nat :=
  if options.recursive.getD false then options.maxDepth.map PNat.val else some 1

def enters (options : FilesystemListOptions) (depth : Nat) : Bool :=
  options.recursive.getD false && (maxDepth options).all fun bound => decide (depth < bound)

def relativeName (relativeDirectory : String) (name : FileName) : String :=
  if relativeDirectory ≠ "" then relativeDirectory ++ "/" ++ name else name

mutual

def collect (options : FilesystemListOptions) (directory : List Dirent)
    (relativeDirectory : String) (depth : Nat) (found : Collection ListedEntry) :
    Collection ListedEntry :=
  if found.truncated then found
  else collectEach options (sortByName localeCompare directory) relativeDirectory depth found
termination_by (sizeOf directory, 1)
decreasing_by
  rw [sizeOf_sortByName]
  exact Prod.Lex.right _ (by decide)

/-- The loop of `collect`. -/
def collectEach (options : FilesystemListOptions) (entries : List Dirent)
    (relativeDirectory : String) (depth : Nat) (found : Collection ListedEntry) :
    Collection ListedEntry :=
  match entries with
  | [] => found
  | entry :: rest =>
    if !options.includeHidden.getD false && Dirent.hidden entry.name then
      collectEach options rest relativeDirectory depth found
    else if found.full options.entryLimit then { found with truncated := true }
    else
      let name := relativeName relativeDirectory entry.name
      let found := { found with elements := found.elements ++ [⟨name, entry.type⟩] }
      match entry with
      | .directory _ entries =>
        if enters options depth then
          collectEach options rest relativeDirectory depth
            (collect options entries name (depth + 1) found)
        else collectEach options rest relativeDirectory depth found
      | _ => collectEach options rest relativeDirectory depth found
termination_by (sizeOf entries, 0)

end

def listWorkspaceEntries (root : List Dirent) (options : FilesystemListOptions) :
    Collection ListedEntry :=
  collect localeCompare options root "" 1 .empty

/-! ## The traversal -/

abbrev TreeEntry := List FileName × EntryType

def TreeEntry.below (name : FileName) (entry : TreeEntry) : TreeEntry := (name :: entry.1, entry.2)

/-- `localeCompare` is a total preorder. -/
structure LocaleOrder : Prop where
  total : ∀ first second, localeCompare first second ≤ 0 ∨ localeCompare second first ≤ 0
  trans : ∀ first second third, localeCompare first second ≤ 0 → localeCompare second third ≤ 0 →
    localeCompare first third ≤ 0

/-- The entries of a directory in the order of their names.  Where names compare equal, the order of
the directory stays. -/
structure ByName (directory sorted : List Dirent) : Prop where
  perm : sorted.Perm directory
  ordered : sorted.Pairwise fun left right => localeCompare left.name right.name ≤ 0
  stable : ∀ left right, localeCompare left.name right.name ≤ 0 →
    [left, right].Sublist directory → [left, right].Sublist sorted

mutual

/-- The entries below a directory, each before what stands below it, with their paths. -/
inductive Traverses : List Dirent → List TreeEntry → Prop where
  | byName {directory sorted : List Dirent} {entries : List TreeEntry} :
    ByName localeCompare directory sorted → TraversesEach sorted entries →
    Traverses directory entries

inductive TraversesEach : List Dirent → List TreeEntry → Prop where
  | nil : TraversesEach [] []
  | directory {name : FileName} {children rest : List Dirent} {below after : List TreeEntry} :
    Traverses children below → TraversesEach rest after →
    TraversesEach (.directory name children :: rest)
      (([name], .directory) :: below.map (TreeEntry.below name) ++ after)
  | file {name : FileName} {rest : List Dirent} {after : List TreeEntry} :
    TraversesEach rest after → TraversesEach (.file name :: rest) (([name], .file) :: after)
  | other {name : FileName} {rest : List Dirent} {after : List TreeEntry} :
    TraversesEach rest after → TraversesEach (.other name :: rest) (([name], .other) :: after)

end

mutual

/-- The traversal by the sort of the code. -/
def preorder (directory : List Dirent) : List TreeEntry :=
  preorderEach (sortByName localeCompare directory)
termination_by (sizeOf directory, 1)
decreasing_by
  rw [sizeOf_sortByName]
  exact Prod.Lex.right _ (by decide)

def preorderEach : List Dirent → List TreeEntry
  | [] => []
  | .directory name entries :: rest =>
    ([name], .directory) :: (preorder entries).map (TreeEntry.below name) ++ preorderEach rest
  | .file name :: rest => ([name], .file) :: preorderEach rest
  | .other name :: rest => ([name], .other) :: preorderEach rest
termination_by entries => (sizeOf entries, 0)

end

section

variable {localeCompare : String → String → Int}

theorem LocaleOrder.sorts (horder : LocaleOrder localeCompare) (directory : List Dirent) :
    ByName localeCompare directory (sortByName localeCompare directory) := by
  have htrans : ∀ first second third : Dirent,
      decide (localeCompare first.name second.name ≤ 0) = true →
      decide (localeCompare second.name third.name ≤ 0) = true →
      decide (localeCompare first.name third.name ≤ 0) = true := by
    intro first second third hfirst hsecond
    rw [decide_eq_true_iff] at hfirst hsecond ⊢
    exact horder.trans _ _ _ hfirst hsecond
  have htotal : ∀ first second : Dirent, (decide (localeCompare first.name second.name ≤ 0) ||
      decide (localeCompare second.name first.name ≤ 0)) = true := by
    intro first second
    rw [Bool.or_eq_true, decide_eq_true_iff, decide_eq_true_iff]
    exact horder.total _ _
  refine ⟨sortByName_perm localeCompare directory, ?_, ?_⟩
  · apply (List.pairwise_mergeSort htrans htotal directory).imp
    intro first second hle
    exact of_decide_eq_true hle
  · intro first second hle hsublist
    exact List.pair_sublist_mergeSort htrans htotal (decide_eq_true hle) hsublist

mutual

theorem LocaleOrder.traverses (horder : LocaleOrder localeCompare) (directory : List Dirent) :
    Traverses localeCompare directory (preorder localeCompare directory) := by
  rw [preorder]
  exact .byName (horder.sorts directory) (horder.traversesEach _)
termination_by (sizeOf directory, 1)
decreasing_by
  rw [sizeOf_sortByName]
  exact Prod.Lex.right _ (by decide)

theorem LocaleOrder.traversesEach (horder : LocaleOrder localeCompare) (entries : List Dirent) :
    TraversesEach localeCompare entries (preorderEach localeCompare entries) := by
  match entries with
  | [] =>
    rw [preorderEach]
    exact .nil
  | .directory name children :: rest =>
    rw [preorderEach]
    exact .directory (horder.traverses children) (horder.traversesEach rest)
  | .file name :: rest =>
    rw [preorderEach]
    exact .file (horder.traversesEach rest)
  | .other name :: rest =>
    rw [preorderEach]
    exact .other (horder.traversesEach rest)
termination_by (sizeOf entries, 0)

end

end

def belowEntry : Dirent → List TreeEntry
  | .directory name entries => (preorder localeCompare entries).map (TreeEntry.below name)
  | _ => []

theorem preorderEach_cons (entry : Dirent) (rest : List Dirent) :
    preorderEach localeCompare (entry :: rest) =
      (([entry.name], entry.type) :: belowEntry localeCompare entry) ++
        preorderEach localeCompare rest := by
  cases entry <;> rw [preorderEach] <;> rfl

/-- Nothing on the path is hidden, and the path is not too long. -/
def admitted (options : FilesystemListOptions) (above : List FileName) (entry : TreeEntry) : Bool :=
  (options.includeHidden.getD false || entry.1.all fun name => !Dirent.hidden name) &&
    (maxDepth options).all fun bound => decide (above.length + entry.1.length ≤ bound)

def pathText : List FileName → String
  | [] => ""
  | [name] => name
  | name :: rest => name ++ "/" ++ pathText rest

def listed (above : List FileName) (entry : TreeEntry) : ListedEntry :=
  ⟨pathText (above ++ entry.1), entry.2⟩

/-- What a listing without a limit shows of a traversal. -/
def listing (options : FilesystemListOptions) (above : List FileName) (entries : List TreeEntry) :
    List ListedEntry :=
  (entries.filter (admitted options above)).map (listed above)

theorem pathText_ne_empty (name : FileName) (rest : List FileName) :
    pathText (name :: rest) ≠ "" := by
  cases rest with
  | nil => exact name.property
  | cons next rest =>
    show name.val ++ "/" ++ pathText (next :: rest) ≠ ""
    intro h
    have hname := (String.append_eq_empty_iff.mp h).1
    exact name.property (String.append_eq_empty_iff.mp hname).1

theorem pathText_concat (above : List FileName) (name : FileName) :
    pathText (above ++ [name]) = relativeName (pathText above) name := by
  induction above with
  | nil => rfl
  | cons first rest ih =>
    unfold relativeName
    rw [if_pos (pathText_ne_empty first rest)]
    cases rest with
    | nil => rfl
    | cons next rest =>
      unfold relativeName at ih
      rw [if_pos (pathText_ne_empty next rest)] at ih
      show first.val ++ "/" ++ pathText (next :: rest ++ [name]) =
        first.val ++ "/" ++ pathText (next :: rest) ++ "/" ++ name.val
      rw [ih]
      simp only [String.append_assoc]

theorem listing_append (options : FilesystemListOptions) (above : List FileName)
    (first second : List TreeEntry) :
    listing options above (first ++ second) =
      listing options above first ++ listing options above second := by
  unfold listing
  rw [List.filter_append, List.map_append]

theorem listing_cons (options : FilesystemListOptions) (above : List FileName) (entry : TreeEntry)
    (rest : List TreeEntry) :
    listing options above (entry :: rest) =
      (if admitted options above entry then [listed above entry] else []) ++
        listing options above rest := by
  unfold listing
  rw [List.filter_cons]
  split <;> rfl

theorem listing_below (options : FilesystemListOptions) (above : List FileName) {name : FileName}
    (hshown : (!options.includeHidden.getD false && Dirent.hidden name) = false)
    (entries : List TreeEntry) :
    listing options above (entries.map (TreeEntry.below name)) =
      listing options (above ++ [name]) entries := by
  induction entries with
  | nil => rfl
  | cons entry rest ih =>
    have hadmitted : admitted options above (entry.below name) =
        admitted options (above ++ [name]) entry := by
      unfold admitted TreeEntry.below
      rw [List.length_append, List.length_singleton, List.length_cons, List.all_cons]
      have hlength : above.length + (entry.1.length + 1) =
          above.length + 1 + entry.1.length := by omega
      rw [hlength]
      revert hshown
      cases options.includeHidden.getD false <;> cases Dirent.hidden name <;> simp
    have hlisted : listed above (entry.below name) = listed (above ++ [name]) entry := by
      unfold listed TreeEntry.below
      rw [List.append_assoc, List.singleton_append]
    rw [List.map_cons, listing_cons, listing_cons, ih, hadmitted, hlisted]

variable {options : FilesystemListOptions} {above : List FileName}

theorem listing_eq_nil
    {entries : List TreeEntry} (h : ∀ entry ∈ entries, admitted options above entry = false) :
    listing options above entries = [] := by
  unfold listing
  rw [List.filter_eq_nil_iff.mpr fun entry hin => by rw [h entry hin]; decide]
  rfl

theorem listing_hidden (above : List FileName) {name : FileName}
    (hhidden : (!options.includeHidden.getD false && Dirent.hidden name) = true)
    (entries : List TreeEntry) (h : ∀ entry ∈ entries, name ∈ entry.1) :
    listing options above entries = [] := by
  apply listing_eq_nil
  intro entry hin
  rw [Bool.and_eq_true, Bool.not_eq_true'] at hhidden
  unfold admitted
  rw [hhidden.1, Bool.false_or, Bool.and_eq_false_iff]
  left
  rw [List.all_eq_false]
  refine ⟨name, h entry hin, ?_⟩
  rw [hhidden.2]
  decide

theorem preorderEach_path_ne_nil (entries : List Dirent) :
    ∀ entry ∈ preorderEach localeCompare entries, entry.1 ≠ [] := by
  induction entries with
  | nil =>
    rw [preorderEach]
    exact fun _ hin => absurd hin List.not_mem_nil
  | cons first rest ih =>
    intro entry hin
    cases first with
    | directory name children =>
      rw [preorderEach, List.cons_append, List.mem_cons, List.mem_append, List.mem_map] at hin
      obtain rfl | ⟨below, -, rfl⟩ | hin := hin
      · exact List.cons_ne_nil _ _
      · exact List.cons_ne_nil _ _
      · exact ih entry hin
    | file name | other name =>
      rw [preorderEach, List.mem_cons] at hin
      obtain rfl | hin := hin
      · exact List.cons_ne_nil _ _
      · exact ih entry hin

theorem listing_not_entered (henters : enters options (above.length + 1) = false) {name : FileName}
    {entries : List TreeEntry} (h : ∀ entry ∈ entries, entry.1 ≠ []) :
    listing options above (entries.map (TreeEntry.below name)) = [] := by
  apply listing_eq_nil
  intro entry hin
  obtain ⟨below, hbelow, rfl⟩ := List.mem_map.mp hin
  have hlength := List.length_pos_iff.mpr (h below hbelow)
  unfold admitted TreeEntry.below
  rw [Bool.and_eq_false_iff, List.length_cons]
  right
  -- the bound is reached, or it is the bound of a listing that does not recurse
  unfold enters at henters
  unfold maxDepth at henters ⊢
  cases hrecursive : options.recursive.getD false with
  | false =>
    rw [if_neg (by decide), Option.all_some, decide_eq_false]
    omega
  | true =>
    rw [hrecursive, if_pos rfl, Bool.true_and] at henters
    rw [if_pos rfl]
    cases hdepth : options.maxDepth.map PNat.val with
    | none =>
      rw [hdepth] at henters
      cases henters
    | some bound =>
      rw [hdepth, Option.all_some] at henters
      have hbound := of_decide_eq_false henters
      rw [Option.all_some, decide_eq_false]
      omega

/-- The entries of a directory that was entered are not too deep. -/
def Entered (options : FilesystemListOptions) (above : List FileName) : Prop :=
  ∀ bound, maxDepth options = some bound → above.length + 1 ≤ bound

theorem Entered.root (options : FilesystemListOptions) : Entered options [] := by
  intro bound hbound
  unfold maxDepth at hbound
  split at hbound
  · obtain ⟨depth, -, rfl⟩ := Option.map_eq_some_iff.mp hbound
    exact depth.property
  · obtain rfl := Option.some.inj hbound
    exact Nat.le_refl _

theorem Entered.concat (henters : enters options (above.length + 1) = true) (name : FileName) :
    Entered options (above ++ [name]) := by
  intro bound hbound
  unfold enters at henters
  rw [Bool.and_eq_true, hbound, Option.all_some] at henters
  have hdepth := of_decide_eq_true henters.2
  rw [List.length_append, List.length_singleton]
  omega

theorem Entered.admitted (h : Entered options above) {name : FileName}
    (hshown : (!options.includeHidden.getD false && Dirent.hidden name) = false)
    (type : EntryType) : admitted options above ([name], type) = true := by
  unfold LocalActions.admitted
  rw [Bool.and_eq_true]
  constructor
  · rw [List.all_cons, List.all_nil, Bool.and_true]
    revert hshown
    cases options.includeHidden.getD false <;> cases Dirent.hidden name <;> simp
  · rw [Option.all_eq_true]
    intro bound hbound
    exact decide_eq_true (h bound hbound)

theorem listed_concat (above : List FileName) (name : FileName) (type : EntryType) :
    listed above ([name], type) = ⟨relativeName (pathText above) name, type⟩ := by
  unfold listed
  rw [pathText_concat]

theorem name_mem_belowEntry (entry : Dirent) :
    ∀ below ∈ ([entry.name], entry.type) :: belowEntry localeCompare entry,
      entry.name ∈ below.1 := by
  intro below hin
  obtain rfl | hin := List.mem_cons.mp hin
  · exact List.mem_singleton_self _
  · cases entry with
    | directory name children =>
      obtain ⟨inner, -, rfl⟩ := List.mem_map.mp hin
      exact List.mem_cons_self
    | file name | other name => cases hin

mutual

theorem collect_eq (options : FilesystemListOptions) (directory : List Dirent)
    (above : List FileName) (hentered : Entered options above)
    (found : Collection ListedEntry) (hsound : found.Sound options.entryLimit) :
    collect localeCompare options directory (pathText above) (above.length + 1) found =
      found.extend options.entryLimit
        (listing options above (preorder localeCompare directory)) := by
  rw [collect, preorder]
  by_cases htruncated : found.truncated = true
  · rw [if_pos htruncated, Collection.extend_truncated hsound htruncated]
  · rw [if_neg htruncated]
    exact collectEach_eq options (sortByName localeCompare directory) above hentered found hsound
termination_by (sizeOf directory, 1)
decreasing_by
  rw [sizeOf_sortByName]
  exact Prod.Lex.right _ (by decide)

theorem collectEach_eq (options : FilesystemListOptions) (entries : List Dirent)
    (above : List FileName) (hentered : Entered options above)
    (found : Collection ListedEntry) (hsound : found.Sound options.entryLimit) :
    collectEach localeCompare options entries (pathText above) (above.length + 1) found =
      found.extend options.entryLimit
        (listing options above (preorderEach localeCompare entries)) := by
  match entries with
  | [] =>
    rw [collectEach, preorderEach]
    rfl
  | entry :: rest =>
    have hrest := fun found hsound => collectEach_eq options rest above hentered found hsound
    rw [collectEach, preorderEach_cons, listing_append]
    by_cases hhidden : (!options.includeHidden.getD false && Dirent.hidden entry.name) = true
    · have hnone := listing_hidden above hhidden
        (([entry.name], entry.type) :: belowEntry localeCompare entry)
        (name_mem_belowEntry localeCompare entry)
      rw [if_pos hhidden, hrest found hsound, hnone, List.nil_append]
    · rw [if_neg hhidden]
      rw [Bool.not_eq_true] at hhidden
      have hown : listing options above
          (([entry.name], entry.type) :: belowEntry localeCompare entry) =
            ⟨relativeName (pathText above) entry.name, entry.type⟩ ::
              listing options above (belowEntry localeCompare entry) := by
        rw [listing_cons, if_pos (hentered.admitted hhidden entry.type), listed_concat]
        rfl
      rw [hown, List.cons_append]
      by_cases hfull : found.full options.entryLimit = true
      · rw [if_pos hfull, Collection.extend_full hfull]
      · rw [if_neg hfull]
        rw [Bool.not_eq_true] at hfull
        rw [Collection.extend_cons, Collection.push_room hfull, Collection.extend_append]
        have hpushed := hsound.push ⟨relativeName (pathText above) entry.name, entry.type⟩
        rw [Collection.push_room hfull] at hpushed
        dsimp only
        cases entry with
        | directory name children =>
          dsimp only
          by_cases henters : enters options (above.length + 1) = true
          · have hcollect := collect_eq options children (above ++ [name])
              (Entered.concat henters name) _ hpushed
            rw [pathText_concat, List.length_append, List.length_singleton] at hcollect
            have hbelow : listing options above
                (belowEntry localeCompare (.directory name children)) =
                  listing options (above ++ [name]) (preorder localeCompare children) :=
              listing_below options above hhidden _
            rw [if_pos henters, hbelow, ← hcollect]
            have hextended := hpushed.extend
              (listing options (above ++ [name]) (preorder localeCompare children))
            rw [← hcollect] at hextended
            exact hrest _ hextended
          · have hbelow : listing options above
                (belowEntry localeCompare (.directory name children)) = [] := by
              apply listing_not_entered (Bool.not_eq_true _ ▸ henters)
              unfold preorder
              exact preorderEach_path_ne_nil localeCompare _
            rw [if_neg henters, hbelow]
            exact hrest _ hpushed
        | file name | other name => exact hrest _ hpushed
termination_by (sizeOf entries, 0)

end

/-- A listing shows the first entries of the traversal, as many as the limit admits, and it is truncated
where the traversal has more. -/
theorem workspace_listing (horder : LocaleOrder localeCompare) (options : FilesystemListOptions)
    (root : List Dirent) :
    let listed := listWorkspaceEntries localeCompare root options
    ∃ entries, Traverses localeCompare root entries ∧
      (listed.elements =
          match options.entryLimit with
          | some limit => (listing options [] entries).take limit
          | none => listing options [] entries) ∧
      (listed.truncated = true ↔
        ∃ limit, options.entryLimit = some limit ∧ limit < (listing options [] entries).length) := by
  intro listed
  refine ⟨preorder localeCompare root, horder.traverses root, ?_⟩
  generalize hentries : listing options [] (preorder localeCompare root) = entries
  have hlisting : listed = Collection.empty.extend options.entryLimit entries := by
    rw [← hentries]
    exact collect_eq localeCompare options root [] (Entered.root options) .empty
      Collection.Sound.empty
  rw [hlisting]
  cases hlimit : options.entryLimit with
  | none =>
    rw [Collection.extend_none]
    refine ⟨rfl, ?_⟩
    constructor
    · exact nofun
    · rintro ⟨limit, hlimit, -⟩
      cases hlimit
  | some limit =>
    have hnone : ([] : List ListedEntry).length ≤ limit := Nat.zero_le limit
    have htaken := Collection.extend_some hnone entries
    rw [List.nil_append] at htaken
    unfold Collection.empty
    rw [htaken]
    refine ⟨rfl, ?_⟩
    constructor
    · intro htruncated
      exact ⟨limit, rfl, of_decide_eq_true htruncated⟩
    · rintro ⟨other, hother, hlength⟩
      obtain rfl := Option.some.inj hother
      exact decide_eq_true hlength

end

def byCharacters (first second : String) : Int :=
  if first < second then -1 else if second < first then 1 else 0

theorem byCharacters_le {first second : String} :
    byCharacters first second ≤ 0 ↔ first ≤ second := by
  unfold byCharacters
  rw [← String.not_lt]
  by_cases hless : first < second
  · have hgreater := String.lt_asymm hless
    simp [hless, hgreater]
  · by_cases hgreater : second < first <;> simp [hless, hgreater]

theorem byCharacters_order : LocaleOrder byCharacters where
  total first second := by
    rw [byCharacters_le, byCharacters_le]
    exact String.le_total first second
  trans first second third hfirst hsecond := by
    rw [byCharacters_le] at hfirst hsecond ⊢
    exact String.le_trans hfirst hsecond

/-- A file `b`, and before it by its name a directory with a file. -/
def twoLevels : List Dirent :=
  [.file ⟨"b", by decide⟩, .directory ⟨"a", by decide⟩ [.file ⟨"c", by decide⟩]]

theorem workspace_listing_two : ∃ entries, Traverses byCharacters twoLevels entries ∧
    (listWorkspaceEntries byCharacters twoLevels ⟨some true, none, none, some 2⟩).elements =
      (listing ⟨some true, none, none, some 2⟩ [] entries).take 2 := by
  obtain ⟨entries, htraverses, helements, -⟩ :=
    workspace_listing byCharacters byCharacters_order ⟨some true, none, none, some 2⟩ twoLevels
  exact ⟨entries, htraverses, helements⟩

end HarnessControl.LocalActions
