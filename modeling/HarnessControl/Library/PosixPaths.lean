import Mathlib.Data.List.Basic

/-!
# Paths

Texts with slashes.  A path is resolved to the names on the way to it from the root of the file
system, and a path is below another one where the names of that one begin its own.
-/

namespace HarnessControl.Library.Posix

/-- A path as UTF-16 units. -/
abbrev Path := List UInt16

def slash : UInt16 := 47

def dot : UInt16 := 46

/-- The name of the directory above. -/
def above : Path := [dot, dot]

def isAbsolute (path : Path) : Bool := path.head? == some slash

/-- One name of `normalizeString`, on the names before it, the last one first. -/
def push (allowAboveRoot : Bool) (names : List Path) (name : Path) : List Path :=
  if name = [] ∨ name = [dot] then names
  else if name = above then
    match names with
    | [] => if allowAboveRoot then [above] else []
    | last :: rest =>
      if last = above then (if allowAboveRoot then above :: names else names) else rest
  else name :: names

/-- The names of `normalizeString(path, allowAboveRoot)`. -/
def normalizedNames (allowAboveRoot : Bool) (path : Path) : List Path :=
  ((path.splitOn slash).foldl (push allowAboveRoot) []).reverse

def joinNames (names : List Path) : Path := [slash].intercalate names

/-- `normalize(path)`. -/
def normalize (path : Path) : Path :=
  if path = [] then [dot]
  else
    let names := joinNames (normalizedNames (!isAbsolute path) path)
    let trailing := path.getLast? == some slash
    if names = [] then
      if isAbsolute path then [slash] else if trailing then [dot, slash] else [dot]
    else
      (if isAbsolute path then [slash] else []) ++ names ++ (if trailing then [slash] else [])

/-- `join(directory, name)` of two texts that are not empty. -/
def join (directory name : Path) : Path := normalize (directory ++ slash :: name)

/-- `dirname(path)`. -/
def dirname : Path → Path
  | [] => [dot]
  | first :: rest =>
    match (rest.reverse.dropWhile (· == slash)).dropWhile (· != slash) with
    | [] => if first = slash then [slash] else [dot]
    | _ :: directory =>
      if first = slash ∧ directory = [] then [slash, slash] else first :: directory.reverse

section

variable (workingDirectory : Path)

/-- The names of `resolve(path)`. -/
def resolvedNames (path : Path) : List Path :=
  normalizedNames false (if isAbsolute path then path else workingDirectory ++ slash :: path)

/-- The length of what two lists begin with in common. -/
def common : List Path → List Path → Nat
  | a :: first, b :: second => if a = b then common first second + 1 else 0
  | _, _ => 0

/-- `relative(from, to)`: up to the directory that both are in, and down from it. -/
def relative (source target : Path) : Path :=
  let up := resolvedNames workingDirectory source
  let down := resolvedNames workingDirectory target
  joinNames (List.replicate (up.length - common up down) above ++ down.drop (common up down))

end

/-! ## Names -/

theorem not_mem_splitOn (path : Path) : ∀ name ∈ path.splitOn slash, slash ∉ name := by
  induction path with
  | nil =>
    rw [List.splitOn_nil]
    simp
  | cons unit rest ih =>
    rw [List.splitOn_cons_eq_if_modifyHead]
    split
    · rw [List.forall_mem_cons]
      exact ⟨List.not_mem_nil, ih⟩
    · rename_i hunit
      rw [beq_iff_eq] at hunit
      obtain ⟨name, names, hsplit⟩ := List.exists_cons_of_ne_nil (List.splitOn_ne_nil slash rest)
      rw [hsplit, List.forall_mem_cons] at ih
      rw [hsplit, List.modifyHead_cons, List.forall_mem_cons]
      constructor
      · intro hin
        obtain heq | hin := List.mem_cons.mp hin
        · exact hunit heq.symm
        · exact ih.1 hin
      · exact ih.2

/-- A name of a directory entry: not empty, with no slash in it, and not the directory above. -/
def Plain (name : Path) : Prop := name ≠ [] ∧ slash ∉ name ∧ name ≠ above

theorem push_plain {names : List Path} {name : Path} (hname : slash ∉ name)
    (h : ∀ other ∈ names, Plain other) : ∀ other ∈ push false names name, Plain other := by
  unfold push
  split
  · exact h
  · rename_i hempty
    split
    · cases names with
      | nil => exact h
      | cons last rest =>
        rw [List.forall_mem_cons] at h
        dsimp only
        rw [if_neg h.1.2.2]
        exact h.2
    · rename_i habove
      rw [List.forall_mem_cons]
      exact ⟨⟨fun hnil => hempty (Or.inl hnil), hname, habove⟩, h⟩

theorem normalizedNames_plain (path : Path) : ∀ name ∈ normalizedNames false path, Plain name := by
  have hfold : ∀ (parts names : List Path), (∀ part ∈ parts, slash ∉ part) →
      (∀ name ∈ names, Plain name) → ∀ name ∈ parts.foldl (push false) names, Plain name := by
    intro parts
    induction parts with
    | nil => exact fun names _ h => h
    | cons part parts ih =>
      intro names hparts h
      rw [List.forall_mem_cons] at hparts
      exact ih _ hparts.2 (push_plain hparts.1 h)
  intro name hin
  unfold normalizedNames at hin
  rw [List.mem_reverse] at hin
  exact hfold _ [] (not_mem_splitOn path) (fun _ hnil => nomatch hnil) name hin

theorem resolvedNames_plain (workingDirectory path : Path) :
    ∀ name ∈ resolvedNames workingDirectory path, Plain name := normalizedNames_plain _

/-! ## Containment -/

theorem common_cons (a b : Path) (first second : List Path) :
    common (a :: first) (b :: second) = if a = b then common first second + 1 else 0 := rfl

theorem common_le (first second : List Path) : common first second ≤ first.length := by
  induction first generalizing second with
  | nil => exact Nat.le_of_eq (by unfold common; rfl)
  | cons a first ih =>
    cases second with
    | nil => exact Nat.zero_le _
    | cons b second =>
      rw [common_cons]
      split
      · have := ih second
        rw [List.length_cons]
        omega
      · exact Nat.zero_le _

theorem common_eq_length {first second : List Path} :
    common first second = first.length ↔ first <+: second := by
  induction first generalizing second with
  | nil => simp [common]
  | cons a first ih =>
    cases second with
    | nil => simp [common]
    | cons b second =>
      rw [List.cons_prefix_cons, ← ih, common_cons, List.length_cons]
      by_cases heq : a = b
      · rw [if_pos heq]
        constructor
        · exact fun h => ⟨heq, Nat.succ.inj h⟩
        · exact fun h => congrArg (· + 1) h.2
      · rw [if_neg heq]
        constructor
        · exact fun h => nomatch h
        · exact fun h => absurd h.1 heq

theorem joinNames_cons (name : Path) (names : List Path) :
    joinNames (name :: names) = name ∨
      ∃ rest, joinNames (name :: names) = name ++ slash :: rest := by
  cases names with
  | nil => exact Or.inl List.intercalate_singleton
  | cons next names =>
    right
    exact ⟨joinNames (next :: names), by
      unfold joinNames
      rw [List.intercalate_cons_cons, List.append_assoc]
      rfl⟩

/-- A text that is a name, or a name and more after a slash, leads up where the name does. -/
def leadsUp (path : Path) : Bool := path == above || (above ++ [slash]).isPrefixOf path

theorem leadsUp_joinNames {name : Path} (h : slash ∉ name) (names : List Path) :
    leadsUp (joinNames (name :: names)) = true ↔ name = above := by
  have hslash : slash ∉ above := by decide
  unfold leadsUp
  rw [Bool.or_eq_true, beq_iff_eq, List.isPrefixOf_iff_prefix]
  obtain heq | ⟨rest, heq⟩ := joinNames_cons name names
  · rw [heq]
    constructor
    · rintro (hup | ⟨tail, htail⟩)
      · exact hup
      · rw [← htail] at h
        exact absurd (by simp) h
    · exact Or.inl
  · rw [heq]
    constructor
    · rintro (hup | ⟨tail, htail⟩)
      · rw [← hup] at hslash
        exact absurd (by simp) hslash
      · -- both texts have their first slash at the same place
        have hsplit := congrArg (List.splitOn slash) htail
        rw [List.append_assoc, List.singleton_append,
          List.splitOn_append_cons_self_of_not_mem hslash,
          List.splitOn_append_cons_self_of_not_mem h] at hsplit
        exact (List.cons.inj hsplit).1.symm
    · rintro rfl
      right
      exact ⟨rest, by rw [List.append_assoc, List.singleton_append]⟩

theorem isAbsolute_joinNames {name : Path} (h : Plain name) (names : List Path) :
    isAbsolute (joinNames (name :: names)) = false := by
  obtain ⟨unit, rest, rfl⟩ := List.exists_cons_of_ne_nil h.1
  have hunit : unit ≠ slash := by
    rintro rfl
    exact h.2.1 List.mem_cons_self
  obtain heq | ⟨tail, heq⟩ := joinNames_cons (unit :: rest) names <;>
    · rw [heq]
      simpa [isAbsolute] using hunit

/-- A path is below another where the relative path between them does not lead up. -/
def below (workingDirectory root path : Path) : Bool :=
  let child := relative workingDirectory root path
  child == [] || (!isAbsolute child && child != above && !(above ++ [slash]).isPrefixOf child)

theorem below_iff {workingDirectory root path : Path} :
    below workingDirectory root path = true ↔
      resolvedNames workingDirectory root <+: resolvedNames workingDirectory path := by
  have hplain := resolvedNames_plain workingDirectory path
  have hcount := common_le (resolvedNames workingDirectory root)
    (resolvedNames workingDirectory path)
  rw [← common_eq_length]
  have hup : below workingDirectory root path =
      (relative workingDirectory root path == [] ||
        (!isAbsolute (relative workingDirectory root path) &&
          !leadsUp (relative workingDirectory root path))) := by
    unfold below leadsUp
    simp [Bool.not_or, Bool.and_assoc, bne]
  rw [hup]
  unfold relative
  dsimp only
  generalize resolvedNames workingDirectory root = up at *
  generalize resolvedNames workingDirectory path = down at *
  constructor
  · intro h
    by_contra hne
    obtain ⟨steps, hsteps⟩ : ∃ steps, up.length - common up down = steps + 1 :=
      ⟨up.length - common up down - 1, by omega⟩
    rw [hsteps, List.replicate_succ, List.cons_append] at h
    have hleads := (leadsUp_joinNames (by decide : slash ∉ above)
      (List.replicate steps above ++ down.drop (common up down))).mpr rfl
    rw [hleads, Bool.not_true, Bool.and_false, Bool.or_false, beq_iff_eq] at h
    rw [h] at hleads
    exact absurd hleads (by decide)
  · intro h
    rw [h, Nat.sub_self, List.replicate_zero, List.nil_append]
    cases hdrop : down.drop up.length with
    | nil => rfl
    | cons name names =>
      have hname : Plain name := by
        apply hplain
        apply List.mem_of_mem_drop (i := up.length)
        rw [hdrop]
        exact List.mem_cons_self
      rw [isAbsolute_joinNames hname, Bool.or_eq_true, Bool.not_false, Bool.true_and,
        Bool.not_eq_true']
      right
      rw [← Bool.not_eq_true, leadsUp_joinNames hname.2.1]
      exact hname.2.2

end HarnessControl.Library.Posix
