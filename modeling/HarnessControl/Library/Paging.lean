import Mathlib.Data.List.Basic

/-!
# Paging

A list is handed out in pages: the next values up to a number of them, cut short where their sizes
exceed a budget.  As long as no single value exceeds the budget, every page advances, and the pages
put together are the list.
-/

namespace HarnessControl.Library

variable {α : Type*}

/-- The first values that fit into what is left of the budget. -/
def fill (size : α → Nat) (budget : Nat) : Nat → List α → List α
  | _, [] => []
  | used, a :: rest =>
    if budget < used + size a then [] else a :: fill size budget (used + size a) rest

def page (size : α → Nat) (budget limit : Nat) (list : List α) : List α :=
  fill size budget 0 (list.take limit)

/-- The pages of a list; the empty list has one, which is empty. -/
def pagesFrom (size : α → Nat) (budget limit : Nat) : Nat → List α → List (List α)
  | 0, _ => []
  | fuel + 1, list =>
    let first := page size budget limit list
    first :: if first.length < list.length then
        pagesFrom size budget limit fuel (list.drop first.length)
      else []

def pages (size : α → Nat) (budget limit : Nat) (list : List α) : List (List α) :=
  pagesFrom size budget limit (list.length + 1) list

variable {size : α → Nat} {budget limit : Nat}

theorem fill_isPrefix (used : Nat) (list : List α) : fill size budget used list <+: list := by
  induction list generalizing used with
  | nil => exact List.prefix_rfl
  | cons a rest ih =>
    unfold fill
    split
    · exact List.nil_prefix
    · exact List.cons_prefix_cons.mpr ⟨rfl, ih _⟩

theorem page_isPrefix (list : List α) : page size budget limit list <+: list :=
  (fill_isPrefix 0 _).trans (List.take_prefix limit list)

theorem page_eq_take (list : List α) :
    page size budget limit list = list.take (page size budget limit list).length :=
  List.prefix_iff_eq_take.mp (page_isPrefix list)

theorem page_append_drop (list : List α) :
    page size budget limit list ++ list.drop (page size budget limit list).length = list := by
  have htake := List.take_append_drop (page size budget limit list).length list
  rw [← page_eq_take list] at htake
  exact htake

theorem page_length_le (list : List α) :
    (page size budget limit list).length ≤ list.length := (page_isPrefix list).length_le

theorem page_pos (hlimit : 0 < limit) {list : List α} (hfits : ∀ a ∈ list, size a ≤ budget)
    (hlist : list ≠ []) : 0 < (page size budget limit list).length := by
  rcases List.exists_cons_of_ne_nil hlist with ⟨a, rest, rfl⟩
  rcases Nat.exists_eq_add_of_lt hlimit with ⟨k, hk⟩
  have hsize := hfits a List.mem_cons_self
  unfold page
  rw [hk, Nat.zero_add, List.take_succ_cons]
  unfold fill
  rw [if_neg (by omega)]
  exact Nat.succ_pos _

theorem page_length_limit (list : List α) : (page size budget limit list).length ≤ limit := by
  unfold page
  exact Nat.le_trans (fill_isPrefix 0 _).length_le (List.length_take_le limit list)

theorem page_advances (hlimit : 0 < limit) {list : List α} (hfits : ∀ a ∈ list, size a ≤ budget)
    (hmore : (page size budget limit list).length < list.length) :
    0 < (page size budget limit list).length := by
  apply page_pos hlimit hfits
  rintro rfl
  exact absurd hmore (Nat.not_lt_zero _)

theorem flatten_pagesFrom (hlimit : 0 < limit) (fuel : Nat) {list : List α}
    (hfits : ∀ a ∈ list, size a ≤ budget) (hfuel : list.length < fuel) :
    (pagesFrom size budget limit fuel list).flatten = list := by
  induction fuel generalizing list with
  | zero => exact absurd hfuel (Nat.not_lt_zero _)
  | succ fuel ih =>
    unfold pagesFrom
    dsimp only
    rw [List.flatten_cons]
    split
    · rename_i hmore
      have hadvance := page_advances hlimit hfits hmore
      rw [ih (fun a ha => hfits a (List.mem_of_mem_drop ha)) (by rw [List.length_drop]; omega)]
      exact page_append_drop list
    · rename_i hlast
      rw [List.flatten_nil, List.append_nil]
      exact (page_isPrefix list).eq_of_length_le (Nat.not_lt.mp hlast)

theorem flatten_pages (hlimit : 0 < limit) {list : List α} (hfits : ∀ a ∈ list, size a ≤ budget) :
    (pages size budget limit list).flatten = list :=
  flatten_pagesFrom hlimit _ hfits (Nat.lt_succ_self _)

theorem pagesFrom_fuel (hlimit : 0 < limit) (fuel more : Nat) {list : List α}
    (hfits : ∀ a ∈ list, size a ≤ budget) (hfuel : list.length < fuel)
    (hmore : list.length < more) :
    pagesFrom size budget limit fuel list = pagesFrom size budget limit more list := by
  induction fuel generalizing list more with
  | zero => exact absurd hfuel (Nat.not_lt_zero _)
  | succ fuel ih =>
    obtain ⟨more, rfl⟩ : ∃ other, more = other + 1 := ⟨more - 1, by omega⟩
    unfold pagesFrom
    dsimp only
    congr 1
    split
    · rename_i hnext
      have hadvance := page_advances hlimit hfits hnext
      apply ih
      · exact fun a ha => hfits a (List.mem_of_mem_drop ha)
      · rw [List.length_drop]
        omega
      · rw [List.length_drop]
        omega
    · rfl

theorem pages_eq (hlimit : 0 < limit) {list : List α} (hfits : ∀ a ∈ list, size a ≤ budget) :
    pages size budget limit list =
      page size budget limit list ::
        if (page size budget limit list).length < list.length then
          pages size budget limit (list.drop (page size budget limit list).length)
        else [] := by
  unfold pages
  rw [pagesFrom]
  congr 1
  split
  · rename_i hnext
    have hadvance := page_advances hlimit hfits hnext
    apply pagesFrom_fuel hlimit _ _ (fun a ha => hfits a (List.mem_of_mem_drop ha))
    · rw [List.length_drop]
      omega
    · exact Nat.lt_succ_self _
  · rfl

theorem length_pages_one {list : List α} (hfits : ∀ a ∈ list, size a ≤ budget)
    (hlist : list ≠ []) : (pages size budget 1 list).length = list.length := by
  generalize hlength : list.length = n
  induction n generalizing list with
  | zero => exact absurd (List.eq_nil_of_length_eq_zero hlength) hlist
  | succ n ih =>
    have hpositive := page_pos Nat.one_pos hfits hlist
    have hone : (page size budget 1 list).length = 1 :=
      Nat.le_antisymm (page_length_limit list) hpositive
    rw [pages_eq Nat.one_pos hfits, hone, List.length_cons]
    split
    · rename_i hmore
      have hrest : (list.drop 1).length = n := by rw [List.length_drop]; omega
      rw [ih (fun a ha => hfits a (List.mem_of_mem_drop ha)) (by
        rw [← List.length_pos_iff, hrest]; omega) hrest]
    · rename_i hlast
      rw [List.length_nil]
      omega

theorem length_pages_le (hlimit : 0 < limit) {list : List α} (hfits : ∀ a ∈ list, size a ≤ budget) :
    (pages size budget limit list).length ≤ max 1 list.length := by
  generalize hlength : list.length = n
  induction n using Nat.strongRecOn generalizing list with
  | ind n ih =>
    rw [pages_eq hlimit hfits, List.length_cons]
    split
    · rename_i hnext
      have hadvance := page_advances hlimit hfits hnext
      have hrest := ih (list.length - (page size budget limit list).length) (by omega)
        (fun a ha => hfits a (List.mem_of_mem_drop ha)) List.length_drop
      omega
    · exact Nat.le_max_left _ _

/-! ## Cursors -/

/-- Texts for cursors, from which they are read back. -/
structure CursorCodec (γ : Type*) where
  encode : γ → String
  decode : String → Option γ
  decode_encode : ∀ cursor, decode (encode cursor) = some cursor
  encode_ne : ∀ cursor, encode cursor ≠ ""

theorem CursorCodec.encode_injective {γ : Type*} (codec : CursorCodec γ) :
    Function.Injective codec.encode := by
  intro a b hsame
  have hdecode := codec.decode_encode a
  rw [hsame, codec.decode_encode b] at hdecode
  exact (Option.some.inj hdecode).symm

/-- Cursors that are read from and back to others. -/
def CursorCodec.map {γ δ : Type*} (codec : CursorCodec δ) (into : γ → δ) (back : δ → γ)
    (h : ∀ cursor, back (into cursor) = cursor) : CursorCodec γ where
  encode cursor := codec.encode (into cursor)
  decode text := (codec.decode text).map back
  decode_encode cursor := by rw [codec.decode_encode, Option.map_some, h]
  encode_ne cursor := codec.encode_ne (into cursor)

/-- A number in unary, with an end. -/
def unary (n : Nat) : List Char := List.replicate n 'x' ++ [':']

def readUnary (text : List Char) : Nat × List Char :=
  ((text.takeWhile fun c => c == 'x').length, (text.dropWhile fun c => c == 'x').tail)

theorem readUnary_unary (n : Nat) (rest : List Char) : readUnary (unary n ++ rest) = (n, rest) := by
  induction n with
  | zero => rfl
  | succ n ih =>
    unfold readUnary at ih ⊢
    rw [Prod.mk.injEq] at ih
    have hcons : unary (n + 1) ++ rest = 'x' :: (unary n ++ rest) := rfl
    rw [hcons, List.takeWhile_cons_of_pos rfl, List.dropWhile_cons_of_pos rfl, List.length_cons,
      ih.1, ih.2]

/-- A number and two texts in one text. -/
def plainCodec : CursorCodec (Nat × String × String) where
  encode cursor := String.ofList <|
    unary cursor.1 ++ (unary cursor.2.1.toList.length ++ (cursor.2.1.toList ++ cursor.2.2.toList))
  decode text :=
    let number := readUnary text.toList
    let length := readUnary number.2
    some (number.1, String.ofList (length.2.take length.1), String.ofList (length.2.drop length.1))
  decode_encode cursor := by
    rw [String.toList_ofList, readUnary_unary]
    dsimp only
    rw [readUnary_unary]
    dsimp only
    rw [List.take_left, List.drop_left, String.ofList_toList, String.ofList_toList]
  encode_ne cursor hempty := by
    have hlist := congrArg String.toList hempty
    rw [String.toList_ofList] at hlist
    have hlength := congrArg List.length hlist
    simp [unary] at hlength

end HarnessControl.Library
