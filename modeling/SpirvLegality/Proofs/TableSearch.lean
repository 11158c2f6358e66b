import SpirvLegality.Enumerant
import Mathlib.Data.List.Nodup
import Mathlib.Data.List.Pairwise

/-!
# Searching a table

The check of a table compares each number with the next one, and yet any two rows are in order
where it passes (`EnumTable.isSorted_iff`). In such a table the search by halving finds the row of a
number wherever there is one (`EnumTable.get?_eq_some_iff`). A search from the front finds what has
a name, if no other entry has this name (`find?_eq_some_iff_of_nodup`), so by number it finds the
same row as the search by halving (`EnumTable.get?_eq_find?`).
-/

namespace SpirvLegality

/-- Where keys are not repeated, a search from the front finds the entry with a given key. -/
theorem find?_eq_some_iff_of_nodup {α κ : Type} [BEq κ] [LawfulBEq κ] {key : α → κ}
    {entries : List α} (h : (entries.map key).Nodup) {k : κ} {a : α} :
    entries.find? (fun b => key b == k) = some a ↔ a ∈ entries ∧ key a = k := by
  constructor
  · intro hfound
    exact ⟨List.mem_of_find?_eq_some hfound, by simpa using List.find?_some hfound⟩
  · rintro ⟨ha, rfl⟩
    obtain ⟨found, hfound⟩ : ∃ found, entries.find? (fun b => key b == key a) = some found := by
      rw [← Option.isSome_iff_exists, List.find?_isSome]
      exact ⟨a, ha, beq_self_eq_true (key a)⟩
    have hkey : key found = key a := by simpa using List.find?_some hfound
    rw [hfound, List.inj_on_of_nodup_map h (List.mem_of_find?_eq_some hfound) ha hkey]

namespace EnumTable

variable {α : Type} [Numbered α]

/-- Whether each row of a table has a smaller number than all rows behind it. -/
def Increasing (table : EnumTable α) : Prop :=
  table.rows.toList.Pairwise fun row later => row.number < later.number

/-- Numbers of which each is below the next one increase throughout. -/
theorem increasing_iff_pairwise {numbers : List UInt32} :
    increasing numbers = true ↔ numbers.Pairwise (· < ·) := by
  have hchain : increasing numbers = true ↔ numbers.IsChain (· < ·) := by
    fun_induction increasing numbers with
    | case1 first second rest ih =>
        rw [Bool.and_eq_true, decide_eq_true_eq, ih, List.isChain_cons_cons]
    | case2 numbers hshort =>
        match numbers, hshort with
        | [], _ => simp
        | [_], _ => simp
        | first :: second :: rest, h => exact absurd rfl (h first second rest)
  have : Trans (α := UInt32) (β := UInt32) (γ := UInt32) (· < ·) (· < ·) (· < ·) :=
    ⟨UInt32.lt_trans⟩
  rw [hchain, List.isChain_iff_pairwise]

/-- The check passes where the numbers increase throughout. -/
theorem isSorted_iff {table : EnumTable α} : table.isSorted = true ↔ table.Increasing := by
  rw [isSorted, increasing_iff_pairwise, List.pairwise_map, Increasing]

instance (table : EnumTable α) : Decidable table.Increasing :=
  decidable_of_iff _ isSorted_iff

/-- Of two rows the earlier one has the smaller number. -/
theorem Increasing.number_lt {table : EnumTable α} (h : table.Increasing) {i j : Nat}
    {row later : Enumerant α} (hi : table.rows[i]? = some row) (hj : table.rows[j]? = some later)
    (hij : i < j) : row.number < later.number := by
  obtain ⟨hisize, rfl⟩ := Array.getElem?_eq_some_iff.1 hi
  obtain ⟨hjsize, rfl⟩ := Array.getElem?_eq_some_iff.1 hj
  exact List.pairwise_iff_getElem.1 h i j hisize hjsize hij

/-- What a search finds is one of the rows and has the number that is searched. -/
theorem mem_of_search {rows : Array (Enumerant α)} {number : UInt32} {lo hi : Nat}
    {row : Enumerant α} (h : search rows number lo hi = some row) :
    row ∈ rows ∧ row.number = number := by
  fun_induction search rows number lo hi with
  | case1 => cases h
  | case2 lo hi _ middle hmiddle _ ih => exact ih h
  | case3 lo hi _ middle hmiddle _ _ ih => exact ih h
  | case4 lo hi _ middle hmiddle hge hle =>
      cases h
      exact ⟨Array.mem_of_getElem? hmiddle,
        UInt32.le_antisymm (UInt32.not_lt.1 hle) (UInt32.not_lt.1 hge)⟩
  | case5 => cases h

/-- Where the numbers increase, a search finds each row between its bounds by its number: the half
that is given up does not contain the row. -/
theorem search_of_getElem? {table : EnumTable α} (hincreasing : table.Increasing) {lo hi i : Nat}
    {row : Enumerant α} (hi' : table.rows[i]? = some row) (hlo : lo ≤ i) (hhi : i < hi)
    (hsize : hi ≤ table.rows.size) : search table.rows row.number lo hi = some row := by
  fun_induction search table.rows row.number lo hi with
  | case1 lo hi _ hnone =>
      rw [Array.getElem?_eq_none_iff] at hnone
      omega
  | case2 lo hi _ middle hmiddle hlt ih =>
      refine ih ?_ hhi hsize
      by_contra hleft
      rcases Nat.lt_or_eq_of_le (Nat.not_lt.1 hleft) with hbefore | rfl
      · exact UInt32.lt_asymm hlt (hincreasing.number_lt hi' hmiddle hbefore)
      · cases hi'.symm.trans hmiddle
        exact UInt32.lt_irrefl _ hlt
  | case3 lo hi _ middle hmiddle _ hgt ih =>
      refine ih hlo ?_ (by omega)
      by_contra hright
      rcases Nat.lt_or_eq_of_le (Nat.not_lt.1 hright) with hbehind | rfl
      · exact UInt32.lt_asymm hgt (hincreasing.number_lt hmiddle hi' hbehind)
      · cases hi'.symm.trans hmiddle
        exact UInt32.lt_irrefl _ hgt
  | case4 lo hi _ middle hmiddle hge hle =>
      -- No two rows have the same number, so the middle row is the one.
      rcases Nat.lt_trichotomy (lo + (hi - lo) / 2) i with hbefore | rfl | hbehind
      · exact absurd (hincreasing.number_lt hmiddle hi' hbefore) hge
      · exact hmiddle.symm.trans hi'
      · exact absurd (hincreasing.number_lt hi' hmiddle hbehind) hle
  | case5 lo hi hempty => omega

theorem mem_of_get? {table : EnumTable α} {number : UInt32} {row : Enumerant α}
    (h : table.get? number = some row) : row ∈ table.rows ∧ row.number = number :=
  mem_of_search h

/-- Where the numbers increase, a row is found by its number. -/
theorem get?_eq_some_iff {table : EnumTable α} (hincreasing : table.Increasing) {number : UInt32}
    {row : Enumerant α} :
    table.get? number = some row ↔ row ∈ table.rows ∧ row.number = number := by
  constructor
  · exact mem_of_get?
  · rintro ⟨hrow, rfl⟩
    obtain ⟨i, hi, rfl⟩ := Array.getElem_of_mem hrow
    exact search_of_getElem? hincreasing (Array.getElem?_eq_getElem hi) (Nat.zero_le i) hi
      (Nat.le_refl _)

/-- Where the numbers increase, none occurs twice. -/
theorem Increasing.nodup_numbers {table : EnumTable α} (h : table.Increasing) :
    (table.rows.toList.map Enumerant.number).Nodup :=
  List.pairwise_map.2 (h.imp UInt32.ne_of_lt)

/-- Where the numbers increase, the search by halving finds what a search from the front finds. -/
theorem get?_eq_find? {table : EnumTable α} (h : table.Increasing) (number : UInt32) :
    table.get? number = table.rows.toList.find? fun row => row.number == number := by
  refine Option.ext fun row => ?_
  rw [get?_eq_some_iff h, find?_eq_some_iff_of_nodup h.nodup_numbers, Array.mem_toList_iff]

/-- Where the numbers increase, nothing is found just where no row has the number. -/
theorem get?_eq_none_iff {table : EnumTable α} (h : table.Increasing) {number : UInt32} :
    table.get? number = none ↔ ∀ row ∈ table.rows, row.number ≠ number := by
  simp only [Option.eq_none_iff_forall_ne_some, ne_eq, get?_eq_some_iff h, not_and]

/-- The check passes just where the number at each position is below the numbers at all later
positions. In a table that passes it, the search by halving finds for every number the row that a
search from the front finds, and nothing just where no row has the number. -/
theorem checked_and_searched (table : EnumTable α) :
    (table.isSorted = true ↔
        ∀ (i j : Nat) (hi : i < table.rows.size) (hj : j < table.rows.size), i < j →
          table.rows[i].number < table.rows[j].number) ∧
      (table.isSorted = true → ∀ number : UInt32,
        table.get? number = (table.rows.toList.find? fun row => row.number == number) ∧
          (table.get? number = none ↔ ∀ row ∈ table.rows, row.number ≠ number)) := by
  constructor
  · exact isSorted_iff.trans List.pairwise_iff_getElem
  · intro hsorted number
    have hincreasing := isSorted_iff.1 hsorted
    exact ⟨get?_eq_find? hincreasing number, get?_eq_none_iff hincreasing⟩

/-- A table with gaps between its numbers, the last of which is the greatest one that there is. -/
def sparse : EnumTable UInt32 where
  family := "Sparse"
  rows := #[.plain 0 "Zero" [], .plain 4 "Four" [.shader],
    .plain 9 "Nine" [.kernel, .shader], .plain 0xffffffff "Last" []]

/-- The first and the last row are found, and nothing is found in a gap. -/
theorem checked_and_searched_sparse :
    sparse.isSorted = true ∧ sparse.get? 0 = some (.plain 0 "Zero" []) ∧
      sparse.get? 0xffffffff = some (.plain 0xffffffff "Last" []) ∧ sparse.get? 5 = none := by
  have hsorted : sparse.isSorted = true := by decide
  have hsearched := (checked_and_searched sparse).2 hsorted
  exact ⟨hsorted, (hsearched 0).1.trans (by decide), (hsearched 0xffffffff).1.trans (by decide),
    (hsearched 5).2.2 (by decide)⟩

end EnumTable

end SpirvLegality
