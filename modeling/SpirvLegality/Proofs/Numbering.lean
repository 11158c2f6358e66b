import Mathlib.Algebra.Group.Nat.Defs
import Mathlib.Data.List.Basic
import SpirvLegality.Listing.NameTable
import SpirvLegality.Proofs.Declarations

/-!
# What a name table holds

A table numbers names in the order of their first appearance, so what it holds is told by two lists:
the names that have appeared, each once and in order, and the values that are defined
(`NameTable.Represents`). The value of a name is its place in the first list, cut off to a word
(`valueIn`). It does not change as further names appear behind it (`valueIn_of_isPrefix`), but only
among the first `2 ^ 32` names it tells the name (`nameIn?_valueIn`). `Represents.intern` and
`Represents.define?_of_not_mem` say what the operations of a table do to the two lists.
-/

namespace SpirvLegality

namespace Listing

/-- The value of a name: its place in a list of names, cut off to a word of 32 bits. -/
def valueIn (names : List String) (name : String) : ValueId := ⟨.ofNat (names.idxOf name)⟩

/-- The name that a value stands for in a list of names. -/
def nameIn? (names : List String) (id : ValueId) : Option String := names[id.index.toNat]?

section

variable {names longer : List String} {name other : String}

/-- A list of names is not too long for the value of one of them. -/
theorem toNat_index_valueIn_lt (hname : name ∈ names) :
    (valueIn names name).index.toNat < names.length := by
  rw [valueIn, UInt32.toNat_ofNat']
  exact Nat.lt_of_le_of_lt (Nat.mod_le _ _) (List.idxOf_lt_length_of_mem hname)

/-- Among the first `2 ^ 32` names the value of a name is its place. -/
theorem toNat_index_valueIn (hfit : names.length ≤ 2 ^ 32) (hname : name ∈ names) :
    (valueIn names name).index.toNat = names.idxOf name :=
  UInt32.toNat_ofNat_of_lt (Nat.lt_of_lt_of_le (List.idxOf_lt_length_of_mem hname) hfit)

/-- Among the first `2 ^ 32` names the value of a name stands for the name. -/
theorem nameIn?_valueIn (hfit : names.length ≤ 2 ^ 32) (hname : name ∈ names) :
    nameIn? names (valueIn names name) = some name := by
  rw [nameIn?, toNat_index_valueIn hfit hname]
  exact List.getElem?_idxOf hname

/-- Among the first `2 ^ 32` names different names have different values. -/
theorem eq_of_valueIn_eq (hfit : names.length ≤ 2 ^ 32) (hname : name ∈ names)
    (hother : other ∈ names) (h : valueIn names name = valueIn names other) : name = other := by
  have hsome := nameIn?_valueIn hfit hname
  rw [h, nameIn?_valueIn hfit hother] at hsome
  exact (Option.some.inj hsome).symm

/-- The value of a name stays the same as further names appear. -/
theorem valueIn_of_isPrefix (hname : name ∈ names) (h : names <+: longer) :
    valueIn longer name = valueIn names name := by
  obtain ⟨further, rfl⟩ := h
  rw [valueIn, valueIn, List.idxOf_append_of_mem hname]

/-- What this value stands for stays the same, too. -/
theorem nameIn?_valueIn_of_isPrefix (hname : name ∈ names) (h : names <+: longer) :
    nameIn? longer (valueIn longer name) = nameIn? names (valueIn names name) := by
  rw [valueIn_of_isPrefix hname h]
  obtain ⟨further, rfl⟩ := h
  exact List.getElem?_append_left (toNat_index_valueIn_lt hname)

/-- The value of a name that has not appeared yet is the number of those that have. -/
theorem valueIn_concat (hname : name ∉ names) :
    valueIn (names ++ [name]) name = ⟨.ofNat names.length⟩ := by
  rw [valueIn, List.idxOf_append_of_notMem hname, List.idxOf_cons_self, Nat.add_zero]

end

namespace NameTable

/-- A table holds some names in the order of their numbers, and some values are defined. -/
structure Represents (table : NameTable) (names : List String) (defined : List ValueId) :
    Prop where
  toList_eq : table.toList = names
  nodup : names.Nodup
  ids_eq : ∀ name, table.ids[name]? = if name ∈ names then some (valueIn names name) else none
  contains_iff : ∀ id, table.defined.contains id = true ↔ id ∈ defined

theorem represents_empty : Represents {} [] [] where
  toList_eq := rfl
  nodup := List.nodup_nil
  ids_eq := by simp
  contains_iff := by simp

variable {table : NameTable} {names : List String} {defined : List ValueId}

theorem Represents.size_eq (h : table.Represents names defined) :
    table.names.size = names.length := by
  rw [← h.toList_eq]
  exact Array.length_toList.symm

/-- A value stands for the name with its number. -/
theorem Represents.nameOf?_eq (h : table.Represents names defined) :
    table.nameOf? = nameIn? names := by
  funext id
  rw [nameOf?, nameIn?, ← h.toList_eq]
  exact Array.getElem?_toList.symm

/-- A name that is looked up has the number of its first appearance, which is added to the table if
it is this one. -/
theorem Represents.intern (h : table.Represents names defined) (name : String) :
    (table.intern name).1 = valueIn (appendNew names name) name ∧
      (table.intern name).2.Represents (appendNew names name) defined := by
  unfold NameTable.intern
  rw [h.ids_eq name]
  by_cases hname : name ∈ names
  · rw [if_pos hname, appendNew_of_mem hname]
    exact ⟨rfl, h⟩
  · rw [if_neg hname, appendNew_of_not_mem hname, valueIn_concat hname, ← h.size_eq]
    refine ⟨rfl, ?_⟩
    constructor
    · show (table.names.push name).toList = names ++ [name]
      rw [Array.toList_push]
      exact congrArg (· ++ [name]) h.toList_eq
    · exact appendNew_of_not_mem hname ▸ nodup_appendNew h.nodup name
    · intro other
      show (table.ids.insert name ⟨.ofNat table.names.size⟩)[other]? = _
      rw [Std.HashMap.getElem?_insert, h.ids_eq other]
      by_cases hother : other = name
      · subst hother
        simp [valueIn_concat hname, h.size_eq]
      · have hlonger : other ∈ names → valueIn (names ++ [name]) other = valueIn names other :=
          fun hmem => valueIn_of_isPrefix hmem (List.prefix_append names [name])
        by_cases hmem : other ∈ names
        · simp [hmem, hlonger, Ne.symm hother]
        · simp [hmem, hother, Ne.symm hother]
    · exact h.contains_iff

/-- A name whose value is defined cannot be defined. -/
theorem Represents.define?_of_mem (h : table.Represents names defined) {name : String}
    (hid : valueIn (appendNew names name) name ∈ defined) : table.define? name = none := by
  obtain ⟨hvalue, hnext⟩ := h.intern name
  have hcontains : (table.intern name).2.defined.contains (table.intern name).1 = true := by
    rwa [hnext.contains_iff, hvalue]
  exact if_pos hcontains

/-- A name whose value is not defined yet is looked up, and its value becomes defined. -/
theorem Represents.define?_of_not_mem (h : table.Represents names defined) {name : String}
    (hid : valueIn (appendNew names name) name ∉ defined) :
    ∃ next, table.define? name = some (valueIn (appendNew names name) name, next) ∧
      next.Represents (appendNew names name)
        (valueIn (appendNew names name) name :: defined) := by
  obtain ⟨hvalue, hnext⟩ := h.intern name
  have hcontains : ¬ (table.intern name).2.defined.contains (table.intern name).1 = true := by
    rwa [hnext.contains_iff, hvalue]
  refine ⟨{ (table.intern name).2 with
    defined := (table.intern name).2.defined.insert (table.intern name).1 () }, ?_, ?_⟩
  · rw [← hvalue]
    exact if_neg hcontains
  · constructor
    · exact hnext.toList_eq
    · exact hnext.nodup
    · exact hnext.ids_eq
    · intro id
      show ((table.intern name).2.defined.insert (table.intern name).1 ()).contains id = true ↔ _
      rw [Std.HashMap.contains_insert, Bool.or_eq_true, beq_iff_eq, hnext.contains_iff, hvalue,
        List.mem_cons]
      exact or_congr_left eq_comm

end NameTable

end Listing

end SpirvLegality
