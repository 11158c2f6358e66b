import SpirvLegality.Capability
import SpirvLegality.Extension
import SpirvLegality.Version

/-!
# Enumerants and their tables

An enumerant is one named value of an operand, with the capabilities that allow it, the extensions
that make it legal on older targets, and the versions between which it is legal. A table lists
enumerants by number. `EnumTable.get?` searches by halving, which finds a row when the numbers
increase along the table (`EnumTable.isSorted`); `EnumTable.byName?` takes the first row of a name.
-/

namespace SpirvLegality

/-- A type whose values are numbered by 32-bit words. -/
class Numbered (α : Type) where
  number : α → UInt32

instance : Numbered UInt32 := ⟨id⟩

instance : Numbered Capability := ⟨Capability.number⟩

/-- One named value of an operand and what it asks of a target. -/
structure Enumerant (α : Type) where
  value : α
  name : String
  capabilities : List Capability := []
  extensions : List Extension := []
  minVersion : Version := .unspecified
  maxVersion : Version := .unspecified
deriving Repr, DecidableEq

namespace Enumerant

/-- An enumerant that is legal in every version. -/
def plain {α : Type} (value : α) (name : String) (capabilities : List Capability) : Enumerant α :=
  { value, name, capabilities }

/-- The number of an enumerant. -/
def number {α : Type} [Numbered α] (row : Enumerant α) : UInt32 := Numbered.number row.value

end Enumerant

/-- The enumerants of one family. -/
structure EnumTable (α : Type) where
  family : String
  rows : Array (Enumerant α)

namespace EnumTable

variable {α : Type} [Numbered α]

/-- Searches the rows from `lo` up to and without `hi`, halving the interval at each step. -/
def search (rows : Array (Enumerant α)) (number : UInt32) (lo hi : Nat) : Option (Enumerant α) :=
  if lo < hi then
    match rows[lo + (hi - lo) / 2]? with
    | none => none
    | some row =>
      if row.number < number then search rows number (lo + (hi - lo) / 2 + 1) hi
      else if number < row.number then search rows number lo (lo + (hi - lo) / 2)
      else some row
  else none
termination_by hi - lo

/-- The row with a given number, in a table whose numbers increase. -/
def get? (table : EnumTable α) (number : UInt32) : Option (Enumerant α) :=
  search table.rows number 0 table.rows.size

omit [Numbered α] in
/-- The first row with a given name. -/
def byName? (table : EnumTable α) (name : String) : Option (Enumerant α) :=
  table.rows.toList.find? (·.name == name)

/-- Whether each number is below the next one. -/
def increasing : List UInt32 → Bool
  | first :: second :: rest => first < second && increasing (second :: rest)
  | _ => true

/-- Whether the numbers increase from each row to the next. -/
def isSorted (table : EnumTable α) : Bool :=
  increasing (table.rows.toList.map Enumerant.number)

end EnumTable

end SpirvLegality
