import SpirvLegality.Instruction
import Std.Data.HashMap

/-!
# Numbering names

A name gets its number when it first appears: the count of the names before it, cut off to a word
of 32 bits. So the first `2 ^ 32` names have different numbers, and the next one has that of the
first name. The table also keeps which values an instruction has defined.
-/

namespace SpirvLegality.Listing

/-- The names that have appeared, in order, with their values. -/
structure NameTable where
  names : Array String := #[]
  ids : Std.HashMap String ValueId := ∅
  defined : Std.HashMap ValueId Unit := ∅

namespace NameTable

/-- The value of a name, which gets the next number when it appears for the first time. -/
def intern (table : NameTable) (name : String) : ValueId × NameTable :=
  match table.ids[name]? with
  | some id => (id, table)
  | none =>
    let id : ValueId := ⟨.ofNat table.names.size⟩
    (id, { table with names := table.names.push name, ids := table.ids.insert name id })

/-- The value of a name that an instruction defines, unless this value is defined already. -/
def define? (table : NameTable) (name : String) : Option (ValueId × NameTable) :=
  let (id, table) := table.intern name
  if table.defined.contains id then none
  else some (id, { table with defined := table.defined.insert id () })

/-- The name that a value stands for. -/
def nameOf? (table : NameTable) (id : ValueId) : Option String := table.names[id.index.toNat]?

/-- The names by number. -/
def toList (table : NameTable) : List String := table.names.toList

end NameTable

end SpirvLegality.Listing
