import SpirvLegality.Module

/-!
# Definitions by their places

An index of definitions may keep places and leave the instructions where they are: for each value
the unit and the position of the instruction that defines it first. `PlaceIndex.ofUnits` collects
the places unit by unit, and `Module.definition?` follows the place of a value to its instruction.
-/

namespace SpirvLegality

/-- The place of the first definition of each value. -/
structure PlaceIndex where
  entries : Std.HashMap ValueId Module.Location

namespace PlaceIndex

/-- The index without places. -/
def empty : PlaceIndex := ⟨∅⟩

/-- The index after the instruction at a position of the unit `u`; a value that is defined already
keeps its place. -/
def add (u : Nat) (index : PlaceIndex) : Instruction × Nat → PlaceIndex
  | (inst, i) =>
    match inst.result with
    | none => index
    | some id => ⟨index.entries.insertIfNew id ⟨id, u, i⟩⟩

/-- The index after the instructions of one more unit, in order. -/
def addUnit (index : PlaceIndex) : CodeUnit × Nat → PlaceIndex
  | (unit, u) => unit.instructions.zipIdx.foldl (add u) index

/-- The index of the instructions of some units, in order. -/
def ofUnits (units : List CodeUnit) : PlaceIndex := units.zipIdx.foldl addUnit empty

/-- The place of the first definition of a value. -/
def find? (index : PlaceIndex) (id : ValueId) : Option Module.Location := index.entries[id]?

end PlaceIndex

namespace Module

/-- The instruction at a place. -/
def instructionAt? (m : Module) (place : Location) : Option Instruction :=
  m.units[place.unit]?.bind fun unit => unit.instructions[place.position]?

/-- The places of the definitions of all units. -/
def places (m : Module) : PlaceIndex := .ofUnits m.units

/-- The definition of a value, which stands at its place. -/
def definition? (m : Module) : Definitions := fun id => (m.places.find? id).bind m.instructionAt?

end Module

end SpirvLegality
