import SpirvLegality.Instruction
import Std.Data.HashMap

/-!
# Modules

A module is a list of units, each resolved on its own: the instructions outside functions and then
one unit for each function. Definitions are visible across units. They are found through an index,
built once, that keeps the first definition of each value.
-/

namespace SpirvLegality

/-- A function of a module, or the instructions outside its functions. -/
structure CodeUnit where
  name : String
  instructions : List Instruction
deriving DecidableEq, Repr

/-- The first definition of each value, for fast access. -/
structure DefinitionIndex where
  entries : Std.HashMap ValueId Instruction

namespace DefinitionIndex

/-- The index without definitions. -/
def empty : DefinitionIndex := ⟨∅⟩

/-- The index after one more instruction; a value that is defined already keeps its definition. -/
def add (index : DefinitionIndex) (inst : Instruction) : DefinitionIndex :=
  match inst.result with
  | none => index
  | some id => ⟨index.entries.insertIfNew id inst⟩

/-- The index of the instructions of some units, in order. -/
def ofUnits (units : List CodeUnit) : DefinitionIndex :=
  units.foldl (fun index unit => unit.instructions.foldl add index) empty

/-- The definition of a value. -/
def find? (index : DefinitionIndex) : Definitions := fun id => index.entries[id]?

end DefinitionIndex

/-- A whole listing. -/
structure Module where
  units : List CodeUnit
  /-- The name of each value in the source, by its number. -/
  names : List String := []
deriving Repr

namespace Module

/-- The instructions of all units, in order. -/
def instructions (m : Module) : List Instruction := m.units.flatMap (·.instructions)

/-- The definitions of all units. -/
def index (m : Module) : DefinitionIndex := .ofUnits m.units

/-- The name of a value in the source. -/
def nameOf? (m : Module) (id : ValueId) : Option String := m.names[id.index.toNat]?

/-- The place of an instruction that defines a value: its unit and its position therein. -/
structure Location where
  value : ValueId
  unit : Nat
  position : Nat
deriving DecidableEq, Repr

/-- The places of all instructions that define a value. -/
def definitionSites (m : Module) : List Location :=
  (m.units.zipIdx).flatMap fun (unit, u) =>
    (unit.instructions.zipIdx).filterMap fun (inst, i) =>
      inst.result.map fun id => ⟨id, u, i⟩

end Module

end SpirvLegality
