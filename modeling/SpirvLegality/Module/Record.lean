import SpirvLegality.Json
import SpirvLegality.Module

/-!
# Modules as records

The JSON record of a module: its units with their instructions, and the names of its values.
-/

namespace SpirvLegality

/-- The record of an operand, whose field name tells its kind. -/
def Operand.record : Operand → Json
  | .id value => .obj [("Id", .num value.index.toNat)]
  | .imm word => .obj [("Imm", .num word.toNat)]
  | .str text => .obj [("Str", .str text)]

/-- The record of an instruction. -/
def Instruction.record (inst : Instruction) : Json :=
  .obj [
    ("opcode", .str inst.opcode.bareName),
    ("result", match inst.result with
      | some id => .num id.index.toNat
      | none => .null),
    ("operands", .arr (inst.operands.map Operand.record)),
    ("span", .obj [
      ("start", .num inst.span.start.toNat), ("end", .num inst.span.stop.toNat)])]

/-- The record of a unit. -/
def CodeUnit.record (unit : CodeUnit) : Json :=
  .obj [("name", .str unit.name), ("insts", .arr (unit.instructions.map Instruction.record))]

/-- The record of a module. -/
def Module.record (m : Module) : Json :=
  .obj [("units", .arr (m.units.map CodeUnit.record)), ("id_names", .strs id m.names)]

end SpirvLegality
