import SpirvLegality.Module
import SpirvLegality.Text.Layout
import SpirvLegality.Text.Quoted

/-!
# Outlines of modules

A module laid out with every part on lines of its own, for reading: each value under the name of
its type, each field under its name. Texts are quoted.
-/

namespace SpirvLegality

open Text

/-- A value made of parts: its type and the parts in parentheses. -/
def outlineTuple (name : String) (parts : List Layout) : Layout :=
  .bracket (name ++ "(") ")" (Layout.terminate parts)

/-- A value made of named parts: its type and the parts in braces. -/
def outlineFields (name : String) (fields : List (String × Layout)) : Layout :=
  .bracket (name ++ " \x7b") "\x7d" (Layout.terminate (fields.map fun (field, value) =>
    value.before (field ++ ": ")))

/-- A list of values in brackets. -/
def outlineList (items : List Layout) : Layout := .bracket "[" "]" (Layout.terminate items)

/-- The outline of a number. -/
def outlineNumber (n : Nat) : Layout := .line (toString n)

/-- The outline of a text. -/
def outlineText (text : String) : Layout := .line (Text.quote text)

/-- The outline of a value. -/
def ValueId.outline (id : ValueId) : Layout :=
  outlineTuple "ValueId" [outlineNumber id.index.toNat]

/-- The outline of an operand. -/
def Operand.outline : Operand → Layout
  | .id value => outlineTuple "Id" [value.outline]
  | .imm word => outlineTuple "Imm" [outlineNumber word.toNat]
  | .str text => outlineTuple "Str" [outlineText text]

/-- The outline of an instruction. -/
def Instruction.outline (inst : Instruction) : Layout :=
  outlineFields "Inst" [
    ("opcode", .line inst.opcode.bareName),
    ("result", match inst.result with
      | some id => outlineTuple "Some" [id.outline]
      | none => .line "None"),
    ("operands", outlineList (inst.operands.map Operand.outline)),
    ("span", outlineFields "Span" [
      ("start", outlineNumber inst.span.start.toNat),
      ("end", outlineNumber inst.span.stop.toNat)])]

/-- The outline of a unit. -/
def CodeUnit.outline (unit : CodeUnit) : Layout :=
  outlineFields "Unit" [
    ("name", outlineText unit.name),
    ("insts", outlineList (unit.instructions.map Instruction.outline))]

/-- The outline of a definition: the value, and the place of its instruction. -/
def Module.Location.outline (site : Module.Location) : Layout :=
  (site.value.outline.behind ": ").join
    (outlineTuple "" [outlineNumber site.unit, outlineNumber site.position])

/-- The outline of a module. -/
def Module.outline (m : Module) : Layout :=
  outlineFields "Module" [
    ("units", outlineList (m.units.map CodeUnit.outline)),
    ("id_names", outlineList (m.names.map outlineText)),
    ("defs", .bracket "\x7b" "\x7d"
      (Layout.terminate (m.definitionSites.map Module.Location.outline)))]

end SpirvLegality
