import SpirvLegality.Declarations
import SpirvLegality.Json

/-!
# Resolution reports

What a module has to declare, as assembly text and as a JSON record, on request with the
declarations of each unit before those of the module. Reports name an extension by its
`OpExtension` string.
-/

namespace SpirvLegality

namespace Declarations

/-- The declarations in assembly text, one on each line. -/
def lines (d : Declarations) : List String :=
  d.capabilities.map (fun cap => "OpCapability " ++ cap.name) ++
    d.extensions.map fun ext => "OpExtension \"" ++ ext.name ++ "\""

/-- The fields of the declarations in a report. -/
def reportFields (d : Declarations) : List (String × Json) :=
  [("capabilities", .strs Capability.name d.capabilities),
   ("extensions", .strs Extension.name d.extensions)]

/-- The record of the declarations outside a report, where an extension has its short name. -/
def record (d : Declarations) : Json :=
  .obj [("capabilities", .strs Capability.name d.capabilities),
    ("extensions", .strs Extension.tag d.extensions)]

end Declarations

/-- The declarations of a module, and possibly those of each unit. -/
structure ResolutionReport where
  units : Option (List (String × Declarations))
  module : Declarations
deriving DecidableEq, Repr

namespace ResolutionReport

/-- The report of a module; the units are left out unless they are asked for. -/
def of (module : Declarations) (units : List (String × Declarations)) (perUnit : Bool) :
    ResolutionReport where
  units := if perUnit then some units else none
  module := module

/-- The lines of one unit, under a line with its name. -/
def unitLines (unit : String × Declarations) : List String :=
  ("; unit " ++ unit.1) :: unit.2.lines

/-- The lines of a report. -/
def lines (report : ResolutionReport) : List String :=
  match report.units with
  | none => report.module.lines
  | some units => units.flatMap unitLines ++ "; module" :: report.module.lines

/-- A report as assembly text. -/
def text (report : ResolutionReport) : String := Text.ofLines report.lines

/-- A report as a JSON record. -/
def record (report : ResolutionReport) : Json :=
  let units :=
    report.units.toList.map fun units =>
      ("units", Json.arr (units.map fun unit =>
        .obj (("unit", .str unit.1) :: unit.2.reportFields)))
  .obj (units ++ report.module.reportFields)

end ResolutionReport

end SpirvLegality
