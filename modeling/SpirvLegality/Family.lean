import SpirvLegality.Family.BuiltIn
import SpirvLegality.Family.Decoration
import SpirvLegality.Family.Execution
import SpirvLegality.Family.Storage

/-!
# Operand families

A family names the table in which an operand is looked up, and gathers the few operand numbers
that rules compare with directly.
-/

namespace SpirvLegality

/-- A kind of operand whose values have a table. -/
inductive Family where
  | addressingModel | memoryModel | executionModel | executionMode | storageClass | imageFormat
  | decoration | builtIn
deriving DecidableEq, Repr

namespace Family

/-- The rows of a family. -/
def table : Family → EnumTable UInt32
  | .addressingModel => addressingModelTable
  | .memoryModel => memoryModelTable
  | .executionModel => executionModelTable
  | .executionMode => executionModeTable
  | .storageClass => storageClassTable
  | .imageFormat => imageFormatTable
  | .decoration => decorationTable
  | .builtIn => builtInTable

/-- The name of a family. -/
def name (family : Family) : String := family.table.family

/-- Every family. -/
def values : List Family :=
  [.addressingModel, .memoryModel, .executionModel, .executionMode, .storageClass, .imageFormat,
   .decoration, .builtIn]

/-- The family with a given name. -/
def ofName? (name : String) : Option Family :=
  values.find? (·.name == name)

end Family

end SpirvLegality
