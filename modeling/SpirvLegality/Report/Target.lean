import SpirvLegality.Environment
import SpirvLegality.Json

/-!
# Target reports

What a target is and what it can use, as aligned text and as a JSON record.
-/

namespace SpirvLegality.Environment

variable (env : Environment)

/-- The available capabilities, by number. -/
def capabilityNames : List String := env.state.available.toList.map Capability.name

/-- The available extensions. -/
def extensionNames : List String := env.extensions.toList.map Extension.name

/-- The instruction sets that can be imported. -/
def instructionSetNames : List String := env.instructionSets.toList.map InstructionSet.name

/-- Some names with blanks between them. -/
def joined (names : List String) : String :=
  if names.isEmpty then "(none)" else " ".intercalate names

/-- The lines of a report, with the values aligned. -/
def reportLines : List String :=
  [ "triple:        " ++ env.target.triple,
    "environment:   " ++ env.target.api.name,
    "addressing:    " ++ env.target.addressing.tag,
    "SPIR-V:        " ++ env.target.spirv.text,
    "OpenCL:        " ++ env.target.openCl.text,
    "Vulkan:        " ++ env.target.vulkan.text,
    "capabilities:  " ++ joined env.capabilityNames,
    "extensions:    " ++ joined env.extensionNames,
    "ext-inst sets: " ++ joined env.instructionSetNames ]

/-- A report as text. -/
def reportText : String := Text.ofLines env.reportLines

/-- A report as a JSON record. -/
def record : Json :=
  .obj [
    ("triple", .str env.target.triple),
    ("environment", .str env.target.api.tag),
    ("addressing", .str env.target.addressing.tag),
    ("spirv_version", .str env.target.spirv.text),
    ("opencl_version", .str env.target.openCl.text),
    ("vulkan_version", .str env.target.vulkan.text),
    ("capabilities", .strs id env.capabilityNames),
    ("extensions", .strs id env.extensionNames),
    ("ext_inst_sets", .strs id env.instructionSetNames)]

end SpirvLegality.Environment
