import SpirvLegality.Environment.Availability
import SpirvLegality.Environment.Default
import SpirvLegality.Requirement

/-!
# Environments

An environment answers what a target can use. It is built from the defaults and switches of the
target, and its capabilities can be changed afterwards. `Environment.gate` compares a row of a
table with the target's SPIR-V version: within the row's versions nothing more is needed, and
below them an extension may make up for it.
-/

namespace SpirvLegality

/-- What a target can use. -/
structure Environment where
  target : Target
  graph : PrerequisiteGraph
  state : Availability
  extensions : EnumSet Extension
  instructionSets : EnumSet InstructionSet

namespace Environment

/-- The environment of a target over a graph of prerequisites. -/
def ofTarget (target : Target) (graph : PrerequisiteGraph := .standard) : Environment where
  target := target
  graph := graph
  state := (Availability.ofFlags target.flags).synchronize graph
  extensions := target.extensions
  instructionSets := target.instructionSets

variable (env : Environment)

/-- The environment after a capability was enabled. -/
def enable (cap : Capability) : Environment :=
  { env with state := env.state.enable env.graph cap }

/-- The environment after the flag of a capability was switched. -/
def setFlag (cap : Capability) (on : Bool) : Environment :=
  { env with state := env.state.setFlag cap on }

/-- The environment after its capabilities were brought in line with their flags. -/
def synchronize : Environment :=
  { env with state := env.state.synchronize env.graph }

/-- Whether a capability is available. -/
def hasCapability (cap : Capability) : Bool := env.state.available.contains cap

/-- Whether an extension is available. -/
def hasExtension (ext : Extension) : Bool := env.extensions.contains ext

/-- Whether an instruction set can be imported. -/
def hasInstructionSet (set : InstructionSet) : Bool := env.instructionSets.contains set

/-- The extension that a row needs on this target: none within its versions, and below them the
first of its extensions that is available. -/
def gate {α : Type} (row : Enumerant α) : Except RequirementError (Option Extension) :=
  let version := env.target.spirv
  if version.atLeast row.minVersion then
    -- The upper bound does not apply where it or the target's version is unspecified.
    if !row.maxVersion.isUnspecified && !version.isUnspecified &&
        row.maxVersion.bits < version.bits then
      .error (.versionTooHigh row.name row.maxVersion version)
    else .ok none
  else
    match row.extensions.find? env.hasExtension with
    | some ext => .ok (some ext)
    | none => .error (.versionTooLow row.name row.minVersion version)

/-- The extension that a capability needs on this target, if the capability is available and legal
in the target's version. -/
def usable? (cap : Capability) : Option (Option Extension) :=
  if env.hasCapability cap then
    match env.gate cap.row with
    | .ok ext => some ext
    | .error _ => none
  else none

/-- The first of some capabilities that can be used, with the extension that it needs. -/
def pick? (candidates : List Capability) : Option (Capability × Option Extension) :=
  candidates.findSome? fun cap => (env.usable? cap).map fun ext => (cap, ext)

end Environment

end SpirvLegality
