import SpirvLegality.Target

/-!
# Default features of a target

Which capabilities, extensions and instruction sets a target has before its switches are applied.
A target without a client interface has the defaults of OpenCL.
-/

namespace SpirvLegality

/-- A condition on the target under which it has a capability by default. -/
inductive DefaultCondition where
  | vulkan | notVulkan | fullProfile | imageSupport
  /-- Image support together with OpenCL 2.0 or later. -/
  | readWriteImages
  /-- SPIR-V 1.1 or later together with OpenCL 2.2 or later. -/
  | pipeStorage
deriving DecidableEq, Repr

namespace DefaultCondition

/-- Whether a target meets the condition. -/
def holds (t : Target) : DefaultCondition → Bool
  | .vulkan => t.isVulkan
  | .notVulkan => !t.isVulkan
  | .fullProfile => !t.isVulkan && t.fullProfile
  | .imageSupport => !t.isVulkan && t.imageSupport
  | .readWriteImages => !t.isVulkan && t.imageSupport && t.openCl.atLeast (.of 2 0)
  | .pipeStorage => !t.isVulkan && t.spirv.atLeast (.of 1 1) && t.openCl.atLeast (.of 2 2)

/-- The capabilities that each condition brings. -/
def capabilities : DefaultCondition → List Capability
  | .vulkan =>
    [.matrix, .shader, .inputAttachment, .sampled1D, .image1D, .sampledBuffer, .imageBuffer,
     .imageQuery, .derivativeControl]
  | .notVulkan =>
    [.addresses, .float16Buffer, .int16, .int8, .kernel, .linkage, .vector16, .float16]
  | .fullProfile => [.int64, .float64]
  | .imageSupport => [.imageBasic, .literalSampler, .image1D, .sampledBuffer, .imageBuffer]
  | .readWriteImages => [.imageReadWrite]
  | .pipeStorage => [.pipeStorage]

/-- Every condition. -/
def values : List DefaultCondition :=
  [.vulkan, .notVulkan, .fullProfile, .imageSupport, .readWriteImages, .pipeStorage]

end DefaultCondition

namespace Target

/-- Whether a target has a capability by default. -/
def hasByDefault (t : Target) (cap : Capability) : Bool :=
  DefaultCondition.values.any fun condition =>
    condition.holds t && condition.capabilities.contains cap

/-- The capabilities that the defaults and then the switches of a target ask for. -/
def flags (t : Target) : EnumSet Capability :=
  t.capabilityToggles.foldl (fun s (cap, on) => s.assign cap on) ⟨t.hasByDefault⟩

/-- The extensions that a target has by default. -/
def defaultExtensions (t : Target) : EnumSet Extension :=
  if t.isVulkan then .empty else EnumSet.empty.insert .khrNoIntegerWrapDecoration

/-- The extensions of a target after its switches. -/
def extensions (t : Target) : EnumSet Extension :=
  t.extensionToggles.foldl (fun s (ext, on) => s.assign ext on) t.defaultExtensions

/-- The instruction sets that a target can import. -/
def instructionSets (t : Target) : EnumSet InstructionSet :=
  let base := EnumSet.empty.insert (if t.isVulkan then .glslStd450 else .openClStd)
  if .amdShaderTrinaryMinmax ∈ t.extensions then base.insert .amdShaderTrinaryMinmax else base

end Target

end SpirvLegality
