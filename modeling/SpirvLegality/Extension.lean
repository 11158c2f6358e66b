import SpirvLegality.Enumerated

/-!
# Extensions and extended instruction sets

The optional extensions of SPIR-V, named by their `OpExtension` string, and the instruction sets
that a module can import. An instruction set may in turn need an extension.
-/

namespace SpirvLegality

/-- An optional SPIR-V extension. -/
inductive Extension where
  | khrShaderBallot | khrShaderDrawParameters | khrSubgroupVote | khr16bitStorage
  | khrDeviceGroup | khrMultiview | khrVariablePointers | khrShaderAtomicCounterOps
  | khrPostDepthCoverage | khr8bitStorage | khrFloatControls | khrNoIntegerWrapDecoration
  | amdShaderTrinaryMinmax
deriving DecidableEq, Repr, Inhabited

namespace Extension

/-- The string by which a module asks for the extension. -/
def name : Extension → String
  | .khrShaderBallot => "SPV_KHR_shader_ballot"
  | .khrShaderDrawParameters => "SPV_KHR_shader_draw_parameters"
  | .khrSubgroupVote => "SPV_KHR_subgroup_vote"
  | .khr16bitStorage => "SPV_KHR_16bit_storage"
  | .khrDeviceGroup => "SPV_KHR_device_group"
  | .khrMultiview => "SPV_KHR_multiview"
  | .khrVariablePointers => "SPV_KHR_variable_pointers"
  | .khrShaderAtomicCounterOps => "SPV_KHR_shader_atomic_counter_ops"
  | .khrPostDepthCoverage => "SPV_KHR_post_depth_coverage"
  | .khr8bitStorage => "SPV_KHR_8bit_storage"
  | .khrFloatControls => "SPV_KHR_float_controls"
  | .khrNoIntegerWrapDecoration => "SPV_KHR_no_integer_wrap_decoration"
  | .amdShaderTrinaryMinmax => "SPV_AMD_shader_trinary_minmax"

/-- The word that stands for the extension in data records. -/
def tag : Extension → String
  | .khrShaderBallot => "KhrShaderBallot"
  | .khrShaderDrawParameters => "KhrShaderDrawParameters"
  | .khrSubgroupVote => "KhrSubgroupVote"
  | .khr16bitStorage => "Khr16bitStorage"
  | .khrDeviceGroup => "KhrDeviceGroup"
  | .khrMultiview => "KhrMultiview"
  | .khrVariablePointers => "KhrVariablePointers"
  | .khrShaderAtomicCounterOps => "KhrShaderAtomicCounterOps"
  | .khrPostDepthCoverage => "KhrPostDepthCoverage"
  | .khr8bitStorage => "Khr8bitStorage"
  | .khrFloatControls => "KhrFloatControls"
  | .khrNoIntegerWrapDecoration => "KhrNoIntegerWrapDecoration"
  | .amdShaderTrinaryMinmax => "AmdShaderTrinaryMinmax"

/-- Every extension, in the order in which reports list them. -/
def values : List Extension :=
  [.khrShaderBallot, .khrShaderDrawParameters, .khrSubgroupVote, .khr16bitStorage,
   .khrDeviceGroup, .khrMultiview, .khrVariablePointers, .khrShaderAtomicCounterOps,
   .khrPostDepthCoverage, .khr8bitStorage, .khrFloatControls, .khrNoIntegerWrapDecoration,
   .amdShaderTrinaryMinmax]

instance : Enumerated Extension where
  values := values
  mem_values := fun e => by cases e <;> decide
  nodup_values := by decide

/-- The extension with a given name. -/
def ofName? (name : String) : Option Extension :=
  values.find? (·.name == name)

end Extension

/-- An extended instruction set, imported by `OpExtInstImport`. -/
inductive InstructionSet where
  | openClStd | glslStd450 | amdShaderTrinaryMinmax
deriving DecidableEq, Repr, Inhabited

namespace InstructionSet

/-- The string by which a module imports the instruction set. -/
def name : InstructionSet → String
  | .openClStd => "OpenCL.std"
  | .glslStd450 => "GLSL.std.450"
  | .amdShaderTrinaryMinmax => "SPV_AMD_shader_trinary_minmax"

/-- The word that stands for the instruction set in data records. -/
def tag : InstructionSet → String
  | .openClStd => "OpenClStd"
  | .glslStd450 => "GlslStd450"
  | .amdShaderTrinaryMinmax => "AmdShaderTrinaryMinmax"

/-- Every instruction set, in the order in which reports list them. -/
def values : List InstructionSet := [.openClStd, .glslStd450, .amdShaderTrinaryMinmax]

instance : Enumerated InstructionSet where
  values := values
  mem_values := fun s => by cases s <;> decide
  nodup_values := by decide

/-- The instruction set with a given name. -/
def ofName? (name : String) : Option InstructionSet :=
  values.find? (·.name == name)

/-- The extension without which the instruction set cannot be imported. -/
def requiredExtension : InstructionSet → Option Extension
  | .amdShaderTrinaryMinmax => some .amdShaderTrinaryMinmax
  | _ => none

end InstructionSet

end SpirvLegality
