import SpirvLegality.Environment
import SpirvLegality.Rule

/-!
# Deriving requirements

The direct requirements of an instruction in an environment, by the rule of its opcode.
Prerequisites of the required capabilities are not among them. A rule fails where an operand that
it reads is absent or of another kind, and where the target cannot have what the operand asks for.
-/

namespace SpirvLegality

namespace Family

/-- What an operand of a family requires: one of the capabilities of its row, and the extension
that the row needs on this target. A word without a row requires nothing. -/
def requirements (family : Family) (word : UInt32) (env : Environment) :
    Except RequirementError (List Requirement) :=
  match family.table.get? word with
  | none => .ok []
  | some row =>
    let choice := Requirement.oneOf row.capabilities
    let capabilities := if choice.isNothing then [] else [choice]
    match env.gate row with
    | .error e => .error e
    | .ok none => .ok capabilities
    | .ok (some ext) => .ok (capabilities ++ [.extension ext])

end Family

/-- The dimension of an image, as far as it matters for capabilities. -/
inductive ImageDimension where
  | line | plane | cube | rectangle | buffer | subpass | other
deriving DecidableEq, Repr

/-- The dimension that an operand word stands for. -/
def ImageDimension.ofWord (word : UInt32) : ImageDimension :=
  if word = 0 then .line
  else if word = 1 then .plane
  else if word = 3 then .cube
  else if word = 4 then .rectangle
  else if word = 5 then .buffer
  else if word = 6 then .subpass
  else .other

namespace Instruction

/-- The word at an operand position, which the rule of the instruction needs. -/
def word (inst : Instruction) (position : Nat) : Except RequirementError UInt32 :=
  match inst.imm? position with
  | some word => .ok word
  | none => .error (.missingOperand inst.opcode position)

/-- What the operands at some positions require, in order. -/
def operandRequirements (inst : Instruction) (env : Environment) :
    List (Nat × Family) → Except RequirementError (List Requirement)
  | [] => .ok []
  | (position, family) :: rest => do
    let word ← inst.word position
    let first ← family.requirements word env
    let others ← operandRequirements inst env rest
    return first ++ others

/-- The decoration that marks a variable as built in. -/
def builtInDecoration : UInt32 := 11

/-- What a decoration requires, together with the built-in variable that it names. -/
def decorationRequirements (inst : Instruction) (env : Environment) (position : Nat) :
    Except RequirementError (List Requirement) := do
  let decoration ← inst.word position
  let own ← Family.decoration.requirements decoration env
  if decoration = builtInDecoration then
    let meaning ← inst.word (position + 1)
    let builtIn ← Family.builtIn.requirements meaning env
    return own ++ builtIn
  else
    return own

/-- The operand word of an image that is used without a sampler. -/
def withoutSampler : UInt32 := 2

/-- The operand word of an image that is both read and written. -/
def readWriteAccess : UInt32 := 2

/-- The capabilities that the shape of an image needs. An image used without a sampler needs the
capability for images, another one the capability for sampled images. -/
def imageCapabilities (dimension : ImageDimension) (arrayed multisampled unsampled : Bool) :
    List Capability :=
  match dimension with
  | .line => [if unsampled then .image1D else .sampled1D]
  | .plane => if multisampled && unsampled then [.imageMSArray] else []
  | .cube =>
    if arrayed then [.shader, if unsampled then .imageCubeArray else .sampledCubeArray]
    else [.shader]
  | .rectangle => [if unsampled then .imageRect else .sampledRect]
  | .buffer => [if unsampled then .imageBuffer else .sampledBuffer]
  | .subpass => [.inputAttachment]
  | .other => []

/-- The capabilities that a kernel needs for the access to an image; without an access qualifier
an image is only read. -/
def accessCapabilities (inst : Instruction) (env : Environment) : List Capability :=
  if env.target.isKernel then
    [if inst.imm? 8 = some readWriteAccess then .imageReadWrite else .imageBasic]
  else []

/-- What an image type requires: first for its format, then for its shape, then for the access. Its
operands are the result, the sampled type, the dimension, the depth, whether it is arrayed, whether
it is multisampled, the use of a sampler, the format, and possibly the access. -/
def imageRequirements (inst : Instruction) (env : Environment) :
    Except RequirementError (List Requirement) := do
  if inst.operands.length < 8 then
    throw (.missingOperand inst.opcode inst.operands.length)
  -- The words are read in this order, and the first that is absent is reported.
  let format ← inst.word 7
  let ofFormat ← Family.imageFormat.requirements format env
  let arrayed ← inst.word 4
  let multisampled ← inst.word 5
  let sampled ← inst.word 6
  let dimension ← inst.word 2
  let shape := imageCapabilities (.ofWord dimension) (arrayed == 1) (multisampled == 1)
    (sampled == withoutSampler)
  return ofFormat ++ (shape ++ accessCapabilities inst env).map .capability

/-- What an instruction that may yield a pointer requires. -/
def variablePointerRequirements (inst : Instruction) (env : Environment) (defs : Definitions) :
    Except RequirementError (List Requirement) :=
  if env.target.isLogical then
    match inst.id? 1 with
    | none => .error (.missingOperand inst.opcode 1)
    | some type =>
      match defs type with
      | none => .error (.undefinedValue type)
      | some definition =>
        if definition.opcode = .typePointer then .ok [.capability .variablePointers] else .ok []
  else .ok []

/-- What the import of an instruction set requires. -/
def importRequirements (inst : Instruction) (env : Environment) :
    Except RequirementError (List Requirement) :=
  match inst.str? 1 with
  | none => .error (.missingOperand inst.opcode 1)
  | some name =>
    match InstructionSet.ofName? name with
    | none => .error (.instructionSetUnavailable name)
    | some set =>
      if env.hasInstructionSet set then
        .ok (set.requiredExtension.toList.map .extension)
      else .error (.instructionSetUnavailable name)

/-- The direct requirements of an instruction. -/
def requirements (inst : Instruction) (env : Environment) (defs : Definitions) :
    Except RequirementError (List Requirement) :=
  match Rule.of inst.opcode with
  | .nothing => .ok []
  | .always cap => .ok [.capability cap]
  | .operands positions => inst.operandRequirements env positions
  | .keyed position cases => do
    let word ← inst.word position
    -- A word that the rule does not name requires nothing.
    return ((cases.lookup word).map Requirement.capability).toList
  | .decoration position => inst.decorationRequirements env position
  | .image => inst.imageRequirements env
  | .sampler => .ok (if env.target.isKernel then [.capability .imageBasic] else [])
  | .forwardPointer =>
    .ok [.capability
      (if env.target.isKernel then .addresses else .physicalStorageBufferAddresses)]
  | .variablePointer => inst.variablePointerRequirements env defs
  | .pointerComparison =>
    if env.target.comparesPointers then .ok []
    else .error (.unsupportedInstruction inst.opcode "pointer comparison needs SPIR-V 1.4")
  | .instructionSetImport => inst.importRequirements env

end Instruction

end SpirvLegality
