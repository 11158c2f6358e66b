import SpirvLegality.Instruction
import SpirvLegality.PrerequisiteGraph

/-!
# Requirements

What an instruction asks a module to declare, and the reasons why a target cannot grant it.
-/

namespace SpirvLegality

/-- What one instruction or operand asks a module to declare. -/
inductive Requirement where
  | capability (cap : Capability)
  /-- Any one of some capabilities, the preferred ones first. -/
  | anyOf (candidates : List Capability)
  | extension (ext : Extension)
  | nothing
deriving DecidableEq, Repr

namespace Requirement

/-- The requirement of one of some capabilities: nothing when there are none, and the capability
itself when there is one. -/
def oneOf : List Capability → Requirement
  | [] => .nothing
  | [cap] => .capability cap
  | candidates => .anyOf candidates

/-- Whether nothing is required. -/
def isNothing : Requirement → Bool
  | .nothing => true
  | _ => false

/-- The wording of a requirement. -/
def text : Requirement → String
  | .capability cap => "capability " ++ cap.name
  | .anyOf candidates => "one of " ++ " | ".intercalate (candidates.map Capability.name)
  | .extension ext => "extension " ++ ext.name
  | .nothing => "nothing"

end Requirement

/-- Why a target cannot grant what an instruction asks for. -/
inductive RequirementError where
  | unsatisfiable (candidates : List Capability)
  | versionTooLow (subject : String) (required target : Version)
  | versionTooHigh (subject : String) (last target : Version)
  | missingOperand (opcode : Opcode) (index : Nat)
  | undefinedValue (id : ValueId)
  | unsupportedInstruction (opcode : Opcode) (reason : String)
  | instructionSetUnavailable (name : String)
  | graph (cause : GraphError)
deriving DecidableEq, Repr

/-- The wording of a requirement error. -/
def RequirementError.message : RequirementError → String
  | .unsatisfiable candidates =>
    "none of the capabilities [" ++ ", ".intercalate (candidates.map Capability.name) ++
      "] is available on this target"
  | .versionTooLow subject required target =>
    subject ++ " requires SPIR-V " ++ required.text ++ " but the target is SPIR-V " ++
      target.text ++ ", and no enabling extension is available"
  | .versionTooHigh subject last target =>
    subject ++ " is not allowed after SPIR-V " ++ last.text ++ ", the target is SPIR-V " ++
      target.text
  | .missingOperand opcode index => opcode.mnemonic ++ " is missing operand " ++ toString index
  | .undefinedValue id => "value " ++ id.text ++ " has no defining instruction"
  | .unsupportedInstruction opcode reason =>
    opcode.mnemonic ++ " is not supported on this target: " ++ reason
  | .instructionSetUnavailable name =>
    "extended instruction set '" ++ name ++ "' is not available on this target"
  | .graph cause => cause.message

end SpirvLegality
