import SpirvLegality.Family
import SpirvLegality.Opcode

/-!
# Rules

A rule says how the requirements of one opcode are derived from the operands of an instruction.
`Rule.of` gives the rule of each opcode; most opcodes need nothing. Operand positions count the
result and the result type, where an instruction has them.
-/

namespace SpirvLegality

/-- How the requirements of an opcode are derived. -/
inductive Rule where
  | nothing
  | always (cap : Capability)
  /-- Each of these operands is looked up in its family. -/
  | operands (positions : List (Nat × Family))
  /-- The word at a position selects a capability; other words need nothing. -/
  | keyed (position : Nat) (cases : List (UInt32 × Capability))
  /-- A decoration, followed by a built-in variable where the decoration says so. -/
  | decoration (position : Nat)
  | image
  | sampler
  | forwardPointer
  /-- Under logical addressing, an instruction whose result is a pointer needs variable pointers. -/
  | variablePointer
  | pointerComparison
  | instructionSetImport
deriving DecidableEq, Repr

namespace Rule

/-- The rule of an opcode. -/
def of : Opcode → Rule
  | .memoryModel => .operands [(0, .addressingModel), (1, .memoryModel)]
  | .entryPoint => .operands [(0, .executionModel)]
  | .executionMode | .executionModeId => .operands [(1, .executionMode)]
  | .typeMatrix => .always .matrix
  | .typeInt => .keyed 1 [(64, .int64), (16, .int16), (8, .int8)]
  | .typeFloat => .keyed 1 [(64, .float64), (16, .float16)]
  | .typeVector => .keyed 2 [(8, .vector16), (16, .vector16)]
  | .typePointer => .operands [(1, .storageClass)]
  | .typeRuntimeArray => .always .shader
  | .typeOpaque | .typeEvent => .always .kernel
  | .typePipe | .typeReserveId => .always .pipes
  | .typeDeviceEvent | .typeQueue => .always .deviceEnqueue
  | .decorate | .decorateId | .decorateString => .decoration 1
  | .memberDecorate | .memberDecorateString => .decoration 2
  | .inBoundsPtrAccessChain => .always .addresses
  | .constantSampler => .always .literalSampler
  | .typeImage => .image
  | .typeSampler => .sampler
  | .typeForwardPointer => .forwardPointer
  | .select | .phi | .functionCall | .ptrAccessChain | .load | .constantNull => .variablePointer
  | .ptrEqual | .ptrNotEqual => .pointerComparison
  | .extInstImport => .instructionSetImport
  | _ => .nothing

end Rule

end SpirvLegality
