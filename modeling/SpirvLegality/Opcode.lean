import SpirvLegality.Enumerated

/-!
# Opcodes

The instructions that a listing may contain, each with its code and its assembly name. Names are
written with the letters `Op` before them; a listing may leave those two letters out.
-/

namespace SpirvLegality

/-- The operation of an instruction. -/
inductive Opcode where
  | nop | undef | sourceContinued | source | sourceExtension | name | memberName | string | line
  | extension | extInstImport | extInst | memoryModel | entryPoint | executionMode | capability
  | typeVoid | typeBool | typeInt | typeFloat | typeVector | typeMatrix | typeImage | typeSampler
  | typeSampledImage | typeArray | typeRuntimeArray | typeStruct | typeOpaque | typePointer
  | typeFunction | typeEvent | typeDeviceEvent | typeReserveId | typeQueue | typePipe
  | typeForwardPointer | constantTrue | constantFalse | constant | constantComposite
  | constantSampler | constantNull | function | functionParameter | functionEnd | functionCall
  | variableDecl | load | store | accessChain | inBoundsAccessChain | ptrAccessChain
  | inBoundsPtrAccessChain | decorate | memberDecorate | iAdd | fAdd | iSub | iMul | select
  | iEqual | phi | loopMerge | selectionMerge | label | branch | branchConditional | returnVoid
  | returnValue | unreachable | executionModeId | decorateId | ptrEqual | ptrNotEqual
  | decorateString | memberDecorateString
deriving DecidableEq, Repr, Inhabited

namespace Opcode

/-- The code of an opcode in a binary module. -/
def code : Opcode → UInt16
  | .nop => 0
  | .undef => 1
  | .sourceContinued => 2
  | .source => 3
  | .sourceExtension => 4
  | .name => 5
  | .memberName => 6
  | .string => 7
  | .line => 8
  | .extension => 10
  | .extInstImport => 11
  | .extInst => 12
  | .memoryModel => 14
  | .entryPoint => 15
  | .executionMode => 16
  | .capability => 17
  | .typeVoid => 19
  | .typeBool => 20
  | .typeInt => 21
  | .typeFloat => 22
  | .typeVector => 23
  | .typeMatrix => 24
  | .typeImage => 25
  | .typeSampler => 26
  | .typeSampledImage => 27
  | .typeArray => 28
  | .typeRuntimeArray => 29
  | .typeStruct => 30
  | .typeOpaque => 31
  | .typePointer => 32
  | .typeFunction => 33
  | .typeEvent => 34
  | .typeDeviceEvent => 35
  | .typeReserveId => 36
  | .typeQueue => 37
  | .typePipe => 38
  | .typeForwardPointer => 39
  | .constantTrue => 41
  | .constantFalse => 42
  | .constant => 43
  | .constantComposite => 44
  | .constantSampler => 45
  | .constantNull => 46
  | .function => 54
  | .functionParameter => 55
  | .functionEnd => 56
  | .functionCall => 57
  | .variableDecl => 59
  | .load => 61
  | .store => 62
  | .accessChain => 65
  | .inBoundsAccessChain => 66
  | .ptrAccessChain => 67
  | .inBoundsPtrAccessChain => 70
  | .decorate => 71
  | .memberDecorate => 72
  | .iAdd => 128
  | .fAdd => 129
  | .iSub => 130
  | .iMul => 132
  | .select => 169
  | .iEqual => 170
  | .phi => 245
  | .loopMerge => 246
  | .selectionMerge => 247
  | .label => 248
  | .branch => 249
  | .branchConditional => 250
  | .returnVoid => 253
  | .returnValue => 254
  | .unreachable => 255
  | .executionModeId => 331
  | .decorateId => 332
  | .ptrEqual => 401
  | .ptrNotEqual => 402
  | .decorateString => 5632
  | .memberDecorateString => 5633

/-- The assembly name without the letters `Op`. -/
def bareName : Opcode → String
  | .nop => "Nop"
  | .undef => "Undef"
  | .sourceContinued => "SourceContinued"
  | .source => "Source"
  | .sourceExtension => "SourceExtension"
  | .name => "Name"
  | .memberName => "MemberName"
  | .string => "String"
  | .line => "Line"
  | .extension => "Extension"
  | .extInstImport => "ExtInstImport"
  | .extInst => "ExtInst"
  | .memoryModel => "MemoryModel"
  | .entryPoint => "EntryPoint"
  | .executionMode => "ExecutionMode"
  | .capability => "Capability"
  | .typeVoid => "TypeVoid"
  | .typeBool => "TypeBool"
  | .typeInt => "TypeInt"
  | .typeFloat => "TypeFloat"
  | .typeVector => "TypeVector"
  | .typeMatrix => "TypeMatrix"
  | .typeImage => "TypeImage"
  | .typeSampler => "TypeSampler"
  | .typeSampledImage => "TypeSampledImage"
  | .typeArray => "TypeArray"
  | .typeRuntimeArray => "TypeRuntimeArray"
  | .typeStruct => "TypeStruct"
  | .typeOpaque => "TypeOpaque"
  | .typePointer => "TypePointer"
  | .typeFunction => "TypeFunction"
  | .typeEvent => "TypeEvent"
  | .typeDeviceEvent => "TypeDeviceEvent"
  | .typeReserveId => "TypeReserveId"
  | .typeQueue => "TypeQueue"
  | .typePipe => "TypePipe"
  | .typeForwardPointer => "TypeForwardPointer"
  | .constantTrue => "ConstantTrue"
  | .constantFalse => "ConstantFalse"
  | .constant => "Constant"
  | .constantComposite => "ConstantComposite"
  | .constantSampler => "ConstantSampler"
  | .constantNull => "ConstantNull"
  | .function => "Function"
  | .functionParameter => "FunctionParameter"
  | .functionEnd => "FunctionEnd"
  | .functionCall => "FunctionCall"
  | .variableDecl => "Variable"
  | .load => "Load"
  | .store => "Store"
  | .accessChain => "AccessChain"
  | .inBoundsAccessChain => "InBoundsAccessChain"
  | .ptrAccessChain => "PtrAccessChain"
  | .inBoundsPtrAccessChain => "InBoundsPtrAccessChain"
  | .decorate => "Decorate"
  | .memberDecorate => "MemberDecorate"
  | .iAdd => "IAdd"
  | .fAdd => "FAdd"
  | .iSub => "ISub"
  | .iMul => "IMul"
  | .select => "Select"
  | .iEqual => "IEqual"
  | .phi => "Phi"
  | .loopMerge => "LoopMerge"
  | .selectionMerge => "SelectionMerge"
  | .label => "Label"
  | .branch => "Branch"
  | .branchConditional => "BranchConditional"
  | .returnVoid => "Return"
  | .returnValue => "ReturnValue"
  | .unreachable => "Unreachable"
  | .executionModeId => "ExecutionModeId"
  | .decorateId => "DecorateId"
  | .ptrEqual => "PtrEqual"
  | .ptrNotEqual => "PtrNotEqual"
  | .decorateString => "DecorateString"
  | .memberDecorateString => "MemberDecorateString"

/-- The assembly name. -/
def mnemonic (op : Opcode) : String := "Op" ++ op.bareName

/-- Every opcode, by code. -/
def values : List Opcode :=
  [.nop, .undef, .sourceContinued, .source, .sourceExtension, .name, .memberName, .string, .line,
   .extension, .extInstImport, .extInst, .memoryModel, .entryPoint, .executionMode, .capability,
   .typeVoid, .typeBool, .typeInt, .typeFloat, .typeVector, .typeMatrix, .typeImage, .typeSampler,
   .typeSampledImage, .typeArray, .typeRuntimeArray, .typeStruct, .typeOpaque, .typePointer,
   .typeFunction, .typeEvent, .typeDeviceEvent, .typeReserveId, .typeQueue, .typePipe,
   .typeForwardPointer, .constantTrue, .constantFalse, .constant, .constantComposite,
   .constantSampler, .constantNull, .function, .functionParameter, .functionEnd, .functionCall,
   .variableDecl, .load, .store, .accessChain, .inBoundsAccessChain, .ptrAccessChain,
   .inBoundsPtrAccessChain, .decorate, .memberDecorate, .iAdd, .fAdd, .iSub, .iMul, .select,
   .iEqual, .phi, .loopMerge, .selectionMerge, .label, .branch, .branchConditional, .returnVoid,
   .returnValue, .unreachable, .executionModeId, .decorateId, .ptrEqual, .ptrNotEqual,
   .decorateString, .memberDecorateString]

theorem mem_values (op : Opcode) : op ∈ values := by
  cases op <;> decide

/-- The codes increase along the list. -/
theorem values_increasing : values.Pairwise fun a b => a.code < b.code := by
  decide +kernel

theorem nodup_values : values.Nodup :=
  values_increasing.imp fun h heq => by simp [heq] at h

instance : Enumerated Opcode where
  values := values
  mem_values := mem_values
  nodup_values := nodup_values

/-- The opcode with a given code. -/
def ofCode? (code : UInt16) : Option Opcode :=
  values.find? (·.code == code)

/-- A name without the letters `Op`, if it begins with them. -/
def stripOp (word : String) : String :=
  match word.toList with
  | 'O' :: 'p' :: bare => String.ofList bare
  | _ => word

/-- The opcode that a word names, with or without the letters `Op`. -/
def ofName? (word : String) : Option Opcode :=
  let bare := stripOp word
  values.find? (·.bareName == bare)

end Opcode

end SpirvLegality
