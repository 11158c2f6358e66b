import SpirvLegality.Opcode

/-!
# Instructions

One record per instruction of a listing. The operands follow the order of the machine instruction:
the result, when there is one, is operand 0, the result type operand 1, and the instruction's own
operands follow.
-/

namespace SpirvLegality

/-- The identity of a value, the result of some instruction: a word of 32 bits. -/
structure ValueId where
  index : UInt32
deriving DecidableEq, Hashable, Repr, Inhabited

/-- The text of a value's identity. -/
def ValueId.text (id : ValueId) : String := "%" ++ toString id.index.toNat

/-- One operand of an instruction. -/
inductive Operand where
  | id (value : ValueId)
  | imm (word : UInt32)
  | str (text : String)
deriving DecidableEq, Repr

/-- A stretch of a source text, from its first byte up to and without its end. Its offsets are words
of 32 bits. -/
structure Span where
  start : UInt32 := 0
  stop : UInt32 := 0
deriving DecidableEq, Repr, Inhabited

/-- One instruction of a module. -/
structure Instruction where
  opcode : Opcode
  result : Option ValueId := none
  operands : List Operand := []
  span : Span := {}
deriving DecidableEq, Repr

namespace Instruction

/-- The instruction with a given result, which becomes operand 0, and its further operands. -/
def of (opcode : Opcode) (result : Option ValueId) (operands : List Operand) (span : Span := {}) :
    Instruction :=
  match result with
  | some id => { opcode, result, operands := .id id :: operands, span }
  | none => { opcode, result, operands, span }

/-- The word at an operand position. -/
def imm? (inst : Instruction) (index : Nat) : Option UInt32 :=
  match inst.operands[index]? with
  | some (.imm word) => some word
  | _ => none

/-- The value at an operand position. -/
def id? (inst : Instruction) (index : Nat) : Option ValueId :=
  match inst.operands[index]? with
  | some (.id value) => some value
  | _ => none

/-- The text at an operand position. -/
def str? (inst : Instruction) (index : Nat) : Option String :=
  match inst.operands[index]? with
  | some (.str text) => some text
  | _ => none

end Instruction

/-- Finds the instruction that defines a value. -/
abbrev Definitions := ValueId → Option Instruction

/-- The first of some instructions that defines a value. -/
def Definitions.ofList (insts : List Instruction) : Definitions :=
  fun id => insts.find? fun inst => inst.result = some id

end SpirvLegality
