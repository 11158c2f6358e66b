import SpirvLegality.Listing.Reader
import SpirvLegality.Listing.Scanner

/-!
# Reading token by token

A listing can be read without keeping its tokens. A reader knows what it has read of the line at
hand (`Stage`). It asks a scanner for one token and takes it (`Progress.step`), and asks for another
one unless the token was wrong or marked the end (`Progress.run`). The lines and units are those of
`Module.parse`.
-/

namespace SpirvLegality.Listing

/-- What was read of the line at hand. `start` is nothing, `named` a name, `equated` a name and an
equals sign, and `operands` an opcode behind the value that it defines, if it defines one, and some
operands, which are kept with the latest first. `first` is the first token of the line. -/
inductive Stage where
  | start
  | named (first : Token) (name : String)
  | equated (first : Token) (name : String)
  | operands (first : Token) (result : Option ValueId) (opcode : Opcode) (before : List Operand)

/-- What was read of a listing: the names and units of the lines that have ended, and the line at
hand. -/
structure Progress where
  names : NameTable := {}
  units : UnitBuilder := {}
  stage : Stage := .start

namespace Progress

/-- Takes the token where the opcode of a line has to stand. -/
def takeOpcode (p : Progress) (first : Token) (result : Option ValueId) (token : Token) :
    Except ReadError Progress :=
  match token.kind with
  | .word word =>
    match Opcode.ofName? word with
    | none => .error (.unknownOpcode first.line word)
    | some opcode => .ok { p with stage := .operands first result opcode [] }
  | found => .error (.missingOpcode first.line found)

/-- Takes an operand, or the token that ends the line, where the instruction goes into its unit. -/
def takeOperand (p : Progress) (first : Token) (result : Option ValueId) (opcode : Opcode)
    (before : List Operand) (token : Token) : Except ReadError Progress :=
  match token.kind with
  | .newline | .stop =>
    let span := ⟨first.span.start, token.span.start⟩
    let inst := Instruction.of opcode result before.reverse span
    (p.units.place first.line (result.bind p.names.nameOf?) inst).map fun units =>
      { p with units := units, stage := .start }
  | .id name =>
    let (id, names) := p.names.intern name
    .ok { p with names := names, stage := .operands first result opcode (.id id :: before) }
  | .integer value => .ok { p with stage := .operands first result opcode (.imm value :: before) }
  | .string text => .ok { p with stage := .operands first result opcode (.str text :: before) }
  | .malformed error => .error (.malformedOperand first.line error)
  | found => .error (.unexpectedOperand first.line found)

/-- Takes the next token. A name behind which an equals sign stands is defined when the token behind
the sign has come. -/
def step (p : Progress) (token : Token) : Except ReadError Progress :=
  match p.stage with
  | .start =>
    match token.kind with
    | .newline | .stop => .ok p
    | .id name => .ok { p with stage := .named token name }
    | _ => p.takeOpcode token none token
  | .named first name =>
    if token.kind = .equals then .ok { p with stage := .equated first name }
    else .error (.missingEquals first.line name token.kind)
  | .equated first name =>
    match p.names.define? name with
    | none => .error (.redefined first.line name)
    | some (id, names) => { p with names := names }.takeOpcode first (some id) token
  | .operands first result opcode before => p.takeOperand first result opcode before token

/-- The module that was read, unless a function was not ended. -/
def finish (p : Progress) : Except ReadError Module :=
  p.units.finish.map fun units => ⟨units, p.names.toList⟩

/-- Asks for tokens and takes them, up to the first error or the end. There is no result if this
needs more tokens than may be asked for. -/
def run : Nat → Progress → Scanner → Option (Except ReadError Module)
  | 0, _, _ => none
  | n + 1, p, s =>
    match p.step s.next.1 with
    | .error e => some (.error e)
    | .ok p => if s.next.1.kind = .stop then some p.finish else run n p s.next.2

end Progress

end SpirvLegality.Listing
