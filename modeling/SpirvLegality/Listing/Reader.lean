import SpirvLegality.Listing.Lexer
import SpirvLegality.Listing.NameTable
import SpirvLegality.Module

/-!
# Reading a listing

A listing holds one instruction on a line: possibly a name and an equals sign, then an opcode, then
its operands. The instructions from `OpFunction` to `OpFunctionEnd` form a unit of their own, and
those outside functions form the first unit. Lines are read in order, and the first line that is
malformed decides the error.
-/

namespace SpirvLegality

namespace Listing

/-- Why a text is no listing. -/
inductive ReadError where
  | missingEquals (line : Nat) (name : String) (found : TokenKind)
  | redefined (line : Nat) (name : String)
  | unknownOpcode (line : Nat) (word : String)
  | missingOpcode (line : Nat) (found : TokenKind)
  | malformedOperand (line : Nat) (error : LexicalError)
  | unexpectedOperand (line : Nat) (found : TokenKind)
  | nestedFunction (line : Nat) (name : String) (openedAt : Nat)
  | strayFunctionEnd (line : Nat)
  | unclosedFunction (name : String) (openedAt : Nat)
deriving DecidableEq, Repr

/-- The wording of a reading error. -/
def ReadError.message : ReadError → String
  | .missingEquals line name found =>
    "line " ++ toString line ++ ": expected '=' after %" ++ name ++ ", found " ++ found.text
  | .redefined line name =>
    "line " ++ toString line ++ ": %" ++ name ++ " is defined more than once"
  | .unknownOpcode line word => "line " ++ toString line ++ ": unknown opcode '" ++ word ++ "'"
  | .missingOpcode line found =>
    "line " ++ toString line ++ ": expected opcode, found " ++ found.text
  | .malformedOperand line error => "line " ++ toString line ++ ": " ++ error.message
  | .unexpectedOperand line found =>
    "line " ++ toString line ++ ": unexpected operand " ++ found.text
  | .nestedFunction line name openedAt =>
    "line " ++ toString line ++ ": OpFunction inside function '" ++ name ++ "' opened at line " ++
      toString openedAt
  | .strayFunctionEnd line =>
    "line " ++ toString line ++ ": OpFunctionEnd without OpFunction"
  | .unclosedFunction name openedAt =>
    "function '" ++ name ++ "' opened at line " ++ toString openedAt ++
      " is missing OpFunctionEnd"

/-- A line that is not blank: its first token, the further ones, and the token that ends it. -/
structure Line where
  first : Token
  others : List Token
  terminator : Token
deriving DecidableEq, Repr

/-- Adds the line of some tokens, the last one first, to the lines before it. -/
def closeLine (current : List Token) (terminator : Token) (before : List Line) : List Line :=
  match current.reverse with
  | [] => before
  | first :: others => ⟨first, others, terminator⟩ :: before

/-- Groups tokens into lines. The tokens of the line at hand and the lines before it are kept with
the latest first. -/
def linesFrom (current : List Token) (before : List Line) : List Token → List Line
  | [] => before
  | token :: rest =>
    if token.kind.endsLine then linesFrom [] (closeLine current token before) rest
    else linesFrom (token :: current) before rest

/-- The lines of a list of tokens that are not blank. -/
def lines (tokens : List Token) : List Line := (linesFrom [] [] tokens).reverse

/-- A function that was begun and not yet ended: its name, its line, and its instructions so far,
the latest first. -/
structure OpenFunction where
  name : String
  line : Nat
  instructions : List Instruction
deriving Repr

/-- The units of the lines read so far. Instructions and functions are kept with the latest
first. -/
structure UnitBuilder where
  outside : List Instruction := []
  functions : List CodeUnit := []
  finished : Nat := 0
  opened : Option OpenFunction := none

/-- Reads operands, after those in `before`, which are kept with the latest first. -/
def readOperands (line : Nat) (names : NameTable) (before : List Operand) :
    List Token → Except ReadError (NameTable × List Operand)
  | [] => .ok (names, before.reverse)
  | token :: rest =>
    match token.kind with
    | .id name =>
      let (id, names) := names.intern name
      readOperands line names (.id id :: before) rest
    | .integer value => readOperands line names (.imm value :: before) rest
    | .string text => readOperands line names (.str text :: before) rest
    | .malformed error => .error (.malformedOperand line error)
    | found => .error (.unexpectedOperand line found)

/-- Reads an opcode and its operands. `terminator` stands for the opcode where there is none. -/
def readOperation (line : Nat) (names : NameTable) (terminator : Token) :
    List Token → Except ReadError (NameTable × Opcode × List Operand)
  | [] => .error (.missingOpcode line terminator.kind)
  | token :: rest =>
    match token.kind with
    | .word word =>
      match Opcode.ofName? word with
      | none => .error (.unknownOpcode line word)
      | some opcode =>
        match readOperands line names [] rest with
        | .error e => .error e
        | .ok (names, operands) => .ok (names, opcode, operands)
    | found => .error (.missingOpcode line found)

/-- Reads the name that a line defines, if it defines one, and returns it with the tokens behind
the equals sign. -/
def readResult (names : NameTable) (line : Line) :
    Except ReadError (NameTable × Option ValueId × List Token) :=
  match line.first.kind with
  | .id name =>
    match line.others with
    | [] => .error (.missingEquals line.first.line name line.terminator.kind)
    | token :: rest =>
      if token.kind = .equals then
        match names.define? name with
        | none => .error (.redefined line.first.line name)
        | some (id, names) => .ok (names, some id, rest)
      else .error (.missingEquals line.first.line name token.kind)
  | _ => .ok (names, none, line.first :: line.others)

/-- Puts an instruction into the function at hand or outside the functions. `name` is the name that
its result stands for. -/
def UnitBuilder.place (units : UnitBuilder) (line : Nat) (name : Option String)
    (inst : Instruction) : Except ReadError UnitBuilder :=
  match inst.opcode, units.opened with
  | .function, some f => .error (.nestedFunction line f.name f.line)
  | .function, none =>
    let name := name.getD ("function" ++ toString units.finished)
    .ok { units with opened := some ⟨name, line, [inst]⟩ }
  | .functionEnd, none => .error (.strayFunctionEnd line)
  | .functionEnd, some f =>
    let unit : CodeUnit := ⟨f.name, (inst :: f.instructions).reverse⟩
    .ok { units with
      functions := unit :: units.functions
      finished := units.finished + 1
      opened := none }
  | _, some f =>
    .ok { units with opened := some { f with instructions := inst :: f.instructions } }
  | _, none => .ok { units with outside := inst :: units.outside }

/-- Reads one line: the names that it numbers, its instruction, and the name that the result stands
for. -/
def readLine (names : NameTable) (line : Line) :
    Except ReadError (NameTable × Instruction × Option String) :=
  match readResult names line with
  | .error e => .error e
  | .ok (names, result, rest) =>
    match readOperation line.first.line names line.terminator rest with
    | .error e => .error e
    | .ok (names, opcode, operands) =>
      let span := ⟨line.first.span.start, line.terminator.span.start⟩
      .ok (names, Instruction.of opcode result operands span, result.bind names.nameOf?)

/-- Reads some lines in turn, up to the first error. -/
def readLines (names : NameTable) (units : UnitBuilder) :
    List Line → Except ReadError (NameTable × UnitBuilder)
  | [] => .ok (names, units)
  | line :: rest =>
    match readLine names line with
    | .error e => .error e
    | .ok (names, inst, name) =>
      match units.place line.first.line name inst with
      | .error e => .error e
      | .ok units => readLines names units rest

/-- The name of the unit that holds the instructions outside functions. -/
def outsideName : String := "<module>"

/-- The units that were read, unless a function was not ended. -/
def UnitBuilder.finish (units : UnitBuilder) : Except ReadError (List CodeUnit) :=
  match units.opened with
  | some f => .error (.unclosedFunction f.name f.line)
  | none => .ok (⟨outsideName, units.outside.reverse⟩ :: units.functions.reverse)

end Listing

/-- Reads a listing. -/
def Module.parse (text : String) : Except Listing.ReadError Module :=
  match Listing.readLines {} {} (Listing.lines (Listing.tokens text)) with
  | .error e => .error e
  | .ok (names, units) => units.finish.map fun units => ⟨units, names.toList⟩

end SpirvLegality
