import SpirvLegality.CommandLine.Arguments
import SpirvLegality.CommandLine.Files
import SpirvLegality.Listing.Reader
import SpirvLegality.Module.Outline
import SpirvLegality.Module.Record
import SpirvLegality.Report.Resolution
import SpirvLegality.Report.Target
import SpirvLegality.Resolution
import SpirvLegality.Target.Feature
import SpirvLegality.Target.Triple

/-!
# Running commands

A command reads its file, then the listing, then the description of the target, and prints a report.
The first of these that fails ends it: nothing is printed then but the failure, with its causes from
the outermost to the innermost. Files are given as a function, so that a command is a plain function
of the command line and the files.
-/

namespace SpirvLegality.CommandLine

/-- Why a command fails, and what caused that. -/
structure Failure where
  message : String
  causes : List String := []
deriving DecidableEq, Repr

namespace Failure

/-- A cause behind its label, with its further lines aligned. -/
def causeText (label blanks cause : String) : String :=
  label ++ ("\n" ++ blanks).intercalate
    ((cause.toList.splitOn '\n').map String.ofList)

/-- A number aligned to the right in five columns. -/
def numberLabel (n : Nat) : String :=
  let digits := toString n
  String.ofList (List.replicate (5 - digits.length) ' ') ++ digits ++ ": "

/-- The lines of the causes; several causes are numbered. -/
def causeLines : List String → List String
  | [] => []
  | [cause] => [causeText "    " "    " cause]
  | causes => causes.zipIdx.map fun (cause, i) => causeText (numberLabel i) "       " cause

/-- The report of a failure. -/
def text (f : Failure) : String :=
  let causes := if f.causes.isEmpty then [] else "" :: "Caused by:" :: causeLines f.causes
  "\n".intercalate (("Error: " ++ f.message) :: causes) ++ "\n"

/-- The failure on a target description, under the words that introduce it. -/
def ofTarget (message : String) (e : TargetError) : Failure where
  message := message
  causes :=
    match e with
    | .badVersion _ cause => [e.message, cause.message]
    | _ => [e.message]

/-- The failure on a file that cannot be read. -/
def ofFile (path : String) (e : FileError) : Failure where
  message := "failed to read '" ++ path ++ "'"
  causes := [e.message]

/-- The failure on a listing. -/
def ofListing (e : Listing.ReadError) : Failure := { message := e.message }

/-- The failure on an instruction that the target cannot grant. -/
def ofResolution (e : ResolutionError) : Failure where
  message := e.message
  causes := [e.cause.message]

end Failure

/-- The greatest size of a source file, in bytes. -/
def sizeLimit : Nat := 1000000

/-- The text of a file. -/
def loadSource (files : Files) (path : String) : Except Failure String :=
  match files path with
  | .error e => .error (.ofFile path e)
  | .ok bytes =>
    match String.fromUTF8? bytes with
    | none => .error (.ofFile path .notText)
    | some source =>
      if source.utf8ByteSize > sizeLimit then
        .error ⟨"source file exceeds 1MB limit (" ++ toString source.utf8ByteSize ++ " bytes)", []⟩
      else .ok source

/-- The module of a file. -/
def loadModule (files : Files) (path : String) : Except Failure Module := do
  let source ← loadSource files path
  match Module.parse source with
  | .ok m => return m
  | .error e => throw (.ofListing e)

namespace TargetOptions

/-- The target that the options describe. -/
def target (options : TargetOptions) : Except Failure Target := do
  let base ←
    match options.triple with
    | none => pure Target.standard
    | some triple =>
      match Target.ofTriple triple with
      | .ok target => pure target
      | .error e => throw (.ofTarget ("invalid target triple '" ++ triple ++ "'") e)
  match options.features with
  | none => return base
  | some features =>
    match base.withFeatures features with
    | .ok target => return target
    | .error e => throw (.ofTarget ("invalid feature string '" ++ features ++ "'") e)

/-- The environment that the options describe. -/
def environment (options : TargetOptions) : Except Failure Environment :=
  options.target.map fun target => .ofTarget target

end TargetOptions

/-- A text or a record, by the form that is asked for. -/
def Format.print (format : Format) (text : String) (record : Json) : String :=
  match format with
  | .pretty => text
  | .json => record.text

/-- The report on what a module has to declare. -/
def resolutionReport (m : Module) (env : Environment) (perUnit : Bool) :
    Except Failure ResolutionReport :=
  match m.resolveUnits env with
  | .error e => .error (.ofResolution e)
  | .ok units =>
    .ok (.of (Declarations.mergeAll units) ((m.units.map (·.name)).zip units) perUnit)

/-- What a command prints. -/
def Command.run (files : Files) : Command → Except Failure String
  | .resolve file target format perUnit => do
    let m ← loadModule files file
    let env ← target.environment
    let report ← resolutionReport m env perUnit
    return format.print report.text report.record
  | .env target format => do
    let env ← target.environment
    return format.print env.reportText env.record
  | .parse file format => do
    let m ← loadModule files file
    return format.print (m.outline.text "    ") m.record

/-- What comes of a command line: the exit code and what is written to the two streams. -/
structure Outcome where
  code : UInt32
  output : String := ""
  errors : String := ""
deriving DecidableEq, Repr

/-- The hint for a command line that is not understood. -/
def usage : String :=
  "usage: spirv-legality [--verbose] (resolve FILE | env | parse FILE) [OPTIONS]\n"

/-- What comes of an invocation; none stands for a command line that is not understood. -/
def Invocation.run (files : Files) : Option Invocation → Outcome
  | none => { code := 2, errors := usage }
  | some invocation =>
    match invocation.command.run files with
    | .ok output => { code := 0, output }
    | .error failure => { code := 1, errors := failure.text }

/-- What comes of a command line. -/
def run (files : Files) (arguments : List String) : Outcome :=
  Invocation.run files (Invocation.parse? arguments)

end SpirvLegality.CommandLine
