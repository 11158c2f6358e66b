/-!
# Command-line arguments

The command line names a command and its options. An option with a value is written `--name value`
or `--name=value`; a value that is an argument of its own may not look like an option. Each option
stands at most once, and behind `--` every argument is a file. The switch for a verbose log may
stand before the command and behind it.
-/

namespace SpirvLegality.CommandLine

/-- The form of a printed result. -/
inductive Format where
  | pretty | json
deriving DecidableEq, Repr

/-- The form with a given name. -/
def Format.ofName? : String → Option Format
  | "pretty" => some .pretty
  | "json" => some .json
  | _ => none

/-- The description of a target, as far as it is given. -/
structure TargetOptions where
  triple : Option String := none
  features : Option String := none
deriving DecidableEq, Repr

/-- What the user asks for. -/
inductive Command where
  /-- The declarations that a listing needs. -/
  | resolve (file : String) (target : TargetOptions) (format : Format) (perUnit : Bool)
  /-- What a target can use. -/
  | env (target : TargetOptions) (format : Format)
  /-- The instructions of a listing. -/
  | parse (file : String) (format : Format)
deriving DecidableEq, Repr

/-- A command, and whether a verbose log is asked for. -/
structure Invocation where
  command : Command
  verbose : Bool
deriving DecidableEq, Repr

/-- The options that a command knows: those without a value and those with one. -/
structure OptionNames where
  switches : List String
  valued : List String

/-- What one argument is by its form. -/
inductive Argument where
  /-- Two hyphens, behind which every argument is a file. -/
  | separator
  /-- An option with its long name, and the value that an equals sign joins to it. -/
  | long (name : String) (value : Option String)
  /-- Letters behind a hyphen, each of which stands for an option. -/
  | letters (text : List Char)
  /-- Anything else, also a single hyphen. -/
  | plain (text : String)
deriving DecidableEq, Repr

/-- What an argument is by its form. -/
def Argument.of (text : String) : Argument :=
  match text.toList with
  | ['-', '-'] => .separator
  | '-' :: '-' :: rest =>
    match rest.span (· != '=') with
    | (name, '=' :: value) => .long (String.ofList name) (some (String.ofList value))
    | (name, _) => .long (String.ofList name) none
  | '-' :: c :: rest => .letters (c :: rest)
  | _ => .plain text

/-- The arguments of a command, sorted by kind. -/
structure Arguments where
  switches : List String := []
  values : List (String × String) := []
  files : List String := []
deriving DecidableEq, Repr

namespace Arguments

/-- The arguments with one more switch, unless it is unknown or stands already. -/
def addSwitch (args : Arguments) (names : OptionNames) (name : String) : Option Arguments :=
  if name ∈ names.switches ∧ name ∉ args.switches then
    some { args with switches := name :: args.switches }
  else none

/-- The arguments with one more value, unless the option is unknown or has a value already. -/
def addValue (args : Arguments) (names : OptionNames) (name value : String) : Option Arguments :=
  if name ∈ names.valued ∧ (args.values.lookup name).isNone then
    some { args with values := (name, value) :: args.values }
  else none

/-- The arguments with the options that some letters stand for. -/
def addLetters (args : Arguments) (names : OptionNames) : List Char → Option Arguments
  | [] => some args
  | c :: rest =>
    if c = 'v' then
      match args.addSwitch names "verbose" with
      | some args => args.addLetters names rest
      | none => none
    else none

/-- Sorts the arguments that follow a command. -/
def read (names : OptionNames) (args : Arguments) : List String → Option Arguments
  | [] => some args
  | text :: rest =>
    match Argument.of text with
    | .separator => some { args with files := args.files ++ rest }
    | .plain file => read names { args with files := args.files ++ [file] } rest
    | .letters letters =>
      match args.addLetters names letters with
      | some args => read names args rest
      | none => none
    | .long name (some value) =>
      match args.addValue names name value with
      | some args => read names args rest
      | none => none
    | .long name none =>
      if name ∈ names.valued then
        match rest with
        | [] => none
        | next :: rest =>
          match Argument.of next with
          | .plain value =>
            match args.addValue names name value with
            | some args => read names args rest
            | none => none
          | _ => none
      else
        match args.addSwitch names name with
        | some args => read names args rest
        | none => none

/-- The form of output that the arguments ask for. -/
def format (args : Arguments) : Option Format :=
  match args.values.lookup "format" with
  | some name => Format.ofName? name
  | none => some .pretty

/-- The target that the arguments describe. -/
def target (args : Arguments) : TargetOptions where
  triple := args.values.lookup "triple"
  features := args.values.lookup "features"

end Arguments

/-- The options of each command, by its name. -/
def OptionNames.ofCommand? : String → Option OptionNames
  | "resolve" => some ⟨["verbose", "per-unit"], ["triple", "features", "format"]⟩
  | "env" => some ⟨["verbose"], ["triple", "features", "format"]⟩
  | "parse" => some ⟨["verbose"], ["format"]⟩
  | _ => none

/-- The command with a given name and arguments; it takes one file or none. -/
def Command.of? (name : String) (args : Arguments) : Option Command := do
  let format ← args.format
  match name, args.files with
  | "resolve", [file] => return .resolve file args.target format ("per-unit" ∈ args.switches)
  | "env", [] => return .env args.target format
  | "parse", [file] => return .parse file format
  | _, _ => none

/-- Reads the command line from the command on. -/
def Invocation.ofCommand? (verbose : Bool) (name : String) (rest : List String) :
    Option Invocation := do
  let names ← OptionNames.ofCommand? name
  let args ← Arguments.read names {} rest
  let command ← Command.of? name args
  return ⟨command, verbose || "verbose" ∈ args.switches⟩

/-- Reads a command line. -/
def Invocation.parse? : List String → Option Invocation
  | [] => none
  | text :: rest =>
    match Argument.of text with
    | .plain name => ofCommand? false name rest
    | .letters ['v'] | .long "verbose" none =>
      match rest with
      | name :: rest =>
        match Argument.of name with
        | .plain name => ofCommand? true name rest
        | _ => none
      | [] => none
    | _ => none

end SpirvLegality.CommandLine
