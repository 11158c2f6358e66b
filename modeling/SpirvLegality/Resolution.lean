import SpirvLegality.Collector
import SpirvLegality.Module
import SpirvLegality.Rule.Derivation

/-!
# Resolving modules

What a module has to declare on a target. The requirements of each instruction are expanded by the
prerequisites of the required capabilities and collected unit by unit; the declarations of the
units are merged in order. The first instruction that the target cannot grant ends its unit, and the
first unit that fails decides the error.
-/

namespace SpirvLegality

namespace Requirement

/-- A requirement after the prerequisites of the capability that it names. -/
def expand (g : PrerequisiteGraph) : Requirement → Except GraphError (List Requirement)
  | .capability cap => (g.order cap).map fun caps => caps.map .capability
  | req => .ok [req]

/-- Some requirements, each after the prerequisites of the capability that it names. -/
def expandAll (g : PrerequisiteGraph) : List Requirement → Except GraphError (List Requirement)
  | [] => .ok []
  | req :: rest =>
    match req.expand g with
    | .error e => .error e
    | .ok first =>
      match expandAll g rest with
      | .error e => .error e
      | .ok others => .ok (first ++ others)

end Requirement

/-- A requirement that cannot be granted, with the instruction that has it. -/
structure ResolutionError where
  unit : String
  index : Nat
  opcode : Opcode
  cause : RequirementError
deriving DecidableEq, Repr

/-- The wording of a resolution error, without its cause. -/
def ResolutionError.message (e : ResolutionError) : String :=
  e.unit ++ ": instruction " ++ toString e.index ++ " (" ++ e.opcode.mnemonic ++
    ") cannot be legalized"

namespace Instruction

/-- The requirements of an instruction, with the prerequisites of the required capabilities. -/
def expandedRequirements (inst : Instruction) (env : Environment) (defs : Definitions) :
    Except RequirementError (List Requirement) :=
  match inst.requirements env defs with
  | .error e => .error e
  | .ok direct =>
    match Requirement.expandAll env.graph direct with
    | .error e => .error (.graph e)
    | .ok all => .ok all

/-- Adds the requirements of an instruction to a collector. -/
def collect (inst : Instruction) (env : Environment) (defs : Definitions) (c : Collector) :
    Except RequirementError Collector :=
  match inst.expandedRequirements env defs with
  | .error e => .error e
  | .ok reqs => c.addAll env reqs

end Instruction

namespace CodeUnit

/-- Adds the requirements of some instructions to a collector; `index` is the position of the first
of them in the unit called `name`. -/
def collectFrom (env : Environment) (defs : Definitions) (name : String) (index : Nat)
    (c : Collector) : List Instruction → Except ResolutionError Collector
  | [] => .ok c
  | inst :: rest =>
    match inst.collect env defs c with
    | .error cause => .error ⟨name, index, inst.opcode, cause⟩
    | .ok c => collectFrom env defs name (index + 1) c rest

/-- What a unit has to declare. -/
def resolve (unit : CodeUnit) (env : Environment) (defs : Definitions) :
    Except ResolutionError Declarations :=
  match collectFrom env defs unit.name 0 .empty unit.instructions with
  | .error e => .error e
  | .ok c => .ok (c.finish env)

/-- What each of some units has to declare, or the error of the first that fails. -/
def resolveAll (env : Environment) (defs : Definitions) :
    List CodeUnit → Except ResolutionError (List Declarations)
  | [] => .ok []
  | unit :: rest => do
    let first ← unit.resolve env defs
    let others ← resolveAll env defs rest
    return first :: others

end CodeUnit

namespace Module

/-- What each unit of a module has to declare. -/
def resolveUnits (m : Module) (env : Environment) : Except ResolutionError (List Declarations) :=
  let index := m.index
  CodeUnit.resolveAll env index.find? m.units

/-- What a module has to declare. -/
def resolve (m : Module) (env : Environment) : Except ResolutionError Declarations :=
  (m.resolveUnits env).map Declarations.mergeAll

end Module

end SpirvLegality
