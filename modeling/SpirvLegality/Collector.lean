import SpirvLegality.Declarations
import SpirvLegality.Environment

/-!
# Collecting requirements

A collector turns a stream of requirements into declarations. Capabilities and extensions are
declared as they come. A choice between capabilities is checked as it comes but made only at the
end, when every plain capability is known: a choice of which one candidate is declared by then needs
nothing more, and of another the first usable candidate is declared. The choices are made in the
order of their candidate lists, so that the order of the stream does not decide between them.

`Collector.add` gives the next collector or an error. Whoever goes on behind an error keeps the
collector that the failed call has left behind: `Collector.offer` runs the steps of a call one after
the other (`Collector.request`).
-/

namespace SpirvLegality

/-- The declarations so far and the choices that are still open, the latest first. -/
structure Collector where
  declared : Declarations := {}
  choices : List (List Capability) := []
deriving DecidableEq, Repr

namespace Collector

/-- The collector that has seen nothing. -/
def empty : Collector := {}

/-- Whether a capability is declared. -/
def declares (c : Collector) (cap : Capability) : Bool := c.declared.capabilities.contains cap

/-- Adds an extension. -/
def addExtension (c : Collector) (ext : Extension) : Collector :=
  { c with declared := c.declared.addExtension ext }

/-- Adds a capability, and the extension that makes it legal if it needs one. -/
def addCapability (env : Environment) (c : Collector) (cap : Capability) :
    Except RequirementError Collector :=
  if c.declares cap then .ok c
  else
    match env.gate cap.row with
    | .error e => .error e
    | .ok ext => .ok { c with declared := c.declared.declare cap ext }

/-- Adds a choice between some capabilities, of which one must be declared already or usable. -/
def addChoice (env : Environment) (c : Collector) (candidates : List Capability) :
    Except RequirementError Collector :=
  if candidates.any c.declares then .ok c
  else if candidates.any fun cap => (env.usable? cap).isSome then
    .ok { c with choices := candidates :: c.choices }
  else .error (.unsatisfiable candidates)

/-- Adds a requirement. -/
def add (env : Environment) (c : Collector) : Requirement → Except RequirementError Collector
  | .capability cap => c.addCapability env cap
  | .anyOf candidates => c.addChoice env candidates
  | .extension ext => .ok (c.addExtension ext)
  | .nothing => .ok c

/-- Adds some requirements in turn, up to the first error. -/
def addAll (env : Environment) (c : Collector) :
    List Requirement → Except RequirementError Collector
  | [] => .ok c
  | req :: rest =>
    match c.add env req with
    | .error e => .error e
    | .ok c => addAll env c rest

/-- A call that changes a collector step by step and may end in an error. What it has changed by
then stays changed. -/
abbrev Call := EStateM RequirementError Collector

/-- Requests an extension. -/
def requestExtension (ext : Extension) : Call Unit := modify (·.addExtension ext)

/-- Requests a capability, and the extension that makes it legal if it needs one. -/
def requestCapability (env : Environment) (cap : Capability) : Call Unit := do
  if (← get).declares cap then return
  let ext ← ofExcept (env.gate cap.row)
  modify fun c => { c with declared := c.declared.addCapability cap }
  if let some ext := ext then requestExtension ext

/-- Requests one of some capabilities, of which one must be declared already or usable. -/
def requestChoice (env : Environment) (candidates : List Capability) : Call Unit := do
  if candidates.any (← get).declares then return
  unless candidates.any (fun cap => (env.usable? cap).isSome) do
    throw (.unsatisfiable candidates)
  modify fun c => { c with choices := candidates :: c.choices }

/-- Requests what a requirement asks for. -/
def request (env : Environment) : Requirement → Call Unit
  | .capability cap => requestCapability env cap
  | .anyOf candidates => requestChoice env candidates
  | .extension ext => requestExtension ext
  | .nothing => return

/-- The collector that a call leaves behind, and its answer. -/
def answered : EStateM.Result RequirementError Collector Unit →
    Collector × Except RequirementError Unit
  | .ok _ c => (c, .ok ())
  | .error e c => (c, .error e)

/-- Requests what a requirement asks for, and reports the error if there is one. -/
def offer (env : Environment) (c : Collector) (req : Requirement) :
    Collector × Except RequirementError Unit :=
  answered ((request env req).run c)

/-- Requests what some requirements ask for in turn, up to the first error, which is reported. -/
def offerAll (env : Environment) (c : Collector) (reqs : List Requirement) :
    Collector × Except RequirementError Unit :=
  answered ((reqs.forM (request env)).run c)

/-- Whether one candidate list stands before another or equals it: the lists are compared entry by
entry by number, and a list stands before its continuations. -/
def precedes : List Capability → List Capability → Bool
  | [], _ => true
  | _ :: _, [] => false
  | c :: rest, d :: others => c.number < d.number || c = d && precedes rest others

/-- Makes one choice: nothing happens if a candidate is declared, and otherwise the first usable
one is declared together with the extension that it needs. -/
def choose (env : Environment) (declared : Declarations) (candidates : List Capability) :
    Declarations :=
  if candidates.any fun cap => declared.capabilities.contains cap then declared
  else
    match env.pick? candidates with
    | some (cap, ext) => declared.declare cap ext
    | none => declared

/-- Makes the open choices, sorted by their candidate lists and each once, and returns the
declarations. -/
def finish (env : Environment) (c : Collector) : Declarations :=
  (c.choices.mergeSort precedes).eraseReps.foldl (choose env) c.declared

end Collector

end SpirvLegality
