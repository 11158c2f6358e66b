import SpirvLegality.Collector

/-!
# Recording what can be used

A collector can look up what the target can use when a choice comes, and keep the answer with the
choice until the end. `Recorder` does so: it keeps the open choices in the order in which they come,
each with its usable candidates, and `Recorder.finish` asks no environment. What is no choice it
takes like a collector.
-/

namespace SpirvLegality

/-- Those of some capabilities that can be used, each with the extension that it needs. -/
def Environment.usables (env : Environment) (candidates : List Capability) :
    List (Capability × Option Extension) :=
  candidates.filterMap fun cap => (env.usable? cap).map fun ext => (cap, ext)

/-- An open choice with those of its candidates that could be used when it came. -/
structure OpenChoice where
  candidates : List Capability
  usable : List (Capability × Option Extension)

/-- The declarations so far and the choices that are still open, the latest last. -/
structure Recorder where
  declared : Declarations := {}
  choices : List OpenChoice := []

namespace Recorder

/-- The recorder that has seen nothing. -/
def empty : Recorder := {}

/-- Records a choice together with its usable candidates, unless one candidate is declared; there
must be a usable one. -/
def addChoice (env : Environment) (r : Recorder) (candidates : List Capability) :
    Except RequirementError Recorder :=
  if candidates.any fun cap => r.declared.capabilities.contains cap then .ok r
  else if (env.usables candidates).isEmpty then .error (.unsatisfiable candidates)
  else .ok { r with choices := r.choices ++ [⟨candidates, env.usables candidates⟩] }

/-- Adds a requirement. -/
def add (env : Environment) (r : Recorder) : Requirement → Except RequirementError Recorder
  | .anyOf candidates => r.addChoice env candidates
  | req => (Collector.add env ⟨r.declared, []⟩ req).map fun c => { r with declared := c.declared }

/-- Adds some requirements in turn, up to the first error. -/
def addAll (env : Environment) (r : Recorder) :
    List Requirement → Except RequirementError Recorder
  | [] => .ok r
  | req :: rest =>
    match r.add env req with
    | .error e => .error e
    | .ok r => addAll env r rest

/-- Makes one choice: nothing happens if a candidate is declared, and otherwise the first of the
recorded candidates is declared together with the extension that it needs. -/
def choose (declared : Declarations) (choice : OpenChoice) : Declarations :=
  if choice.candidates.any fun cap => declared.capabilities.contains cap then declared
  else
    match choice.usable.head? with
    | some (cap, ext) => declared.declare cap ext
    | none => declared

/-- Makes the open choices, sorted by their candidate lists and each once, and returns the
declarations. -/
def finish (r : Recorder) : Declarations :=
  let sorted := r.choices.mergeSort fun a b => Collector.precedes a.candidates b.candidates
  (sorted.eraseRepsBy fun a b => a.candidates == b.candidates).foldl choose r.declared

end Recorder

end SpirvLegality
