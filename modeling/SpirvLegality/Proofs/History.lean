import SpirvLegality.Environment

/-!
# Changing an environment after it was built

`Environment.Change` is one call that changes the capabilities of an environment after it was built,
and `Environment.applyAll` a sequence of such calls. They reach nothing but the state of the
capabilities: target, graph, extensions and instruction sets stay as they were built.
-/

namespace SpirvLegality.Environment

/-- One change of the capabilities of an environment. -/
inductive Change where
  | enable (cap : Capability)
  | setFlag (cap : Capability) (on : Bool)
  | synchronize
deriving DecidableEq, Repr

/-- The environment after one change. -/
def apply (env : Environment) : Change → Environment
  | .enable cap => env.enable cap
  | .setFlag cap on => env.setFlag cap on
  | .synchronize => env.synchronize

/-- The environment after some changes in turn. -/
def applyAll (env : Environment) (changes : List Change) : Environment :=
  changes.foldl apply env

variable {env : Environment}

/-- What no change touches, a sequence of changes leaves as it was. -/
theorem applyAll_frame {α : Type} {f : Environment → α}
    (hf : ∀ env change, f (apply env change) = f env) (changes : List Change) :
    f (env.applyAll changes) = f env :=
  List.foldlRecOn (motive := fun next => f next = f env) changes apply rfl
    fun next h change _ => (hf next change).trans h

@[simp] theorem applyAll_target (changes : List Change) :
    (env.applyAll changes).target = env.target :=
  applyAll_frame (fun _ change => by cases change <;> rfl) changes

@[simp] theorem applyAll_graph (changes : List Change) :
    (env.applyAll changes).graph = env.graph :=
  applyAll_frame (fun _ change => by cases change <;> rfl) changes

@[simp] theorem applyAll_extensions (changes : List Change) :
    (env.applyAll changes).extensions = env.extensions :=
  applyAll_frame (fun _ change => by cases change <;> rfl) changes

@[simp] theorem applyAll_instructionSets (changes : List Change) :
    (env.applyAll changes).instructionSets = env.instructionSets :=
  applyAll_frame (fun _ change => by cases change <;> rfl) changes

end SpirvLegality.Environment
