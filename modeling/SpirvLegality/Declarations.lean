import SpirvLegality.Capability.Table

/-!
# Declarations

The capabilities and extensions that a module or one of its units has to declare, in the order in
which they are declared and each once. Merging appends what is not declared yet.
-/

namespace SpirvLegality

/-- A list with one more entry at its end, unless the entry is listed already. -/
def appendNew {α : Type} [DecidableEq α] (entries : List α) (entry : α) : List α :=
  if entry ∈ entries then entries else entries ++ [entry]

/-- What is to be declared, in order. -/
structure Declarations where
  capabilities : List Capability := []
  extensions : List Extension := []
deriving DecidableEq, Repr

namespace Declarations

/-- Nothing is declared. -/
def empty : Declarations := {}

/-- Whether nothing is declared. -/
def isEmpty (d : Declarations) : Bool := d.capabilities.isEmpty && d.extensions.isEmpty

/-- The declarations with one capability more. -/
def addCapability (d : Declarations) (cap : Capability) : Declarations :=
  { d with capabilities := appendNew d.capabilities cap }

/-- The declarations with one extension more. -/
def addExtension (d : Declarations) (ext : Extension) : Declarations :=
  { d with extensions := appendNew d.extensions ext }

/-- The declarations with one capability more and the extension that makes it legal, if it needs
one. -/
def declare (d : Declarations) (cap : Capability) (ext : Option Extension) : Declarations :=
  ext.elim (d.addCapability cap) (d.addCapability cap).addExtension

/-- The declarations followed by those of `other` that are new. -/
def merge (d other : Declarations) : Declarations where
  capabilities := other.capabilities.foldl appendNew d.capabilities
  extensions := other.extensions.foldl appendNew d.extensions

/-- The declarations of several units, merged in order. -/
def mergeAll (units : List Declarations) : Declarations := units.foldl merge empty

end Declarations

end SpirvLegality
