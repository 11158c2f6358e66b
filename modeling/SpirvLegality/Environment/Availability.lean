import SpirvLegality.PrerequisiteGraph

/-!
# Available capabilities

Two sets describe which capabilities an environment has: those that are *flagged*, which the user
and the defaults ask for, and those that are *available*. `Availability.enable` makes a capability
available together with what it presupposes and flags whatever it meets. It stops at capabilities
that are available already, which also ends it on a graph with cycles.
`Availability.synchronize` brings the available set in line with the flags.
-/

namespace SpirvLegality

/-- The capabilities that are asked for and those that are available. -/
structure Availability where
  flagged : EnumSet Capability
  available : EnumSet Capability

namespace Availability

/-- The flagged capabilities of a set, none of them available yet. -/
def ofFlags (flags : EnumSet Capability) : Availability := ⟨flags, .empty⟩

/-- Switches the flag of a capability. What is available stays until the next synchronization. -/
def setFlag (s : Availability) (cap : Capability) (on : Bool) : Availability :=
  { s with flagged := s.flagged.assign cap on }

/-- Switches the flag of a capability on. -/
def raise (s : Availability) (cap : Capability) : Availability :=
  { s with flagged := s.flagged.insert cap }

/-- Enables some capabilities in turn. One that is not available becomes so, and its prerequisites
are enabled before the others; one that is available is only flagged. -/
def enableAll (g : PrerequisiteGraph) (s : Availability) : List Capability → Availability
  | [] => s
  | cap :: rest =>
    if cap ∈ s.available then enableAll g (s.raise cap) rest
    else
      enableAll g ⟨s.flagged.insert cap, s.available.insert cap⟩ (g.prerequisites cap ++ rest)
termination_by work => (s.available.missing, work.length)
decreasing_by
  · exact Prod.Lex.right _ (by simp)
  · exact Prod.Lex.left _ _ (EnumSet.missing_insert_lt ‹_›)

/-- Enables a capability and what it presupposes. -/
def enable (g : PrerequisiteGraph) (s : Availability) (cap : Capability) : Availability :=
  enableAll g s [cap]

/-- Brings one capability in line with its flag: a flagged one is enabled, another one is removed
without regard to the capabilities that presuppose it. -/
def settle (g : PrerequisiteGraph) (s : Availability) (cap : Capability) : Availability :=
  if cap ∈ s.flagged then
    if cap ∈ s.available then s else s.enable g cap
  else if cap ∈ s.available then { s with available := s.available.erase cap }
  else s

/-- Brings every capability of the graph in line with its flag, in the order of the table. -/
def synchronize (g : PrerequisiteGraph) (s : Availability) : Availability :=
  g.capabilities.foldl (settle g) s

end Availability

end SpirvLegality
