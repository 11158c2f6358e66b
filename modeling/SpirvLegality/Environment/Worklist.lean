import SpirvLegality.Environment.Availability

/-!
# Enabling pass by pass

The loop that enables a capability, as a machine. Its state is a worklist: what is flagged and what
is available by then, and the capabilities that are still to be looked at, the next one first. The
same capability can be on the list several times, and the list can become longer from one pass to
the next.
-/

namespace SpirvLegality

/-- Where the loop stands: the state that it has come to and the work that is left. -/
structure Worklist where
  state : Availability
  work : List Capability

namespace Worklist

/-- One pass takes the next capability from the list and flags it. A capability that was not
available becomes so, and its prerequisites go to the front of the list. Without work there is
nothing to do. -/
def pass (g : PrerequisiteGraph) (list : Worklist) : Worklist :=
  match list.work with
  | [] => list
  | cap :: rest =>
    { state := ⟨list.state.flagged.insert cap, list.state.available.insert cap⟩
      work := if cap ∈ list.state.available then rest else g.prerequisites cap ++ rest }

end Worklist

end SpirvLegality
