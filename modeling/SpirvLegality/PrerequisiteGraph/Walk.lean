import SpirvLegality.PrerequisiteGraph

/-!
# The order of a capability without recursion

`PrerequisiteGraph.walkFrom` finds the order of a capability in one loop with a stack of its own, so
that the depth of a graph is no matter of the call stack. The stack holds the capabilities whose
prerequisites are being looked at, the innermost first, and each with the number of prerequisites
that were looked at by then. A capability is marked when it gets onto the stack and marked anew when
it leaves the stack and is listed.
-/

namespace SpirvLegality.PrerequisiteGraph

/-- How far a walk has come with a capability: it is on the stack, or it is listed. -/
inductive Mark where
  | entered | left
deriving DecidableEq, Repr

/-- The marks of the capabilities that a walk has met. -/
abbrev Marks := Capability → Option Mark

namespace Marks

/-- No capability is marked. -/
def none : Marks := fun _ => .none

/-- The marks with one capability marked, whether anew or for the first time. -/
def set (marks : Marks) (cap : Capability) (mark : Mark) : Marks :=
  fun c => if c = cap then some mark else marks c

/-- The capabilities that have a mark. -/
def marked (marks : Marks) : EnumSet Capability := ⟨fun cap => (marks cap).isSome⟩

theorem marked_set (marks : Marks) (cap : Capability) (mark : Mark) :
    (marks.set cap mark).marked = marks.marked.insert cap := by
  ext c
  by_cases h : c = cap <;> simp [EnumSet.mem_def, EnumSet.insert, marked, set, h]

end Marks

/-- The capabilities whose prerequisites are being looked at, the innermost first, each with the
number of prerequisites that were looked at. -/
abbrev Stack := List (Capability × Nat)

variable (g : PrerequisiteGraph)

/-- The number of times that a stack can still be looked at until it is empty, if nothing is put
onto it. -/
def pending : Stack → Nat
  | [] => 0
  | (cap, next) :: below => (g.prerequisites cap).length - next + 1 + pending below

/-- Looks at the next prerequisite of the innermost capability: one that is on the stack closes a
cycle, one that is listed is passed over, and one that was not met yet is put onto the stack. A
capability without further prerequisites leaves the stack and is listed. -/
def walk : Stack → Marks → List Capability → Except GraphError (List Capability)
  | [], _, listed => .ok listed
  | (cap, next) :: below, marks, listed =>
    match _ : (g.prerequisites cap)[next]? with
    | some p =>
      match hmark : marks p with
      | some .entered => .error (.cycle p)
      | some .left => walk ((cap, next + 1) :: below) marks listed
      | none => walk ((p, 0) :: (cap, next + 1) :: below) (marks.set p .entered) listed
    | none => walk below (marks.set cap .left) (listed ++ [cap])
termination_by stack marks => (marks.marked.missing, g.pending stack)
decreasing_by
  · refine Prod.Lex.right _ ?_
    have hnext := (List.getElem?_eq_some_iff.1 ‹(g.prerequisites cap)[next]? = some _›).1
    simp only [pending]
    omega
  · have hnew : p ∉ marks.marked := by simp [EnumSet.mem_def, Marks.marked, hmark]
    rw [Marks.marked_set]
    exact Prod.Lex.left _ _ (EnumSet.missing_insert_lt hnew)
  · -- The capability was marked before; if it was not, there is one fewer without a mark.
    rw [Marks.marked_set]
    by_cases hmarked : cap ∈ marks.marked
    · rw [EnumSet.insert_of_mem hmarked]
      refine Prod.Lex.right _ ?_
      simp only [pending]
      omega
    · exact Prod.Lex.left _ _ (EnumSet.missing_insert_lt hmarked)

/-- The order of a capability, found by walking. -/
def walkFrom (cap : Capability) : Except GraphError (List Capability) :=
  g.walk [(cap, 0)] (Marks.none.set cap .entered) []

end SpirvLegality.PrerequisiteGraph
