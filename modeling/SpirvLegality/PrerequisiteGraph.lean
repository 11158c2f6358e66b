import SpirvLegality.Capability.Table

/-!
# The graph of prerequisites

A table of capabilities seen as a graph: an edge leads from a capability to each capability that
its row presupposes. `PrerequisiteGraph.order` lists a capability after everything it presupposes,
directly or not, and reports a capability that presupposes itself. `PrerequisiteGraph.ofTable`
accepts the tables in which the search by number works and no order fails.
-/

namespace SpirvLegality

/-- Why a table is no graph of prerequisites. -/
inductive GraphError where
  | unsorted (family : String)
  | cycle (capability : Capability)
deriving DecidableEq, Repr

/-- The wording of a graph error. -/
def GraphError.message : GraphError → String
  | .unsorted family => family ++ " table is not sorted by value"
  | .cycle cap => "capability " ++ cap.name ++ " requires itself through its prerequisites"

/-- A table of capabilities, seen as a graph. -/
structure PrerequisiteGraph where
  table : EnumTable Capability

namespace PrerequisiteGraph

/-- The graph of the capability table. -/
def standard : PrerequisiteGraph := ⟨Capability.table⟩

variable (g : PrerequisiteGraph)

/-- The row of a capability. -/
def row? (cap : Capability) : Option (Enumerant Capability) := g.table.get? cap.number

/-- The capabilities that have a row, in the order of the table. -/
def capabilities : List Capability := g.table.rows.toList.map (·.value)

/-- The direct prerequisites of a capability; one without a row has none. -/
def prerequisites (cap : Capability) : List Capability :=
  ((g.row? cap).map (·.capabilities)).getD []

/-- The extensions that make a capability legal before its first version. -/
def enablers (cap : Capability) : List Extension :=
  ((g.row? cap).map (·.extensions)).getD []

/-- The first version that has a capability. -/
def minVersion (cap : Capability) : Version :=
  ((g.row? cap).map (·.minVersion)).getD .unspecified

/-- The last version that has a capability. -/
def maxVersion (cap : Capability) : Version :=
  ((g.row? cap).map (·.maxVersion)).getD .unspecified

/-- Appends to `done`, for each capability of `todo` in turn, what it presupposes and then the
capability itself, leaving out what is listed already. A capability of `path` presupposes all of
`todo`, so that meeting it again closes a cycle. -/
def visit (path : EnumSet Capability) (done : List Capability) :
    List Capability → Except GraphError (List Capability)
  | [] => .ok done
  | cap :: rest =>
    if cap ∈ path then .error (.cycle cap)
    else if cap ∈ done then visit path done rest
    else
      match visit (path.insert cap) done (g.prerequisites cap) with
      | .error e => .error e
      | .ok done => visit path (done ++ [cap]) rest
termination_by todo => (path.missing, todo.length)
decreasing_by
  · exact Prod.Lex.right _ (by simp)
  · exact Prod.Lex.left _ _ (EnumSet.missing_insert_lt ‹_›)
  · exact Prod.Lex.right _ (by simp)

/-- A capability after all that it presupposes, each capability once, prerequisites first and in
the order of their rows. -/
def order (cap : Capability) : Except GraphError (List Capability) :=
  g.visit .empty [] [cap]

/-- The first failure among the orders of some capabilities. -/
def firstFailure? : List Capability → Option GraphError
  | [] => none
  | cap :: rest =>
    match g.order cap with
    | .error e => some e
    | .ok _ => firstFailure? rest

/-- The graph of a table whose numbers increase and in which no capability presupposes itself. -/
def ofTable (table : EnumTable Capability) : Except GraphError PrerequisiteGraph :=
  if table.isSorted then
    match firstFailure? ⟨table⟩ (capabilities ⟨table⟩) with
    | some e => .error e
    | none => .ok ⟨table⟩
  else .error (.unsorted table.family)

end PrerequisiteGraph

end SpirvLegality
