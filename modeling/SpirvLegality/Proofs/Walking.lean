import SpirvLegality.PrerequisiteGraph.Walk

/-!
# Walking and visiting

The walk with a stack of its own gives the same answer as the recursion (`walkFrom_eq_order`). While
it walks, the marks say which capabilities are on the stack and which are listed (`Coherent`), and
what is still to be done is to visit, for each capability of the stack, the prerequisites that were
not looked at yet (`resume`). Each turn of the loop keeps both.
-/

namespace SpirvLegality.PrerequisiteGraph

/-- The order of a capability lists its prerequisites and then the capability itself. -/
theorem order_eq (g : PrerequisiteGraph) (cap : Capability) : g.order cap =
    (g.visit (EnumSet.empty.insert cap) [] (g.prerequisites cap)).map (· ++ [cap]) := by
  rw [order, visit, if_neg (EnumSet.not_mem_empty cap), if_neg List.not_mem_nil]
  cases g.visit (EnumSet.empty.insert cap) [] (g.prerequisites cap) with
  | error e => rfl
  | ok listed => simp [visit, Except.map]

/-- The capabilities on a stack. -/
def Stack.path (stack : Stack) : EnumSet Capability :=
  stack.foldr (fun frame path => path.insert frame.1) .empty

theorem Stack.mem_path {stack : Stack} {cap : Capability} :
    cap ∈ stack.path ↔ cap ∈ stack.map Prod.fst := by
  induction stack with
  | nil => simp [path]
  | cons frame below ih => simp [path, ← ih]

/-- The marks tell which capabilities are on a stack, where no capability is twice, and which are
listed. -/
structure Marks.Coherent (marks : Marks) (stack : Stack) (listed : List Capability) : Prop where
  nodup : (stack.map Prod.fst).Nodup
  entered_iff : ∀ cap, marks cap = some .entered ↔ cap ∈ stack.map Prod.fst
  left_iff : ∀ cap, marks cap = some .left ↔ cap ∈ listed

namespace Marks

variable {marks : Marks} {stack below : Stack} {listed : List Capability} {cap p : Capability}
  {next : Nat}

theorem coherent_start (cap : Capability) : (none.set cap .entered).Coherent [(cap, 0)] [] := by
  constructor
  · simp
  · intro c
    by_cases h : c = cap <;> simp [none, set, h]
  · intro c
    by_cases h : c = cap <;> simp [none, set, h]

/-- To look at one more prerequisite leaves the stack with the same capabilities. -/
theorem Coherent.advance (h : marks.Coherent ((cap, next) :: below) listed) :
    marks.Coherent ((cap, next + 1) :: below) listed :=
  ⟨h.nodup, h.entered_iff, h.left_iff⟩

/-- A capability without a mark may be put onto the stack. -/
theorem Coherent.enter (h : marks.Coherent stack listed) (hp : marks p = .none) :
    (marks.set p .entered).Coherent ((p, 0) :: stack) listed := by
  have hstack : p ∉ stack.map Prod.fst := by simp [← h.entered_iff, hp]
  have hlisted : p ∉ listed := by simp [← h.left_iff, hp]
  constructor
  · exact List.nodup_cons.2 ⟨hstack, h.nodup⟩
  · intro c
    by_cases hc : c = p
    · simp [set, hc]
    · rw [List.map_cons, List.mem_cons, ← h.entered_iff c]
      simp [set, hc]
  · intro c
    by_cases hc : c = p
    · simp [set, hc, hlisted]
    · rw [← h.left_iff c]
      simp [set, hc]

/-- The innermost capability may leave the stack and be listed. -/
theorem Coherent.leave (h : marks.Coherent ((cap, next) :: below) listed) :
    (marks.set cap .left).Coherent below (listed ++ [cap]) := by
  obtain ⟨hcap, hnodup⟩ := List.nodup_cons.1 h.nodup
  constructor
  · exact hnodup
  · intro c
    by_cases hc : c = cap
    · simp only [hc, hcap, iff_false]
      simp [set]
    · have hentered := h.entered_iff c
      rw [List.map_cons, List.mem_cons, or_iff_right hc] at hentered
      rw [← hentered]
      simp [set, hc]
  · intro c
    by_cases hc : c = cap
    · simp [set, hc]
    · rw [List.mem_append, List.mem_singleton, or_iff_left hc, ← h.left_iff c]
      simp [set, hc]

end Marks

variable {g : PrerequisiteGraph}

/-- What recursion makes of a stack: it visits the prerequisites that the innermost capability has
left, lists the capability, and goes on with the one below it. -/
def resume (g : PrerequisiteGraph) :
    Stack → List Capability → Except GraphError (List Capability)
  | [], listed => .ok listed
  | (cap, next) :: below, listed =>
    match g.visit (Stack.path ((cap, next) :: below)) listed ((g.prerequisites cap).drop next) with
    | .error e => .error e
    | .ok listed => resume g below (listed ++ [cap])

/-- A prerequisite that the innermost capability has left stands in front of those behind it. -/
theorem drop_prerequisites {cap p : Capability} {next : Nat}
    (h : (g.prerequisites cap)[next]? = some p) :
    (g.prerequisites cap).drop next = p :: (g.prerequisites cap).drop (next + 1) := by
  obtain ⟨hnext, rfl⟩ := List.getElem?_eq_some_iff.1 h
  exact List.drop_eq_getElem_cons hnext

/-- Wherever it stands, the loop gives what recursion makes of its stack. -/
theorem walk_eq_resume {stack : Stack} {marks : Marks} {listed : List Capability}
    (h : marks.Coherent stack listed) : g.walk stack marks listed = g.resume stack listed := by
  fun_induction walk g stack marks listed with
  | case1 marks listed => rfl
  | case2 cap next below marks listed p hnext hmark =>
      -- A prerequisite on the stack closes a cycle.
      have hpath : p ∈ Stack.path ((cap, next) :: below) :=
        Stack.mem_path.2 ((h.entered_iff p).1 hmark)
      rw [resume, drop_prerequisites hnext, visit, if_pos hpath]
  | case3 cap next below marks listed p hnext hmark ih =>
      have hpath : p ∉ Stack.path ((cap, next) :: below) := by
        rw [Stack.mem_path, ← h.entered_iff p, hmark]
        decide
      rw [ih h.advance, resume, resume, drop_prerequisites hnext, visit, if_neg hpath,
        if_pos ((h.left_iff p).1 hmark)]
      rfl
  | case4 cap next below marks listed p hnext hmark ih =>
      -- The recursion puts the prerequisite onto its path where the loop puts it onto the stack.
      have hpath : p ∉ Stack.path ((cap, next) :: below) := by
        rw [Stack.mem_path, ← h.entered_iff p, hmark]
        decide
      have hlisted : p ∉ listed := by
        rw [← h.left_iff p, hmark]
        decide
      have hpush : (Stack.path ((cap, next) :: below)).insert p =
          Stack.path ((p, 0) :: (cap, next + 1) :: below) := rfl
      rw [ih (h.advance.enter hmark), resume, resume, drop_prerequisites hnext, visit,
        if_neg hpath, if_neg hlisted, hpush, List.drop_zero]
      cases g.visit (Stack.path ((p, 0) :: (cap, next + 1) :: below)) listed (g.prerequisites p)
        <;> rfl
  | case5 cap next below marks listed hnext ih =>
      rw [ih h.leave, resume, List.drop_eq_nil_of_le (List.getElem?_eq_none_iff.1 hnext), visit]

/-- Walking finds the order of a capability. -/
theorem walkFrom_eq_order (g : PrerequisiteGraph) (cap : Capability) :
    g.walkFrom cap = g.order cap := by
  rw [walkFrom, walk_eq_resume (Marks.coherent_start cap), order_eq, resume, List.drop_zero]
  have hpath : Stack.path [(cap, 0)] = EnumSet.empty.insert cap := rfl
  rw [hpath]
  cases g.visit (EnumSet.empty.insert cap) [] (g.prerequisites cap) <;> rfl

end SpirvLegality.PrerequisiteGraph
