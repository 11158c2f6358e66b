import SpirvLegality.Proofs.Cycles
import SpirvLegality.Proofs.Derivation
import SpirvLegality.Proofs.Failure

/-!
# What the check of a table rules out

A table is refused for its numbers or, where these increase, for a cycle of its rows, and for
nothing else. The check tries the orders of the capabilities that have a row. That is enough for
every capability, as one without a row has no prerequisites. So over the graph of an accepted table
requirements can always be expanded, and no unit fails for the graph
(`PrerequisiteGraph.ofTable_outcome`).
-/

namespace SpirvLegality

open Relation (TransGen)

namespace PrerequisiteGraph

variable {g : PrerequisiteGraph} {table : EnumTable Capability}

/-- The first failure is the failure of the order of one of the capabilities. -/
theorem exists_order_error_of_firstFailure? {caps : List Capability} {e : GraphError}
    (h : g.firstFailure? caps = some e) : ∃ cap ∈ caps, g.order cap = .error e := by
  induction caps with
  | nil => cases h
  | cons cap rest ih =>
      rw [firstFailure?] at h
      cases horder : g.order cap with
      | error e' =>
          rw [horder] at h
          cases h
          exact ⟨cap, List.mem_cons_self, horder⟩
      | ok caps =>
          rw [horder] at h
          obtain ⟨c, hc, hfailure⟩ := ih h
          exact ⟨c, List.mem_cons_of_mem _ hc, hfailure⟩

/-- A table whose numbers do not increase is refused with its family. -/
theorem ofTable_of_not_increasing (h : ¬ table.Increasing) :
    ofTable table = .error (.unsorted table.family) := by
  rw [ofTable, if_neg (mt EnumTable.isSorted_iff.1 h)]

/-- A table with increasing numbers and a cycle is refused with a capability of a cycle: one that is
on it has a row, so that its order is tried. -/
theorem ofTable_of_cyclic (hincreasing : table.Increasing)
    (hcyclic : ∃ c, TransGen table.Presupposes c c) :
    ∃ c, ofTable table = .error (.cycle c) ∧ TransGen table.Presupposes c c := by
  obtain ⟨c, hc⟩ := hcyclic
  have hcycle := (needs_iff hincreasing).2 hc
  rw [ofTable, if_pos (EnumTable.isSorted_iff.2 hincreasing)]
  cases hfailure : firstFailure? ⟨table⟩ (capabilities ⟨table⟩) with
  | none =>
      obtain ⟨caps, horder⟩ :=
        firstFailure?_eq_none_iff.1 hfailure c (mem_capabilities_of_needs hcycle)
      exact absurd hcycle (exists_order_iff.1 ⟨caps, horder⟩ c (Or.inl rfl))
  | some e =>
      obtain ⟨cap, -, horder⟩ := exists_order_error_of_firstFailure? hfailure
      obtain ⟨c', rfl, hself, -⟩ := cycle_of_order horder
      exact ⟨c', rfl, (needs_iff hincreasing).1 hself⟩

/-- A table with increasing numbers and without a cycle is accepted. -/
theorem ofTable_of_acyclic (hincreasing : table.Increasing)
    (hacyclic : ¬ ∃ c, TransGen table.Presupposes c c) : ofTable table = .ok ⟨table⟩ := by
  refine ofTable_eq_ok_iff.2 ⟨EnumTable.isSorted_iff.2 hincreasing, rfl, fun cap _ => ?_⟩
  exact exists_order_iff.2 fun c _ hcycle => hacyclic ⟨c, (needs_iff hincreasing).1 hcycle⟩

end PrerequisiteGraph

/-- Where every capability has an order, all requirements can be expanded. -/
theorem Requirement.exists_expandAll {g : PrerequisiteGraph}
    (h : ∀ cap, ∃ caps, g.order cap = .ok caps) (reqs : List Requirement) :
    ∃ all, expandAll g reqs = .ok all := by
  have hexpand (req : Requirement) : ∃ first, req.expand g = .ok first := by
    cases req with
    | capability cap =>
        obtain ⟨caps, horder⟩ := h cap
        exact ⟨caps.map .capability, by rw [expand, horder]; rfl⟩
    | anyOf candidates => exact ⟨[.anyOf candidates], rfl⟩
    | extension ext => exact ⟨[.extension ext], rfl⟩
    | nothing => exact ⟨[.nothing], rfl⟩
  induction reqs with
  | nil => exact ⟨[], rfl⟩
  | cons req rest ih =>
      obtain ⟨first, hfirst⟩ := hexpand req
      obtain ⟨others, hothers⟩ := ih
      exact ⟨first ++ others, expandAll_cons_eq_ok_iff.2 ⟨first, others, hfirst, hothers, rfl⟩⟩

variable {env : Environment}

/-- An instruction is not collected where its rule fails, where its requirements have no
prerequisites in order, or where one of them is refused. -/
theorem Instruction.collect_error_cases {inst : Instruction} {defs : Definitions} {c : Collector}
    {e : RequirementError} (h : inst.collect env defs c = .error e) :
    inst.Fault env defs e ∨
      (∃ direct cause, Requirement.expandAll env.graph direct = .error cause ∧ e = .graph cause) ∨
      ∃ next req, Collector.Refuses env next req e := by
  rw [collect, expandedRequirements] at h
  cases hdirect : inst.requirements env defs with
  | error e' =>
      rw [hdirect] at h
      cases h
      exact Or.inl (requirements_eq_error_iff.1 hdirect)
  | ok direct =>
      cases hall : Requirement.expandAll env.graph direct with
      | error cause =>
          simp only [hdirect, hall] at h
          cases h
          exact Or.inr (Or.inl ⟨direct, cause, hall, rfl⟩)
      | ok all =>
          simp only [hdirect, hall] at h
          exact Or.inr (Or.inr (Collector.refuses_of_addAll h))

namespace Environment

/-- Where every capability has an order, no instruction is refused for the graph. -/
theorem collect_ne_graph (h : ∀ cap, ∃ caps, env.graph.order cap = .ok caps) (inst : Instruction)
    (defs : Definitions) (c : Collector) (cause : GraphError) :
    inst.collect env defs c ≠ .error (.graph cause) := by
  intro herror
  rcases Instruction.collect_error_cases herror with
    hrule | ⟨direct, cause', hexpand, -⟩ | ⟨next, req, hrefused⟩
  · cases hrule
  · obtain ⟨all, hall⟩ := Requirement.exists_expandAll h direct
    rw [hall] at hexpand
    cases hexpand
  · cases hrefused with
    | barred cap _ _ hgate =>
        obtain ⟨-, hversion⟩ := (gate_eq_error_iff rfl).1 hgate
        cases hversion

end Environment

/-- A table is refused as unsorted just where its numbers do not increase, and otherwise for a cycle
just where its rows form one; any other table is accepted. Over the graph of an accepted table every
capability has an order, whether it has a row or not, all requirements can be expanded, and no unit
fails for the graph. -/
theorem PrerequisiteGraph.ofTable_outcome (table : EnumTable Capability) :
    (∀ family, ofTable table = .error (.unsorted family) ↔
      ¬ table.Increasing ∧ family = table.family) ∧
    ((∃ c, ofTable table = .error (.cycle c)) ↔
      table.Increasing ∧ ∃ c, TransGen table.Presupposes c c) ∧
    (ofTable table = .ok ⟨table⟩ ↔
      table.Increasing ∧ ¬ ∃ c, TransGen table.Presupposes c c) ∧
    ∀ g, ofTable table = .ok g →
      (∀ cap, ∃ caps, g.order cap = .ok caps) ∧
      (∀ reqs, ∃ all, Requirement.expandAll g reqs = .ok all) ∧
      ∀ env : Environment, env.graph = g → ∀ (unit : CodeUnit) (defs : Definitions) e,
        unit.resolve env defs = .error e → ∀ cause, e.cause ≠ .graph cause := by
  -- The three outcomes exclude one another, so each case settles the three equivalences at once.
  rw [← and_assoc, ← and_assoc]
  constructor
  · by_cases hincreasing : table.Increasing
    · by_cases hcyclic : ∃ c, TransGen table.Presupposes c c
      · obtain ⟨c, hcycle, -⟩ := ofTable_of_cyclic hincreasing hcyclic
        simp [hcycle, hincreasing, hcyclic]
      · simp [ofTable_of_acyclic hincreasing hcyclic, hincreasing, hcyclic]
    · simp [ofTable_of_not_increasing hincreasing, hincreasing, eq_comm]
  · intro g hg
    have horders := exists_order_of_ofTable hg
    refine ⟨horders, Requirement.exists_expandAll horders, ?_⟩
    rintro env rfl unit defs e he cause hcause
    obtain ⟨before, inst, rest, next, -, -, hinst, -⟩ := CodeUnit.resolve_eq_error_iff.1 he
    rw [hcause] at hinst
    exact Environment.collect_ne_graph horders inst defs next cause hinst

/-- Two rows in falling order that presuppose each other. -/
def EnumTable.swapped : EnumTable Capability where
  family := "Capability"
  rows := #[.plain .shader "Shader" [.matrix], .plain .matrix "Matrix" [.shader]]

/-- A table without a row for the capability that it presupposes. -/
def EnumTable.sketched : EnumTable Capability where
  family := "Capability"
  rows := #[.plain .shader "Shader" [.matrix]]

theorem PrerequisiteGraph.ofTable_sketched :
    ofTable EnumTable.sketched = .ok ⟨EnumTable.sketched⟩ := by
  have hrow : prerequisites ⟨EnumTable.sketched⟩ .shader = [.matrix] := by decide +kernel
  have hnone : prerequisites ⟨EnumTable.sketched⟩ .matrix = [] := by decide +kernel
  refine ofTable_eq_ok_iff.2 ⟨by decide, rfl, fun cap hcap => ?_⟩
  have hshader : cap = .shader := List.mem_singleton.1 hcap
  exact ⟨[.matrix, .shader], by simp [order, visit, hshader, hrow, hnone]⟩

/-- The falling numbers of the first table hide its cycle, and the second table has increasing
numbers and a cycle. The third has neither: the capability without a row has an order, and a unit
fails over the graph for a missing operand. -/
theorem PrerequisiteGraph.ofTable_outcome_sketched :
    ofTable EnumTable.swapped = .error (.unsorted "Capability") ∧
      (∃ c, ofTable EnumTable.tangled = .error (.cycle c)) ∧
      (∃ caps, order ⟨EnumTable.sketched⟩ .matrix = .ok caps) ∧
      CodeUnit.resolve ⟨"main", [.bareImage]⟩ (.ofTarget .multiview ⟨EnumTable.sketched⟩)
          (fun _ => none) = .error (.bareImage 0) ∧
      ∀ cause, (ResolutionError.bareImage 0).cause ≠ .graph cause := by
  obtain ⟨-, -, -, hsketched⟩ := ofTable_outcome EnumTable.sketched
  obtain ⟨horders, -, hunits⟩ := hsketched _ ofTable_sketched
  obtain ⟨c, -, hself, -⟩ := cycle_of_order EnumTable.order_tessellation_tangled
  have hcycle := (needs_iff EnumTable.increasing_tangled).1 hself
  have hunit : CodeUnit.resolve ⟨"main", [.bareImage]⟩
      (.ofTarget .multiview ⟨EnumTable.sketched⟩) (fun _ => none) = .error (.bareImage 0) :=
    CodeUnit.resolve_eq_error_iff.2 ⟨[], .bareImage, [], .empty, rfl, rfl, rfl, rfl, rfl, rfl⟩
  exact ⟨((ofTable_outcome EnumTable.swapped).1 _).2 ⟨by decide, rfl⟩,
    (ofTable_outcome EnumTable.tangled).2.1.2 ⟨EnumTable.increasing_tangled, c, hcycle⟩,
    horders .matrix, hunit, hunits _ rfl _ _ _ hunit⟩

end SpirvLegality
