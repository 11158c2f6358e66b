import SpirvLegality.Proofs.ValidatedGraph
import SpirvLegality.Proofs.Walking

/-!
# Orders and cycles of a table

What the order of a capability means for the rows of its table: either it lists the capability
behind everything that the rows lead to from it (`EnumTable.IsOrderOf`), or it names a capability
that the rows lead to and that presupposes itself. Which of the two it is depends only on whether
there is such a capability (`EnumTable.ordered_or_cyclic`). This needs increasing numbers, as the
rows are found by searching.
-/

namespace SpirvLegality

open Relation (ReflTransGen TransGen)

namespace EnumTable

/-- Whether the row of a capability presupposes another capability. -/
def Presupposes (table : EnumTable Capability) (cap p : Capability) : Prop :=
  ∃ row ∈ table.rows, row.value = cap ∧ p ∈ row.capabilities

/-- A list that is an order of a capability: it has the capability and all that the rows lead to
from it, each once, the capability last and everything behind what it presupposes, directly or
not. -/
structure IsOrderOf (table : EnumTable Capability) (cap : Capability) (caps : List Capability) :
    Prop where
  nodup : caps.Nodup
  mem_iff : ∀ c, c ∈ caps ↔ ReflTransGen table.Presupposes cap c
  last : caps.getLast? = some cap
  behind : ∀ earlier c later, caps = earlier ++ c :: later →
    ∀ p, TransGen table.Presupposes c p → p ∈ earlier

end EnumTable

namespace PrerequisiteGraph

variable {table : EnumTable Capability}

/-- Where the numbers increase, the prerequisites of a capability are those of its row. -/
theorem mem_prerequisites_iff (hincreasing : table.Increasing) {cap p : Capability} :
    p ∈ prerequisites ⟨table⟩ cap ↔ table.Presupposes cap p := by
  have hfound (row : Enumerant Capability) :
      row? ⟨table⟩ cap = some row ↔ row ∈ table.rows ∧ row.value = cap := by
    constructor
    · exact value_of_row?
    · rintro ⟨hrow, rfl⟩
      exact (EnumTable.get?_eq_some_iff hincreasing).2 ⟨hrow, rfl⟩
  unfold prerequisites EnumTable.Presupposes
  constructor
  · intro hp
    cases hrow : row? ⟨table⟩ cap with
    | none =>
        rw [hrow] at hp
        cases hp
    | some row =>
        rw [hrow] at hp
        obtain ⟨hmem, hvalue⟩ := (hfound row).1 hrow
        exact ⟨row, hmem, hvalue, hp⟩
  · rintro ⟨row, hmem, hvalue, hp⟩
    rw [(hfound row).2 ⟨hmem, hvalue⟩]
    exact hp

/-- Where the numbers increase, a capability needs what the rows lead to from it. -/
theorem needs_iff (hincreasing : table.Increasing) {cap p : Capability} :
    Needs ⟨table⟩ cap p ↔ TransGen table.Presupposes cap p := by
  have hedge : (fun cap p => p ∈ prerequisites ⟨table⟩ cap) = table.Presupposes := by
    funext cap p
    exact propext (mem_prerequisites_iff hincreasing)
  rw [Needs, hedge]

theorem eq_or_needs_iff (hincreasing : table.Increasing) {cap c : Capability} :
    c = cap ∨ Needs ⟨table⟩ cap c ↔ ReflTransGen table.Presupposes cap c := by
  rw [needs_iff hincreasing, Relation.reflTransGen_iff_eq_or_transGen]

/-- What `order` finds is an order of the capability. -/
theorem isOrderOf_order (hincreasing : table.Increasing) {cap : Capability}
    {caps : List Capability} (h : order ⟨table⟩ cap = .ok caps) : table.IsOrderOf cap caps where
  nodup := nodup_order h
  mem_iff c := by rw [mem_order_iff h, eq_or_needs_iff hincreasing]
  last := by
    rw [order_eq] at h
    cases hvisit : visit ⟨table⟩ (EnumSet.empty.insert cap) [] (prerequisites ⟨table⟩ cap) with
    | error e =>
        rw [hvisit] at h
        cases h
    | ok before =>
        rw [hvisit] at h
        cases h
        exact List.getLast?_concat
  behind earlier c later hsplit p hp :=
    (ordered_order h).1.mem_of_needs hsplit ((needs_iff hincreasing).2 hp)

end PrerequisiteGraph

namespace EnumTable

open PrerequisiteGraph (walkFrom order)

/-- In a table with increasing numbers, whatever cycles its rows form, the walk from a capability
ends. It ends with an order of the capability just where the rows lead from it to no capability that
presupposes itself, and otherwise it names one that they lead to. -/
theorem ordered_or_cyclic {table : EnumTable Capability} (hincreasing : table.Increasing)
    (cap : Capability) :
    walkFrom ⟨table⟩ cap = order ⟨table⟩ cap ∧
      ((∃ caps, order ⟨table⟩ cap = .ok caps) ↔
        ¬ ∃ c, ReflTransGen table.Presupposes cap c ∧ TransGen table.Presupposes c c) ∧
      (∀ caps, order ⟨table⟩ cap = .ok caps → table.IsOrderOf cap caps) ∧
      ∀ e, order ⟨table⟩ cap = .error e → ∃ c, e = .cycle c ∧
        ReflTransGen table.Presupposes cap c ∧ TransGen table.Presupposes c c := by
  refine ⟨PrerequisiteGraph.walkFrom_eq_order _ cap, ?_,
    fun caps => PrerequisiteGraph.isOrderOf_order hincreasing, fun e he => ?_⟩
  · rw [PrerequisiteGraph.exists_order_iff]
    simp only [Relation.reflTransGen_iff_eq_or_transGen, PrerequisiteGraph.needs_iff hincreasing,
      not_exists, not_and]
  · obtain ⟨c, hcycle, hself, hneeded⟩ := PrerequisiteGraph.cycle_of_order he
    exact ⟨c, hcycle, (PrerequisiteGraph.eq_or_needs_iff hincreasing).1 hneeded,
      (PrerequisiteGraph.needs_iff hincreasing).1 hself⟩

/-- A table in which one capability is presupposed in two ways, one has no row, and one presupposes
two that presuppose each other. -/
def tangled : EnumTable Capability where
  family := "Capability"
  rows := #[.plain .matrix "Matrix" [.kernel], .plain .shader "Shader" [.matrix, .kernel],
    .plain .geometry "Geometry" [.shader, .matrix],
    .plain .tessellation "Tessellation" [.geometry, .addresses],
    .plain .addresses "Addresses" [.linkage], .plain .linkage "Linkage" [.addresses]]

theorem increasing_tangled : tangled.Increasing := by decide

theorem prerequisites_tangled :
    PrerequisiteGraph.prerequisites ⟨tangled⟩ .kernel = [] ∧
      PrerequisiteGraph.prerequisites ⟨tangled⟩ .matrix = [.kernel] ∧
      PrerequisiteGraph.prerequisites ⟨tangled⟩ .shader = [.matrix, .kernel] ∧
      PrerequisiteGraph.prerequisites ⟨tangled⟩ .geometry = [.shader, .matrix] ∧
      PrerequisiteGraph.prerequisites ⟨tangled⟩ .tessellation = [.geometry, .addresses] ∧
      PrerequisiteGraph.prerequisites ⟨tangled⟩ .addresses = [.linkage] ∧
      PrerequisiteGraph.prerequisites ⟨tangled⟩ .linkage = [.addresses] := by
  decide +kernel

theorem order_geometry_tangled :
    order ⟨tangled⟩ .geometry = .ok [.kernel, .matrix, .shader, .geometry] := by
  simp [order, PrerequisiteGraph.visit, prerequisites_tangled]

theorem order_tessellation_tangled :
    order ⟨tangled⟩ .tessellation = .error (.cycle .addresses) := by
  simp [order, PrerequisiteGraph.visit, prerequisites_tangled]

/-- Geometry has an order, in which the kernel without a row stands first and matrices stand once.
From tessellation the rows lead to a cycle that tessellation is not on. -/
theorem ordered_or_cyclic_tangled :
    tangled.Increasing ∧
      (order ⟨tangled⟩ .geometry = .ok [.kernel, .matrix, .shader, .geometry] ∧
        tangled.IsOrderOf .geometry [.kernel, .matrix, .shader, .geometry] ∧
        ¬ ∃ c, ReflTransGen tangled.Presupposes .geometry c ∧
          TransGen tangled.Presupposes c c) ∧
      order ⟨tangled⟩ .tessellation = .error (.cycle .addresses) ∧
        ReflTransGen tangled.Presupposes .tessellation .addresses ∧
        TransGen tangled.Presupposes .addresses .addresses := by
  obtain ⟨-, hiff, horder, -⟩ := ordered_or_cyclic increasing_tangled .geometry
  obtain ⟨-, -, -, herror⟩ := ordered_or_cyclic increasing_tangled .tessellation
  obtain ⟨c, hcycle, hreached, hself⟩ := herror _ order_tessellation_tangled
  cases hcycle
  exact ⟨increasing_tangled, ⟨order_geometry_tangled, horder _ order_geometry_tangled,
    hiff.1 ⟨_, order_geometry_tangled⟩⟩, order_tessellation_tangled, hreached, hself⟩

end EnumTable

end SpirvLegality
