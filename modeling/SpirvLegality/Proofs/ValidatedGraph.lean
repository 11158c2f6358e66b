import SpirvLegality.Proofs.PrerequisiteOrder
import SpirvLegality.Proofs.TableSearch

/-!
# Validated graphs

The order of a capability lists the capability and just what it needs, each once
(`PrerequisiteGraph.mem_order_iff`, `PrerequisiteGraph.nodup_order`), and there is one where none of
these needs itself (`PrerequisiteGraph.exists_order_iff`). A table is accepted when its numbers
increase and each of its capabilities has an order (`PrerequisiteGraph.ofTable_eq_ok_iff`). The
capability table is accepted (`PrerequisiteGraph.ofTable_standard`).
-/

namespace SpirvLegality.PrerequisiteGraph

variable {g : PrerequisiteGraph}

/-- A closed set contains whatever its members need. -/
theorem Closed.of_needs {t : Capability → Prop} (h : g.Closed t) {cap p : Capability}
    (hcap : t cap) (hneeds : g.Needs cap p) : t p := by
  induction hneeds with
  | single hp => exact h cap hcap _ hp
  | tail _ hp ih => exact h _ ih _ hp

/-- Some capabilities and whatever they need contain the prerequisites of their members. -/
theorem closed_needed (g : PrerequisiteGraph) (roots : Capability → Prop) :
    g.Closed fun cap => ∃ root, roots root ∧ (cap = root ∨ g.Needs root cap) := by
  rintro cap ⟨root, hroot, hneeded⟩ p hp
  refine ⟨root, hroot, Or.inr ?_⟩
  rcases hneeded with rfl | hneeds
  · exact .single hp
  · exact hneeds.tail hp

/-! ## Members of an order -/

/-- Visiting lists nothing but what was listed, what is to be visited, and what that needs. -/
theorem mem_of_mem_visit {path : EnumSet Capability} {done todo result : List Capability}
    (h : g.visit path done todo = .ok result) {cap : Capability} (hcap : cap ∈ result) :
    cap ∈ done ∨ ∃ first ∈ todo, cap = first ∨ g.Needs first cap := by
  fun_induction visit g path done todo generalizing result with
  | case1 path done =>
      cases h
      exact Or.inl hcap
  | case2 => cases h
  | case3 path done first rest _ hlisted ih =>
      refine (ih h hcap).imp_right ?_
      rintro ⟨other, hother, hneeded⟩
      exact ⟨other, List.mem_cons_of_mem _ hother, hneeded⟩
  | case4 => cases h
  | case5 path done first rest _ _ visited hvisit ihfirst ih =>
      rcases ih h hcap with hlisted | ⟨other, hother, hneeded⟩
      · rcases List.mem_append.1 hlisted with hvisited | hsingle
        · -- What a prerequisite needs, the capability needs as well.
          refine (ihfirst hvisit hvisited).imp_right ?_
          rintro ⟨p, hp, rfl | hneeds⟩
          · exact ⟨first, by simp, Or.inr (.single hp)⟩
          · exact ⟨first, by simp, Or.inr (.head hp hneeds)⟩
        · exact Or.inr ⟨first, by simp, Or.inl (List.mem_singleton.1 hsingle)⟩
      · exact Or.inr ⟨other, List.mem_cons_of_mem _ hother, hneeded⟩

/-- The order of a capability contains the capability and what it needs. -/
theorem mem_order_iff {cap other : Capability} {caps : List Capability}
    (h : g.order cap = .ok caps) : other ∈ caps ↔ other = cap ∨ g.Needs cap other := by
  obtain ⟨hordered, hcap⟩ := ordered_order h
  constructor
  · intro hother
    obtain ⟨first, hfirst, hneeded⟩ := (mem_of_mem_visit h hother).resolve_left List.not_mem_nil
    rwa [List.mem_singleton.1 hfirst] at hneeded
  · rintro (rfl | hneeds)
    · exact hcap
    · exact hordered.mem_of_mem hcap hneeds

/-- Visiting lists no capability of its path anew: meeting one ends it. -/
theorem mem_of_mem_path_of_visit {path : EnumSet Capability} {done todo result : List Capability}
    (h : g.visit path done todo = .ok result) {above : Capability} (habove : above ∈ path)
    (hmem : above ∈ result) : above ∈ done := by
  fun_induction visit g path done todo generalizing result with
  | case1 path done =>
      cases h
      exact hmem
  | case2 => cases h
  | case3 path done cap rest _ _ ih => exact ih h habove hmem
  | case4 => cases h
  | case5 path done cap rest hpath _ visited hvisit ihfirst ih =>
      rcases List.mem_append.1 (ih h habove hmem) with hvisited | hsingle
      · exact ihfirst hvisit (EnumSet.mem_insert.2 (Or.inr habove)) hvisited
      · exact absurd (List.mem_singleton.1 hsingle ▸ habove) hpath

/-- Visiting lists nothing twice. -/
theorem nodup_visit {path : EnumSet Capability} {done todo result : List Capability}
    (h : g.visit path done todo = .ok result) (hdone : done.Nodup) : result.Nodup := by
  fun_induction visit g path done todo generalizing result with
  | case1 path done =>
      cases h
      exact hdone
  | case2 => cases h
  | case3 path done cap rest _ _ ih => exact ih h hdone
  | case4 => cases h
  | case5 path done cap rest _ hlisted visited hvisit ihfirst ih =>
      -- Visiting the prerequisites does not list the capability, as it is on their path.
      have hnew : cap ∉ visited := fun hcap =>
        hlisted (mem_of_mem_path_of_visit hvisit (EnumSet.mem_insert.2 (Or.inl rfl)) hcap)
      have hconcat := (ihfirst hvisit hdone).concat hnew
      rw [List.concat_eq_append] at hconcat
      exact ih h hconcat

/-- The order of a capability lists nothing twice. -/
theorem nodup_order {cap : Capability} {caps : List Capability} (h : g.order cap = .ok caps) :
    caps.Nodup :=
  nodup_visit h .nil

/-! ## Cycles -/

/-- Where the capabilities of the path need whatever is to be visited, visiting fails only at a
capability that needs itself, and that is to be visited or needed by what is. -/
theorem cycle_of_visit {path : EnumSet Capability} {done todo : List Capability} {e : GraphError}
    (h : g.visit path done todo = .error e)
    (hpath : ∀ above ∈ path, ∀ cap ∈ todo, g.Needs above cap) :
    ∃ cap, e = .cycle cap ∧ g.Needs cap cap ∧ ∃ first ∈ todo, cap = first ∨ g.Needs first cap := by
  fun_induction visit g path done todo with
  | case1 => cases h
  | case2 path done cap rest hmem =>
      cases h
      exact ⟨cap, rfl, hpath cap hmem cap (by simp), cap, by simp, Or.inl rfl⟩
  | case3 path done cap rest _ _ ih =>
      obtain ⟨c, rfl, hcycle, first, hfirst, hneeded⟩ :=
        ih h fun above habove p hp => hpath above habove p (List.mem_cons_of_mem _ hp)
      exact ⟨c, rfl, hcycle, first, List.mem_cons_of_mem _ hfirst, hneeded⟩
  | case4 path done cap rest _ _ e' hvisit ih =>
      cases h
      obtain ⟨c, rfl, hcycle, p, hp, hneeded⟩ := ih hvisit fun above habove p hp => by
        rcases EnumSet.mem_insert.1 habove with rfl | habove
        · exact .single hp
        · exact .tail (hpath above habove cap (by simp)) hp
      refine ⟨c, rfl, hcycle, cap, by simp, Or.inr ?_⟩
      rcases hneeded with rfl | hneeds
      · exact .single hp
      · exact .head hp hneeds
  | case5 path done cap rest _ _ visited _ _ ih =>
      obtain ⟨c, rfl, hcycle, first, hfirst, hneeded⟩ :=
        ih h fun above habove p hp => hpath above habove p (List.mem_cons_of_mem _ hp)
      exact ⟨c, rfl, hcycle, first, List.mem_cons_of_mem _ hfirst, hneeded⟩

/-- An order fails only at a capability that needs itself, and that is the one to be ordered or
needed by it. -/
theorem cycle_of_order {cap : Capability} {e : GraphError} (h : g.order cap = .error e) :
    ∃ c, e = .cycle c ∧ g.Needs c c ∧ (c = cap ∨ g.Needs cap c) := by
  obtain ⟨c, rfl, hcycle, first, hfirst, hneeded⟩ :=
    cycle_of_visit h fun above habove => absurd habove (EnumSet.not_mem_empty above)
  rw [List.mem_singleton.1 hfirst] at hneeded
  exact ⟨c, rfl, hcycle, hneeded⟩

/-- Nothing that an order lists needs itself. -/
theorem not_needs_self_of_mem_order {cap c : Capability} {caps : List Capability}
    (h : g.order cap = .ok caps) (hc : c ∈ caps) : ¬ g.Needs c c := by
  intro hcycle
  obtain ⟨earlier, later, rfl⟩ := List.append_of_mem hc
  -- The capability would stand in front of itself, but it is listed once.
  have hearlier := (ordered_order h).1.mem_of_needs rfl hcycle
  have hnodup := nodup_order h
  rw [List.nodup_middle, List.nodup_cons, List.mem_append, not_or] at hnodup
  exact hnodup.1.1 hearlier

/-- A capability has an order where neither it nor anything that it needs needs itself. -/
theorem exists_order_iff {cap : Capability} : (∃ caps, g.order cap = .ok caps) ↔
    ∀ c, c = cap ∨ g.Needs cap c → ¬ g.Needs c c := by
  constructor
  · rintro ⟨caps, horder⟩ c hc
    exact not_needs_self_of_mem_order horder ((mem_order_iff horder).2 hc)
  · intro hacyclic
    cases horder : g.order cap with
    | ok caps => exact ⟨caps, rfl⟩
    | error e =>
        obtain ⟨c, -, hcycle, hneeded⟩ := cycle_of_order horder
        exact absurd hcycle (hacyclic c hneeded)

/-- A rank that falls along prerequisites rules out that a capability needs itself. -/
theorem acyclic_of_rank (rank : Capability → Nat)
    (hrank : ∀ cap, ∀ p ∈ g.prerequisites cap, rank p < rank cap) (cap : Capability) :
    ¬ g.Needs cap cap := by
  have hfalls : ∀ {p}, g.Needs cap p → rank p < rank cap := by
    intro p hneeds
    induction hneeds with
    | single hp => exact hrank cap _ hp
    | tail _ hp ih => exact (hrank _ _ hp).trans ih
  exact fun hneeds => Nat.lt_irrefl _ (hfalls hneeds)

/-! ## Tables -/

theorem firstFailure?_eq_none_iff {caps : List Capability} :
    g.firstFailure? caps = none ↔ ∀ cap ∈ caps, ∃ chain, g.order cap = .ok chain := by
  induction caps with
  | nil => simp [firstFailure?]
  | cons cap rest ih =>
      rw [firstFailure?, List.forall_mem_cons]
      cases horder : g.order cap with
      | error e => simp
      | ok chain => simp [ih]

/-- A table is accepted, with the graph that it describes, when its numbers increase and each of its
capabilities has an order. -/
theorem ofTable_eq_ok_iff {table : EnumTable Capability} :
    ofTable table = .ok g ↔ table.isSorted = true ∧ g = ⟨table⟩ ∧
      ∀ cap ∈ g.capabilities, ∃ chain, g.order cap = .ok chain := by
  unfold ofTable
  by_cases hsorted : table.isSorted = true
  · rw [if_pos hsorted]
    cases hfailure : firstFailure? ⟨table⟩ (capabilities ⟨table⟩) with
    | some e =>
        simp only [reduceCtorEq, false_iff, not_and]
        rintro - rfl horders
        rw [firstFailure?_eq_none_iff.2 horders] at hfailure
        cases hfailure
    | none =>
        have horders := firstFailure?_eq_none_iff.1 hfailure
        simp only [Except.ok.injEq]
        exact ⟨fun h => ⟨hsorted, h.symm, h ▸ horders⟩, fun h => h.2.1.symm⟩
  · simp [hsorted]

/-- The row that is found for a capability is its row. -/
theorem value_of_row? {cap : Capability} {row : Enumerant Capability} (h : g.row? cap = some row) :
    row ∈ g.table.rows ∧ row.value = cap := by
  obtain ⟨hrow, hnumber⟩ := EnumTable.mem_of_get? h
  exact ⟨hrow, Capability.number_injective hnumber⟩

/-- What has prerequisites has a row. -/
theorem mem_capabilities_of_prerequisite {cap p : Capability} (hp : p ∈ g.prerequisites cap) :
    cap ∈ g.capabilities := by
  unfold prerequisites at hp
  cases hrow : g.row? cap with
  | none =>
      rw [hrow] at hp
      cases hp
  | some row =>
      obtain ⟨hmem, rfl⟩ := value_of_row? hrow
      exact List.mem_map_of_mem (Array.mem_toList_iff.2 hmem)

/-- What needs another capability has a row. -/
theorem mem_capabilities_of_needs {cap p : Capability} (h : g.Needs cap p) :
    cap ∈ g.capabilities := by
  rcases Relation.TransGen.head'_iff.1 h with ⟨q, hq, -⟩
  exact mem_capabilities_of_prerequisite hq

/-- In the graph of an accepted table nothing needs itself: it would have a row, and the orders of
the capabilities with a row were tried. -/
theorem acyclic_of_ofTable {table : EnumTable Capability} (h : ofTable table = .ok g)
    (cap : Capability) : ¬ g.Needs cap cap := by
  intro hcycle
  obtain ⟨-, -, horders⟩ := ofTable_eq_ok_iff.1 h
  obtain ⟨caps, horder⟩ := horders cap (mem_capabilities_of_needs hcycle)
  exact not_needs_self_of_mem_order horder ((mem_order_iff horder).2 (Or.inl rfl)) hcycle

/-- In the graph of an accepted table every capability has an order, with or without a row. -/
theorem exists_order_of_ofTable {table : EnumTable Capability} (h : ofTable table = .ok g)
    (cap : Capability) : ∃ caps, g.order cap = .ok caps :=
  exists_order_iff.2 fun c _ => acyclic_of_ofTable h c

/-- The number of a capability, but above all numbers for the two capabilities that presuppose one
with a higher number. -/
def rank (cap : Capability) : Nat :=
  if cap = .imageCubeArray ∨ cap = .imageRect then UInt32.size else cap.number.toNat

/-- No capability of the capability table needs itself. -/
theorem acyclic_standard (cap : Capability) : ¬ standard.Needs cap cap := by
  have hrank : ∀ cap ∈ Capability.values, ∀ p ∈ standard.prerequisites cap, rank p < rank cap := by
    decide +kernel
  exact acyclic_of_rank rank (fun cap => hrank cap (Capability.mem_values cap)) cap

/-- The capability table is accepted. -/
theorem ofTable_standard : ofTable Capability.table = .ok standard :=
  ofTable_eq_ok_iff.2 ⟨by decide +kernel, rfl,
    fun _ _ => exists_order_iff.2 fun c _ => acyclic_standard c⟩

end SpirvLegality.PrerequisiteGraph
