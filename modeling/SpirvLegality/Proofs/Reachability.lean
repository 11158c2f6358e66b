import SpirvLegality.Proofs.Availability

/-!
# What enabling reaches

The exact effect of enabling on the available capabilities, from any state and over any graph. The
walk does not go beyond what is available already, so it reaches what the work leads to along
prerequisites without entering the available set (`PrerequisiteGraph.LeadsTo`), and just this
becomes available (`Availability.mem_available_enableAll_iff`). On its way the walk meets the work
and the prerequisites of whatever it reaches (`PrerequisiteGraph.Meets`), available or not, and just
these are flagged (`Availability.mem_flagged_enableAll_iff`).
-/

namespace SpirvLegality

/-- Whether some work leads to a capability outside a barred set: the capability belongs to the
work, or it is a prerequisite of another capability that the work leads to. -/
inductive PrerequisiteGraph.LeadsTo (g : PrerequisiteGraph) (barred : EnumSet Capability)
    (work : List Capability) : Capability → Prop where
  | work {cap} : cap ∈ work → cap ∉ barred → LeadsTo g barred work cap
  | prerequisite {cap p} : LeadsTo g barred work cap → p ∈ g.prerequisites cap → p ∉ barred →
      LeadsTo g barred work p

namespace PrerequisiteGraph

variable {g : PrerequisiteGraph} {barred : EnumSet Capability} {work : List Capability}

/-- Barred work leads nowhere. -/
theorem not_leadsTo_of_barred (h : ∀ first ∈ work, first ∈ barred) (cap : Capability) :
    ¬ g.LeadsTo barred work cap := by
  intro hleads
  induction hleads with
  | work hcap houtside => exact houtside (h _ hcap)
  | prerequisite _ _ _ ih => exact ih

/-- More work leads to more. -/
theorem LeadsTo.of_subset {more : List Capability} (hmore : ∀ cap ∈ work, cap ∈ more)
    {cap : Capability} (h : g.LeadsTo barred work cap) : g.LeadsTo barred more cap := by
  induction h with
  | work hcap houtside => exact .work (hmore _ hcap) houtside
  | prerequisite _ hp houtside ih => exact .prerequisite ih hp houtside

/-- Barred entries of the work can be left out. -/
theorem leadsTo_cons_of_mem {first : Capability} (hfirst : first ∈ barred) {cap : Capability} :
    g.LeadsTo barred (first :: work) cap ↔ g.LeadsTo barred work cap := by
  constructor
  · intro h
    induction h with
    | work hcap houtside =>
        rcases List.mem_cons.1 hcap with rfl | hcap
        · exact absurd hfirst houtside
        · exact .work hcap houtside
    | prerequisite _ hp houtside ih => exact .prerequisite ih hp houtside
  · exact LeadsTo.of_subset fun c hc => List.mem_cons_of_mem _ hc

/-- An entry of the work that is not barred can be replaced by its prerequisites, once it is barred
itself. -/
theorem leadsTo_cons_of_not_mem {first : Capability} (hfirst : first ∉ barred) {cap : Capability} :
    g.LeadsTo barred (first :: work) cap ↔
      cap = first ∨ g.LeadsTo (barred.insert first) (g.prerequisites first ++ work) cap := by
  have hstart : g.LeadsTo barred (first :: work) first := .work (by simp) hfirst
  constructor
  · intro h
    induction h with
    | @work cap hcap houtside =>
        by_cases heq : cap = first
        · exact Or.inl heq
        · have hrest : cap ∈ g.prerequisites first ++ work :=
            List.mem_append_right _ ((List.mem_cons.1 hcap).resolve_left heq)
          exact Or.inr (.work hrest (by simp [heq, houtside]))
    | @prerequisite cap p _ hp houtside ih =>
        by_cases heq : p = first
        · exact Or.inl heq
        · have hout : p ∉ barred.insert first := by simp [heq, houtside]
          rcases ih with rfl | hcap
          · exact Or.inr (.work (List.mem_append_left _ hp) hout)
          · exact Or.inr (.prerequisite hcap hp hout)
  · rintro (rfl | h)
    · exact hstart
    · induction h with
      | @work cap hcap houtside =>
          have hcap' : cap ∉ barred := fun h => houtside (EnumSet.mem_insert.2 (Or.inr h))
          rcases List.mem_append.1 hcap with hp | hrest
          · exact .prerequisite hstart hp hcap'
          · exact .work (List.mem_cons_of_mem _ hrest) hcap'
      | prerequisite _ hp houtside ih =>
          exact .prerequisite ih hp fun h => houtside (EnumSet.mem_insert.2 (Or.inr h))

/-- Whether enabling some work meets a capability: the capability belongs to the work or is a
prerequisite of one that the work leads to. -/
def Meets (g : PrerequisiteGraph) (barred : EnumSet Capability) (work : List Capability)
    (cap : Capability) : Prop :=
  cap ∈ work ∨ ∃ c, g.LeadsTo barred work c ∧ cap ∈ g.prerequisites c

/-- The work leads to what is met and not barred. -/
theorem leadsTo_iff_meets {cap : Capability} :
    g.LeadsTo barred work cap ↔ g.Meets barred work cap ∧ cap ∉ barred := by
  constructor
  · intro h
    cases h with
    | work hcap houtside => exact ⟨Or.inl hcap, houtside⟩
    | prerequisite hc hp houtside => exact ⟨Or.inr ⟨_, hc, hp⟩, houtside⟩
  · rintro ⟨hcap | ⟨c, hc, hp⟩, houtside⟩
    · exact .work hcap houtside
    · exact .prerequisite hc hp houtside

/-- More work meets more. -/
theorem Meets.of_subset {more : List Capability} (hmore : ∀ cap ∈ work, cap ∈ more)
    {cap : Capability} (h : g.Meets barred work cap) : g.Meets barred more cap :=
  h.imp (hmore cap) fun ⟨c, hc, hp⟩ => ⟨c, hc.of_subset hmore, hp⟩

/-- Which capabilities are met does not depend on the order of the work, nor on how often each of
its entries occurs. -/
theorem meets_congr {other : List Capability} (h : ∀ cap, cap ∈ work ↔ cap ∈ other)
    {cap : Capability} : g.Meets barred work cap ↔ g.Meets barred other cap :=
  ⟨Meets.of_subset fun c => (h c).1, Meets.of_subset fun c => (h c).2⟩

theorem not_meets_nil (cap : Capability) : ¬ g.Meets barred [] cap := by
  rintro (hcap | ⟨c, hc, -⟩)
  · cases hcap
  · exact not_leadsTo_of_barred (by simp) c hc

/-- A barred entry of the work is met, and nothing behind it. -/
theorem meets_cons_of_mem {first : Capability} (hfirst : first ∈ barred) {cap : Capability} :
    g.Meets barred (first :: work) cap ↔ cap = first ∨ g.Meets barred work cap := by
  simp only [Meets, leadsTo_cons_of_mem hfirst, List.mem_cons, or_assoc]

/-- An entry of the work that is not barred is met, and then its prerequisites are work, once it is
barred itself. -/
theorem meets_cons_of_not_mem {first : Capability} (hfirst : first ∉ barred) {cap : Capability} :
    g.Meets barred (first :: work) cap ↔
      cap = first ∨ g.Meets (barred.insert first) (g.prerequisites first ++ work) cap := by
  simp only [Meets, leadsTo_cons_of_not_mem hfirst, List.mem_cons, List.mem_append, or_and_right,
    exists_or, exists_eq_left, or_assoc, or_left_comm]

end PrerequisiteGraph

namespace Availability

variable {g : PrerequisiteGraph} {s : Availability}

/-- What is available after enabling was available before, or the work leads to it past what was
available. -/
theorem mem_available_enableAll_iff {work : List Capability} {cap : Capability} :
    cap ∈ (enableAll g s work).available ↔
      cap ∈ s.available ∨ g.LeadsTo s.available work cap := by
  fun_induction enableAll g s work with
  | case1 s =>
      have hnone : ¬ g.LeadsTo s.available [] cap :=
        PrerequisiteGraph.not_leadsTo_of_barred (by simp) cap
      rw [or_iff_left hnone]
  | case2 s first rest hfirst ih =>
      rw [ih, PrerequisiteGraph.leadsTo_cons_of_mem hfirst]
      rfl
  | case3 s first rest hfirst ih =>
      rw [ih, PrerequisiteGraph.leadsTo_cons_of_not_mem hfirst, EnumSet.mem_insert, or_assoc,
        or_left_comm]

/-- What is flagged after enabling was flagged before or is met on the way. -/
theorem mem_flagged_enableAll_iff {work : List Capability} {cap : Capability} :
    cap ∈ (enableAll g s work).flagged ↔
      cap ∈ s.flagged ∨ g.Meets s.available work cap := by
  fun_induction enableAll g s work with
  | case1 s => rw [or_iff_left (PrerequisiteGraph.not_meets_nil cap)]
  | case2 s first rest hfirst ih =>
      rw [ih, PrerequisiteGraph.meets_cons_of_mem hfirst, raise, EnumSet.mem_insert, or_assoc,
        or_left_comm]
  | case3 s first rest hfirst ih =>
      rw [ih, PrerequisiteGraph.meets_cons_of_not_mem hfirst, EnumSet.mem_insert, or_assoc,
        or_left_comm]

/-- What is flagged after enabling was flagged before, or is available. -/
theorem available_of_mem_flagged_enableAll {work : List Capability} {cap : Capability}
    (h : cap ∈ (enableAll g s work).flagged) :
    cap ∈ s.flagged ∨ cap ∈ (enableAll g s work).available := by
  refine (mem_flagged_enableAll_iff.1 h).imp_right fun hmet => mem_available_enableAll_iff.2 ?_
  by_cases havailable : cap ∈ s.available
  · exact Or.inl havailable
  · exact Or.inr (PrerequisiteGraph.leadsTo_iff_meets.2 ⟨hmet, havailable⟩)

/-- Enabling an available capability makes nothing available. -/
theorem mem_available_enable_of_mem {first : Capability} (hfirst : first ∈ s.available)
    {cap : Capability} : cap ∈ (s.enable g first).available ↔ cap ∈ s.available := by
  have hnone : ¬ g.LeadsTo s.available [first] cap :=
    PrerequisiteGraph.not_leadsTo_of_barred (by simpa using hfirst) cap
  rw [enable, mem_available_enableAll_iff, or_iff_left hnone]

end Availability

end SpirvLegality
