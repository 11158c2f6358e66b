import SpirvLegality.Proofs.Traceability
import Mathlib.Logic.Relation

/-!
# Prerequisites stand first

Whatever an instruction asks for plainly is declared behind everything that it needs
(`prerequisites_declared_first`). The order of one capability has this property
(`PrerequisiteGraph.ordered_order`), putting orders behind each other keeps it, and so does leaving
out what is listed before. What is picked at the end stands behind all of it.
-/

namespace SpirvLegality

namespace PrerequisiteGraph

variable {g : PrerequisiteGraph}

/-- Whether a capability presupposes another one, directly or not. -/
def Needs (g : PrerequisiteGraph) : Capability → Capability → Prop :=
  Relation.TransGen fun cap p => p ∈ g.prerequisites cap

/-- Whether every entry of a list stands behind its direct prerequisites. -/
def Ordered (g : PrerequisiteGraph) (caps : List Capability) : Prop :=
  ∀ earlier cap later, caps = earlier ++ cap :: later → ∀ p ∈ g.prerequisites cap, p ∈ earlier

theorem ordered_nil : g.Ordered [] := by
  intro earlier cap later h
  simp at h

/-- The front of an ordered list is ordered. -/
theorem Ordered.of_append {caps others : List Capability} (h : g.Ordered (caps ++ others)) :
    g.Ordered caps := by
  intro earlier cap later heq
  refine h earlier cap (later ++ others) ?_
  rw [heq, List.append_assoc, List.cons_append]

/-- One more entry keeps a list ordered where its prerequisites are listed. -/
theorem ordered_concat_iff {caps : List Capability} {cap : Capability} :
    g.Ordered (caps ++ [cap]) ↔ g.Ordered caps ∧ ∀ p ∈ g.prerequisites cap, p ∈ caps := by
  constructor
  · intro h
    exact ⟨h.of_append, h caps cap [] rfl⟩
  · rintro ⟨hcaps, hcap⟩ earlier c later heq
    rcases List.eq_nil_or_concat later with rfl | ⟨init, last, rfl⟩
    · obtain ⟨rfl, hlast⟩ := List.append_inj' heq rfl
      cases hlast
      exact hcap
    · rw [List.concat_eq_append, ← List.cons_append, ← List.append_assoc] at heq
      exact hcaps earlier c init (List.append_inj' heq rfl).1

/-- Ordered lists may be put behind each other. -/
theorem Ordered.append {caps others : List Capability} (h : g.Ordered caps)
    (h' : g.Ordered others) : g.Ordered (caps ++ others) := by
  induction others using List.reverseRecOn with
  | nil => rwa [List.append_nil]
  | append_singleton init last ih =>
      obtain ⟨hinit, hlast⟩ := ordered_concat_iff.1 h'
      rw [← List.append_assoc, ordered_concat_iff]
      exact ⟨ih hinit, fun p hp => List.mem_append_right _ (hlast p hp)⟩

/-- Leaving out what is listed before keeps a list ordered. -/
theorem Ordered.foldl_appendNew {caps : List Capability} (h : g.Ordered caps) :
    g.Ordered (caps.foldl appendNew []) := by
  induction caps using List.reverseRecOn with
  | nil => exact ordered_nil
  | append_singleton init last ih =>
      obtain ⟨hinit, hlast⟩ := ordered_concat_iff.1 h
      rw [List.foldl_append, List.foldl_cons, List.foldl_nil, appendNew]
      split
      · exact ih hinit
      · exact ordered_concat_iff.2 ⟨ih hinit, fun p hp => by simp [hlast p hp]⟩

/-- An entry of an ordered list stands behind all that it needs. -/
theorem Ordered.mem_of_needs {caps : List Capability} (h : g.Ordered caps)
    {earlier later : List Capability} {cap p : Capability} (hsplit : caps = earlier ++ cap :: later)
    (hneeds : g.Needs cap p) : p ∈ earlier := by
  induction hneeds using Relation.TransGen.head_induction_on generalizing earlier later with
  | single hdirect => exact h earlier _ later hsplit _ hdirect
  | head hdirect _ ih =>
      -- The direct prerequisite stands in front, and what it needs in front of that.
      obtain ⟨before, between, rfl⟩ := List.append_of_mem (h earlier _ later hsplit _ hdirect)
      rw [List.append_assoc, List.cons_append] at hsplit
      exact List.mem_append_left _ (ih hsplit)

/-- An ordered list contains all that its entries need. -/
theorem Ordered.mem_of_mem {caps : List Capability} (h : g.Ordered caps) {cap p : Capability}
    (hcap : cap ∈ caps) (hneeds : g.Needs cap p) : p ∈ caps := by
  obtain ⟨earlier, later, rfl⟩ := List.append_of_mem hcap
  exact List.mem_append_left _ (h.mem_of_needs rfl hneeds)

/-- Visiting keeps what is listed, lists whatever is to be visited, and keeps the list ordered. -/
theorem visit_spec {path : EnumSet Capability} {done todo result : List Capability}
    (h : g.visit path done todo = .ok result) (hdone : g.Ordered done) :
    (∀ cap ∈ done, cap ∈ result) ∧ (∀ cap ∈ todo, cap ∈ result) ∧ g.Ordered result := by
  fun_induction visit g path done todo generalizing result with
  | case1 path done =>
      cases h
      exact ⟨fun _ h => h, nofun, hdone⟩
  | case2 => cases h
  | case3 path done cap rest _ hlisted ih =>
      obtain ⟨hkept, hrest, hordered⟩ := ih h hdone
      refine ⟨hkept, fun c hc => ?_, hordered⟩
      rcases List.mem_cons.1 hc with rfl | hc
      · exact hkept c hlisted
      · exact hrest c hc
  | case4 => cases h
  | case5 path done cap rest _ _ visited hvisit ihfirst ih =>
      -- The prerequisites are visited first, so they are listed when the capability is appended.
      obtain ⟨hkept, hprerequisites, hordered⟩ := ihfirst hvisit hdone
      obtain ⟨hkept', hrest, hresult⟩ := ih h (ordered_concat_iff.2 ⟨hordered, hprerequisites⟩)
      refine ⟨fun c hc => hkept' c (List.mem_append_left _ (hkept c hc)), fun c hc => ?_, hresult⟩
      rcases List.mem_cons.1 hc with rfl | hc
      · exact hkept' c (List.mem_append_right _ (List.mem_singleton.2 rfl))
      · exact hrest c hc

/-- The order of a capability contains it, and everything in the order of prerequisites. -/
theorem ordered_order {cap : Capability} {caps : List Capability} (h : g.order cap = .ok caps) :
    g.Ordered caps ∧ cap ∈ caps := by
  obtain ⟨-, hcap, hordered⟩ := visit_spec h ordered_nil
  exact ⟨hordered, hcap cap (List.mem_singleton.2 rfl)⟩

end PrerequisiteGraph

namespace Requirement

variable {g : PrerequisiteGraph}

@[simp] theorem plain_map_capability (caps : List Capability) :
    plain (caps.map .capability) = caps := by
  rw [plain, List.filterMap_map]
  exact List.filterMap_some

/-- A capability is expanded to an ordered list that contains it; other requirements have no plain
capabilities. -/
theorem expand_ordered {req : Requirement} {all : List Requirement}
    (h : req.expand g = .ok all) : g.Ordered (plain all) ∧ req ∈ all := by
  rcases expand_cases h with ⟨cap, caps, rfl, horder, rfl⟩ | ⟨hother, rfl⟩
  · obtain ⟨hordered, hcap⟩ := PrerequisiteGraph.ordered_order horder
    exact ⟨by simpa using hordered, List.mem_map_of_mem hcap⟩
  · have hnone : plain [req] = [] := by
      rw [List.eq_nil_iff_forall_not_mem]
      exact fun cap hcap => hother cap (List.mem_singleton.1 (mem_plain.1 hcap)).symm
    exact ⟨hnone ▸ PrerequisiteGraph.ordered_nil, List.mem_singleton.2 rfl⟩

/-- Requirements are expanded to a stream that asks for capabilities in order and keeps each of
them. -/
theorem expandAll_ordered {reqs all : List Requirement} (h : expandAll g reqs = .ok all) :
    g.Ordered (plain all) ∧ ∀ req ∈ reqs, req ∈ all := by
  induction reqs generalizing all with
  | nil =>
      cases h
      exact ⟨PrerequisiteGraph.ordered_nil, nofun⟩
  | cons req rest ih =>
      obtain ⟨first, others, hexpand, hothers, rfl⟩ := expandAll_cons_eq_ok_iff.1 h
      obtain ⟨hfirst, hreq⟩ := expand_ordered hexpand
      obtain ⟨hordered, hrest⟩ := ih hothers
      refine ⟨by simpa using hfirst.append hordered, fun r hr => ?_⟩
      rcases List.mem_cons.1 hr with rfl | hr
      · exact List.mem_append_left _ hreq
      · exact List.mem_append_right _ (hrest r hr)

/-- The expansion of some requirements asks for all that their capabilities need. -/
theorem mem_expandAll_of_needs {reqs all : List Requirement} (h : expandAll g reqs = .ok all)
    {cap needed : Capability} (hcap : .capability cap ∈ reqs)
    (hneeded : needed = cap ∨ g.Needs cap needed) : .capability needed ∈ all := by
  obtain ⟨hordered, hkept⟩ := expandAll_ordered h
  rcases hneeded with rfl | hneeds
  · exact hkept _ hcap
  · exact mem_plain.1 (hordered.mem_of_mem (mem_plain.2 (hkept _ hcap)) hneeds)

end Requirement

variable {env : Environment} {defs : Definitions}

/-- The plain capabilities of some instructions come in order. -/
theorem Instruction.ordered_stream (insts : List Instruction) :
    env.graph.Ordered (Requirement.plain (stream env defs insts)) := by
  induction insts with
  | nil => exact PrerequisiteGraph.ordered_nil
  | cons inst rest ih =>
      rw [stream, List.flatMap_cons, Requirement.plain_append]
      refine PrerequisiteGraph.Ordered.append ?_ ih
      unfold demands
      split
      · next all hall =>
          obtain ⟨direct, -, hexpand⟩ := expandedRequirements_eq_ok_iff.1 hall
          exact (Requirement.expandAll_ordered hexpand).1
      · exact PrerequisiteGraph.ordered_nil

/-- A capability that a stream asks for plainly stands behind all that it needs in the finished
declarations, if the stream asks for everything in order. -/
theorem Collector.Run.mem_earlier_of_needs {c : Collector} {reqs : List Requirement}
    (h : Run env empty reqs c) (hreqs : env.graph.Ordered (Requirement.plain reqs))
    {earlier later : List Capability} {cap p : Capability} (hcap : .capability cap ∈ reqs)
    (hfinish : (c.finish env).capabilities = earlier ++ cap :: later)
    (hneeds : env.graph.Needs cap p) : p ∈ earlier := by
  have hordered : env.graph.Ordered c.declared.capabilities := by
    rw [h.capabilities_eq]
    exact hreqs.foldl_appendNew
  obtain ⟨before, after, hsplit⟩ :=
    List.append_of_mem (h.mem_capabilities_iff.2 (Or.inr hcap))
  obtain ⟨picks, hpicks⟩ := prefix_finish env c
  -- The list has the capability once, so no pick stands in front of it.
  have hnodup := h.finish_distinct.capabilities
  rw [hfinish, List.nodup_middle, List.nodup_cons, List.mem_append, not_or] at hnodup
  rw [hsplit, List.append_assoc, List.cons_append, hfinish] at hpicks
  obtain ⟨rfl, -, -⟩ :=
    (List.append_cons_inj_of_notMem hnodup.1.1 hnodup.1.2).1 hpicks.symm
  exact hordered.mem_of_needs hsplit hneeds

/-- Where a unit resolves, what its instructions ask for plainly is declared behind all that it
needs, and so is whatever it needs. -/
theorem CodeUnit.needed_of_resolve {unit : CodeUnit} {d : Declarations}
    (h : unit.resolve env defs = .ok d) {inst : Instruction} (hinst : inst ∈ unit.instructions) :
    ∃ direct, inst.requirements env defs = .ok direct ∧
      ∀ cap, .capability cap ∈ direct → ∀ needed, needed = cap ∨ env.graph.Needs cap needed →
        needed ∈ d.capabilities ∧
          ∀ earlier later, d.capabilities = earlier ++ needed :: later →
            ∀ p, env.graph.Needs needed p → p ∈ earlier := by
  obtain ⟨hderived, c, hrun, rfl⟩ := resolve_eq_ok_iff.1 h
  obtain ⟨all, hall⟩ := hderived inst hinst
  obtain ⟨direct, hdirect, hexpand⟩ := Instruction.expandedRequirements_eq_ok_iff.1 hall
  refine ⟨direct, hdirect, fun cap hcap needed hneeded => ?_⟩
  have hmem : .capability needed ∈ Instruction.stream env defs unit.instructions := by
    refine Instruction.mem_stream_iff.2 ⟨inst, hinst, ?_⟩
    rw [Instruction.demands_of_eq_ok hall]
    exact Requirement.mem_expandAll_of_needs hexpand hcap hneeded
  have hdeclared := hrun.mem_capabilities_iff.2 (Or.inr hmem)
  refine ⟨(Collector.prefix_finish env c).subset hdeclared, fun earlier later hsplit p hneeds => ?_⟩
  exact hrun.mem_earlier_of_needs (Instruction.ordered_stream _) hmem hsplit hneeds

/-- Where a unit resolves, everything that an instruction asks for plainly is declared, together
with all that it needs, and each of these capabilities stands behind all that it needs itself. Where
a module resolves, it declares all of them. -/
theorem prerequisites_declared_first (env : Environment) :
    (∀ (unit : CodeUnit) (defs : Definitions) (d : Declarations),
        unit.resolve env defs = .ok d →
        ∀ inst ∈ unit.instructions, ∃ direct, inst.requirements env defs = .ok direct ∧
          ∀ cap, .capability cap ∈ direct → ∀ needed, needed = cap ∨ env.graph.Needs cap needed →
            needed ∈ d.capabilities ∧
              ∀ earlier later, d.capabilities = earlier ++ needed :: later →
                ∀ p, env.graph.Needs needed p → p ∈ earlier) ∧
      ∀ (m : Module) (d : Declarations), m.resolve env = .ok d →
        ∀ unit ∈ m.units, ∀ inst ∈ unit.instructions, ∃ direct,
          inst.requirements env m.index.find? = .ok direct ∧
            ∀ cap, .capability cap ∈ direct → ∀ needed, needed = cap ∨ env.graph.Needs cap needed →
              needed ∈ d.capabilities := by
  constructor
  · intro unit defs d h inst hinst
    exact CodeUnit.needed_of_resolve h hinst
  · intro m d h unit hunit inst hinst
    obtain ⟨result, hresult⟩ := Module.exists_resolve_unit h hunit
    have hwithin := Module.within_of_resolve_unit h hunit hresult
    obtain ⟨direct, hdirect, hneeded⟩ := CodeUnit.needed_of_resolve hresult hinst
    refine ⟨direct, hdirect, fun cap hcap needed h => ?_⟩
    exact hwithin.capabilities needed (hneeded cap hcap needed h).1

/-- The view index asks for multi-view, which needs shaders, which need matrices: they are declared
in the opposite order. -/
theorem prerequisites_declared_first_multiview :
    (CodeUnit.resolve ⟨"<module>", [.viewIndex]⟩ .multiview (fun _ => none) =
        .ok ⟨[.matrix, .shader, .multiView], [.khrMultiview]⟩ ∧
      Instruction.viewIndex.requirements .multiview (fun _ => none) =
        .ok [.capability .multiView] ∧
      Environment.multiview.graph.Needs .multiView .shader ∧
      Environment.multiview.graph.Needs .shader .matrix ∧
      [Capability.matrix, .shader, .multiView] = [.matrix] ++ .shader :: [.multiView] ∧
      Capability.shader ∈ [Capability.matrix, .shader, .multiView] ∧
      Capability.matrix ∈ [Capability.matrix]) ∧
    Module.multiview.resolve .multiview =
        .ok ⟨[.matrix, .shader, .multiView], [.khrMultiview]⟩ ∧
      Capability.shader ∈ [Capability.matrix, .shader, .multiView] := by
  have hunit := CodeUnit.resolve_viewIndex "<module>" fun _ => none
  have hshader : Environment.multiview.graph.Needs .multiView .shader :=
    .single (PrerequisiteGraph.prerequisites_multiView ▸ List.mem_singleton.2 rfl)
  have hmatrix : Environment.multiview.graph.Needs .shader .matrix :=
    .single (PrerequisiteGraph.prerequisites_shader ▸ List.mem_singleton.2 rfl)
  have hplain {direct : List Requirement} {defs : Definitions}
      (h : Instruction.viewIndex.requirements .multiview defs = .ok direct) :
      .capability .multiView ∈ direct := by
    rw [Instruction.requirements_viewIndex] at h
    cases h
    exact List.mem_singleton.2 rfl
  obtain ⟨direct, hdirect, hneeded⟩ :=
    (prerequisites_declared_first .multiview).1 _ _ _ hunit .viewIndex (by simp)
  obtain ⟨hdeclared, hbehind⟩ := hneeded _ (hplain hdirect) .shader (.inr hshader)
  obtain ⟨other, hother, hmodule⟩ := (prerequisites_declared_first .multiview).2 _ _
    Module.resolve_multiview ⟨"<module>", [.viewIndex]⟩ (by simp [Module.multiview]) .viewIndex
      (by simp)
  exact ⟨⟨hunit, Instruction.requirements_viewIndex _, hshader, hmatrix, rfl, hdeclared,
      hbehind [.matrix] [.multiView] rfl .matrix hmatrix⟩,
    Module.resolve_multiview, hmodule _ (hplain hother) .shader (.inr hshader)⟩

end SpirvLegality
