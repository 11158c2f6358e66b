import SpirvLegality.Proofs.Availability
import SpirvLegality.Proofs.Choices
import SpirvLegality.Proofs.History
import SpirvLegality.Proofs.Resolution

/-!
# What a module declares is enough

`Module.resolve_satisfies` says that the declarations of a module satisfy every requirement of every
instruction in it. The argument is made for one run of a collector (`Collector.Run.satisfied`): a
plain requirement is declared when it comes, and a choice is either settled by then or among those
that are made at the end. Merging the units loses nothing.
-/

namespace SpirvLegality

/-- After a run, the finished declarations satisfy each requirement of the stream. -/
theorem Collector.Run.satisfied {env : Environment} {c : Collector} {reqs : List Requirement}
    (h : Run env empty reqs c) : ∀ req ∈ reqs, req.SatisfiedBy (c.finish env) := by
  intro req hreq
  rw [h.finish_eq]
  have hwithin : c.declared.Within
      (((Requirement.choices reqs).mergeSort precedes).foldl (choose env) c.declared) :=
    within_foldl_choose _ _
  cases req with
  | capability cap =>
      exact hwithin.capabilities cap (h.mem_capabilities_iff.2 (Or.inr hreq))
  | anyOf candidates =>
      have hmem : candidates ∈ (Requirement.choices reqs).mergeSort precedes := by
        rw [List.mem_mergeSort, Requirement.mem_choices]
        exact hreq
      exact settles_foldl_choose hmem (grants_anyOf_iff.1 (h.grants _ hreq))
  | extension ext =>
      have hext : ext ∈ c.declared.extensions :=
        (h.mem_extensions_iff Declarations.gated_empty).2 (Or.inr (Or.inl hreq))
      exact hwithin.extensions ext hext
  | nothing => trivial

/-- Where a unit resolves, its declarations satisfy the expanded requirements of each of its
instructions. -/
theorem CodeUnit.resolve_satisfies_stream {unit : CodeUnit} {env : Environment}
    {defs : Definitions} {d : Declarations} (h : unit.resolve env defs = .ok d)
    {inst : Instruction} (hinst : inst ∈ unit.instructions) :
    ∃ all, inst.expandedRequirements env defs = .ok all ∧ ∀ req ∈ all, req.SatisfiedBy d := by
  obtain ⟨hderived, c, hrun, rfl⟩ := CodeUnit.resolve_eq_ok_iff.1 h
  obtain ⟨all, hall⟩ := hderived inst hinst
  refine ⟨all, hall, fun req hreq => hrun.satisfied req ?_⟩
  rw [← Instruction.demands_of_eq_ok hall] at hreq
  exact List.mem_flatMap.2 ⟨inst, hinst, hreq⟩

/-- Where a module resolves, in whatever environment, the requirements of every instruction of every
unit can be derived and expanded, and each of them is satisfied by what the module declares. -/
theorem Module.resolve_satisfies {m : Module} {env : Environment} {d : Declarations}
    (h : m.resolve env = .ok d) :
    ∀ unit ∈ m.units, ∀ inst ∈ unit.instructions, ∃ direct all,
      inst.requirements env m.index.find? = .ok direct ∧
        Requirement.expandAll env.graph direct = .ok all ∧
          ∀ req ∈ all, req.SatisfiedBy d := by
  intro unit hunit inst hinst
  obtain ⟨result, hresult⟩ := Module.exists_resolve_unit h hunit
  have hwithin := Module.within_of_resolve_unit h hunit hresult
  obtain ⟨all, hall, hsatisfied⟩ := CodeUnit.resolve_satisfies_stream hresult hinst
  obtain ⟨direct, hdirect, hexpand⟩ := Instruction.expandedRequirements_eq_ok_iff.1 hall
  exact ⟨direct, all, hdirect, hexpand, fun req hreq => (hsatisfied req hreq).mono hwithin⟩

/-! ## A module of two units

On SPIR-V 1.0 the view index takes an extension, and the specialization constant of the second unit
leaves a choice open. -/

/-- A Vulkan target of SPIR-V 1.0 with the multi-view extension. -/
def Target.multiview : Target where
  triple := "spirvv1.0-unknown-vulkan"
  addressing := .logical
  api := .vulkan
  spirv := .of 1 0
  openCl := .unspecified
  vulkan := .of 1 1
  extensionToggles := [(.khrMultiview, true)]

/-- The environment of that target, in which shaders were enabled once more. -/
def Environment.multiview : Environment := (ofTarget .multiview).applyAll [.enable .shader]

/-- A decoration of a variable as the view index. -/
def Instruction.viewIndex : Instruction :=
  .of .decorate none [.id ⟨0⟩, .imm 11, .imm 4440]

/-- A decoration of a value as a specialization constant. -/
def Instruction.specialization : Instruction :=
  .of .decorate none [.id ⟨1⟩, .imm 1, .imm 0]

/-- One unit with a view index and one with a specialization constant. -/
def Module.multiview : Module where
  units := [⟨"<module>", [.viewIndex]⟩, ⟨"main", [.specialization]⟩]

/-- The view index takes the multi-view capability. -/
theorem Instruction.requirements_viewIndex (defs : Definitions) :
    viewIndex.requirements .multiview defs = .ok [.capability .multiView] :=
  show viewIndex.decorationRequirements .multiview 1 = _ by decide +kernel

namespace PrerequisiteGraph

theorem prerequisites_multiView : standard.prerequisites .multiView = [.shader] := by
  decide +kernel

theorem prerequisites_shader : standard.prerequisites .shader = [.matrix] := by
  decide +kernel

theorem prerequisites_matrix : standard.prerequisites .matrix = [] := by
  decide +kernel

theorem order_multiView : standard.order .multiView = .ok [.matrix, .shader, .multiView] := by
  simp [order, visit, prerequisites_multiView, prerequisites_shader, prerequisites_matrix]

end PrerequisiteGraph

/-- The multi-view capability comes behind its prerequisites. -/
theorem Instruction.expandedRequirements_viewIndex (defs : Definitions) :
    viewIndex.expandedRequirements .multiview defs =
      .ok [.capability .matrix, .capability .shader, .capability .multiView] := by
  have horder : Environment.multiview.graph.order .multiView =
      .ok [.matrix, .shader, .multiView] := PrerequisiteGraph.order_multiView
  simp [expandedRequirements, requirements_viewIndex, Requirement.expandAll, Requirement.expand,
    horder, Except.map]

/-- The specialization constant leaves a choice. -/
theorem Instruction.expandedRequirements_specialization (defs : Definitions) :
    specialization.expandedRequirements .multiview defs = .ok [.anyOf [.shader, .kernel]] := by
  have hrule : specialization.requirements .multiview defs = .ok [.anyOf [.shader, .kernel]] :=
    show specialization.decorationRequirements .multiview 1 = _ by decide +kernel
  simp [expandedRequirements, hrule, Requirement.expandAll, Requirement.expand]

/-- Shaders can be used on the target as they are. -/
theorem Environment.usable?_shader_multiview : multiview.usable? .shader = some none :=
  usable?_eq_some_iff.2 ⟨Availability.mem_available_enable, rfl⟩

theorem Environment.offers_shader_multiview : multiview.Offers [.shader, .kernel] :=
  ⟨.shader, by simp, by simp [usable?_shader_multiview]⟩

/-- The chain of the view index is declared with its extension. -/
theorem CodeUnit.resolve_viewIndex (name : String) (defs : Definitions) :
    resolve ⟨name, [.viewIndex]⟩ .multiview defs =
      .ok ⟨[.matrix, .shader, .multiView], [.khrMultiview]⟩ := by
  refine resolve_eq_ok_iff.2 ⟨?_, ⟨⟨[.matrix, .shader, .multiView], [.khrMultiview]⟩, []⟩, ?_, ?_⟩
  · simp [Instruction.expandedRequirements_viewIndex]
  · rw [Instruction.stream, List.flatMap_singleton,
      Instruction.demands_of_eq_ok (Instruction.expandedRequirements_viewIndex defs)]
    exact .cons _ _ _ _ _ (.declare _ none (by decide) rfl)
      (.cons _ _ _ _ _ (.declare _ none (by decide) rfl)
        (.cons _ _ _ _ _ (.declare _ (some .khrMultiview) (by decide) rfl) (.nil _)))
  · simp [Collector.finish_eq_foldl]

/-- Shaders are picked for the specialization constant. -/
theorem CodeUnit.resolve_specialization (name : String) (defs : Definitions) :
    resolve ⟨name, [.specialization]⟩ .multiview defs = .ok ⟨[.shader], []⟩ := by
  refine resolve_eq_ok_iff.2 ⟨?_, ⟨{}, [[.shader, .kernel]]⟩, ?_, ?_⟩
  · simp [Instruction.expandedRequirements_specialization]
  · rw [Instruction.stream, List.flatMap_singleton,
      Instruction.demands_of_eq_ok (Instruction.expandedRequirements_specialization defs)]
    exact .cons _ _ _ _ _ (.postpone _ (by decide) Environment.offers_shader_multiview) (.nil _)
  · simp [Collector.finish_eq_foldl, Collector.choose, Environment.pick?,
      Environment.usable?_shader_multiview, Declarations.declare, Declarations.addCapability,
      appendNew]

/-- Both units together declare the chain of the view index with its extension. -/
theorem Module.resolve_multiview : Module.multiview.resolve .multiview =
    .ok ⟨[.matrix, .shader, .multiView], [.khrMultiview]⟩ := by
  refine resolve_eq_ok_iff.2 ⟨[⟨[.matrix, .shader, .multiView], [.khrMultiview]⟩,
    ⟨[.shader], []⟩], ?_, rfl⟩
  simp only [multiview, List.map_cons, List.map_nil, CodeUnit.resolve_viewIndex,
    CodeUnit.resolve_specialization]

/-- The declarations of the two units satisfy the view index and the specialization constant. -/
theorem Module.resolve_satisfies_multiview :
    Module.multiview.resolve .multiview =
        .ok ⟨[.matrix, .shader, .multiView], [.khrMultiview]⟩ ∧
      ∀ unit ∈ Module.multiview.units, ∀ inst ∈ unit.instructions, ∃ direct all,
        inst.requirements .multiview Module.multiview.index.find? = .ok direct ∧
          Requirement.expandAll Environment.multiview.graph direct = .ok all ∧
            ∀ req ∈ all,
              req.SatisfiedBy ⟨[.matrix, .shader, .multiView], [.khrMultiview]⟩ :=
  ⟨Module.resolve_multiview, Module.resolve_satisfies Module.resolve_multiview⟩

end SpirvLegality
