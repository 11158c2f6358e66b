import SpirvLegality.Proofs.Soundness
import Mathlib.Data.List.Induction

/-!
# Where declarations come from

Every entry of the declarations traces back to a requirement (`declarations_traceable`). A
capability was asked for plainly, or it was picked for a choice: then it stands behind everything
that was declared before, none of which is a candidate of the choice (`Collector.Chosen`). An
extension was asked for, or a declared capability needs it. Merging the units of a module adds no
other entry and lists none twice.
-/

namespace SpirvLegality

namespace Collector

variable {env : Environment}

/-! ## Making choices -/

/-- A choice lists no entry twice. -/
theorem distinct_choose {d : Declarations} (h : d.Distinct) (candidates : List Capability) :
    (choose env d candidates).Distinct := by
  rcases choose_cases env d candidates with ⟨heq, -⟩ | ⟨cap, ext, -, -, heq⟩
  · rw [heq]
    exact h
  · rw [heq]
    exact h.declare cap ext

/-- Choices list no entry twice. -/
theorem distinct_foldl_choose {d : Declarations} (h : d.Distinct)
    (choices : List (List Capability)) : (choices.foldl (choose env) d).Distinct :=
  List.foldlRecOn choices (choose env) h fun _ h candidates _ => distinct_choose h candidates

/-- A choice that declares a capability declares one that is not declared, behind the others. -/
theorem capabilities_choose (env : Environment) (d : Declarations) (candidates : List Capability) :
    (choose env d candidates).capabilities = d.capabilities ∨
      ∃ cap ext, ¬ d.Settles candidates ∧ env.pick? candidates = some (cap, ext) ∧
        (choose env d candidates).capabilities = d.capabilities ++ [cap] := by
  rcases choose_cases env d candidates with ⟨heq, -⟩ | ⟨cap, ext, hopen, hpick, heq⟩
  · exact Or.inl (by rw [heq])
  · refine Or.inr ⟨cap, ext, hopen, hpick, ?_⟩
    have hnew : cap ∉ d.capabilities := fun hcap =>
      hopen ⟨cap, (Environment.pick?_eq_some hpick).1, hcap⟩
    rw [heq, Declarations.capabilities_declare, appendNew, if_neg hnew]

/-- Choices are declared behind everything that was declared before. -/
theorem prefix_foldl_choose (choices : List (List Capability)) (d : Declarations) :
    d.capabilities <+: (choices.foldl (choose env) d).capabilities := by
  refine List.foldlRecOn (motive := fun e => d.capabilities <+: e.capabilities) choices
    (choose env) (List.prefix_refl _) fun e h candidates _ => h.trans ?_
  rcases capabilities_choose env e candidates with heq | ⟨cap, ext, -, -, heq⟩
  · exact ⟨[], by rw [List.append_nil, heq]⟩
  · rw [heq]
    exact List.prefix_append _ _

/-- A capability is what one of some candidates stands for behind some earlier capabilities: no
candidate is among these, and of the candidates that the target can use it is the first. -/
structure Chosen (env : Environment) (earlier : List Capability) (cap : Capability)
    (candidates : List Capability) : Prop where
  first_usable : candidates.find? (fun c => (env.usable? c).isSome) = some cap
  unsettled : ∀ c ∈ candidates, c ∉ earlier

/-- What is declared by making choices was chosen for one of them. -/
theorem chosen_of_foldl_choose {choices : List (List Capability)} {d : Declarations}
    {earlier later : List Capability} {cap : Capability}
    (h : (choices.foldl (choose env) d).capabilities = earlier ++ cap :: later)
    (hnew : cap ∉ d.capabilities) : ∃ candidates ∈ choices, Chosen env earlier cap candidates := by
  -- The last choice either declared the capability itself or stands behind it.
  induction choices using List.reverseRecOn generalizing later with
  | nil =>
      rw [List.foldl_nil] at h
      exact absurd (h ▸ List.mem_append_right _ List.mem_cons_self) hnew
  | append_singleton init last ih =>
      rw [List.foldl_append, List.foldl_cons, List.foldl_nil] at h
      have hinit {rest : List Capability}
          (h : (init.foldl (choose env) d).capabilities = earlier ++ cap :: rest) :
          ∃ candidates ∈ init ++ [last], Chosen env earlier cap candidates := by
        obtain ⟨candidates, hmem, hchosen⟩ := ih h
        exact ⟨candidates, List.mem_append_left _ hmem, hchosen⟩
      rcases capabilities_choose env (init.foldl (choose env) d) last with
        heq | ⟨picked, ext, hopen, hpick, heq⟩
      · exact hinit (heq.symm.trans h)
      · rw [heq] at h
        rcases List.eq_nil_or_concat later with rfl | ⟨rest, final, rfl⟩
        · obtain ⟨rfl, hpicked⟩ := List.append_inj' h rfl
          cases hpicked
          refine ⟨last, by simp, Environment.find?_usable_of_pick? hpick, fun c hc hearlier => ?_⟩
          exact hopen ⟨c, hc, hearlier⟩
        · rw [List.concat_eq_append, ← List.cons_append, ← List.append_assoc] at h
          exact hinit (List.append_inj' h rfl).1

/-- What is declared by making choices is a candidate of its choice. -/
theorem Chosen.mem {earlier candidates : List Capability} {cap : Capability}
    (h : Chosen env earlier cap candidates) : cap ∈ candidates :=
  List.mem_of_find?_eq_some h.first_usable

/-- Making choices adds the extensions that declared capabilities need and no others. -/
theorem extension_of_foldl_choose {choices : List (List Capability)} {d : Declarations}
    {ext : Extension} (h : ext ∈ (choices.foldl (choose env) d).extensions) :
    ext ∈ d.extensions ∨ ∃ cap ∈ (choices.foldl (choose env) d).capabilities,
      env.gate cap.row = .ok (some ext) := by
  induction choices using List.reverseRecOn with
  | nil => exact Or.inl h
  | append_singleton init last ih =>
      rw [List.foldl_append, List.foldl_cons, List.foldl_nil] at h ⊢
      rcases choose_cases env (init.foldl (choose env) d) last with
        ⟨heq, -⟩ | ⟨picked, gate, -, hpick, heq⟩
      · rw [heq] at h ⊢
        exact ih h
      · rw [heq, Declarations.mem_extensions_declare] at h
        rw [heq, Declarations.capabilities_declare]
        rcases h with h | rfl
        · rcases ih h with h | ⟨cap, hcap, hgate⟩
          · exact Or.inl h
          · exact Or.inr ⟨cap, mem_appendNew.2 (Or.inl hcap), hgate⟩
        · obtain ⟨-, husable⟩ := Environment.pick?_eq_some hpick
          exact Or.inr ⟨picked, mem_appendNew.2 (Or.inr rfl),
            (Environment.usable?_eq_some_iff.1 husable).2⟩

/-! ## Finishing a run -/

/-- The finished declarations list no entry twice. -/
theorem Run.finish_distinct {c : Collector} {reqs : List Requirement} (h : Run env empty reqs c) :
    (c.finish env).Distinct :=
  distinct_foldl_choose (h.distinct Declarations.distinct_empty) _

/-- What a run declared stands in front of what is chosen at the end. -/
theorem prefix_finish (env : Environment) (c : Collector) :
    c.declared.capabilities <+: (c.finish env).capabilities :=
  prefix_foldl_choose _ _

/-- A finished capability was asked for plainly, or it was chosen for a choice of the stream. -/
theorem Run.chosen_of_finish {c : Collector} {reqs : List Requirement} (h : Run env empty reqs c)
    {earlier later : List Capability} {cap : Capability}
    (hfinish : (c.finish env).capabilities = earlier ++ cap :: later) :
    .capability cap ∈ reqs ∨
      ∃ candidates, .anyOf candidates ∈ reqs ∧ Chosen env earlier cap candidates := by
  by_cases hplain : .capability cap ∈ reqs
  · exact Or.inl hplain
  · have hnew : cap ∉ c.declared.capabilities := by
      rw [h.mem_capabilities_iff]
      exact not_or.2 ⟨nofun, hplain⟩
    rw [h.finish_eq] at hfinish
    obtain ⟨candidates, hmem, hchosen⟩ := chosen_of_foldl_choose hfinish hnew
    rw [List.mem_mergeSort, Requirement.mem_choices] at hmem
    exact Or.inr ⟨candidates, hmem, hchosen⟩

/-- A finished extension was asked for, or a finished capability needs it. -/
theorem Run.extension_of_finish {c : Collector} {reqs : List Requirement}
    (h : Run env empty reqs c) {ext : Extension} (hext : ext ∈ (c.finish env).extensions) :
    .extension ext ∈ reqs ∨
      ∃ cap ∈ (c.finish env).capabilities, env.gate cap.row = .ok (some ext) := by
  rcases extension_of_foldl_choose hext with hext | hneeded
  · rcases (h.mem_extensions_iff Declarations.gated_empty).1 hext with
      hext | hext | ⟨cap, hcap, hgate⟩
    · cases hext
    · exact Or.inl hext
    · have hdeclared := h.mem_capabilities_iff.2 (Or.inr hcap)
      exact Or.inr ⟨cap, (prefix_finish env c).subset hdeclared, hgate⟩
  · exact Or.inr hneeded

end Collector

/-! ## Units and modules -/

/-- A requirement of the stream of some instructions is one of some instruction. -/
theorem Instruction.mem_stream_iff {env : Environment} {defs : Definitions}
    {insts : List Instruction} {req : Requirement} :
    req ∈ stream env defs insts ↔ ∃ inst ∈ insts, req ∈ demands env defs inst :=
  List.mem_flatMap

/-- Where a unit resolves, no entry of its declarations is listed twice. Each capability is among
the expanded requirements of an instruction, or it was chosen for a choice among them: it is the
first candidate that the target can use, and no candidate stands before it. Each extension is among
the requirements of an instruction, or a declared capability needs it. Where a module resolves, each
entry is one of a unit, and none is listed twice. -/
theorem declarations_traceable (env : Environment) :
    (∀ (unit : CodeUnit) (defs : Definitions) (d : Declarations),
        unit.resolve env defs = .ok d →
        d.Distinct ∧
          (∀ earlier cap later, d.capabilities = earlier ++ cap :: later →
            (∃ inst ∈ unit.instructions, .capability cap ∈ inst.demands env defs) ∨
              ∃ inst ∈ unit.instructions, ∃ candidates,
                .anyOf candidates ∈ inst.demands env defs ∧
                  Collector.Chosen env earlier cap candidates) ∧
          ∀ ext ∈ d.extensions,
            (∃ inst ∈ unit.instructions, .extension ext ∈ inst.demands env defs) ∨
              ∃ cap ∈ d.capabilities, env.gate cap.row = .ok (some ext)) ∧
      ∀ (m : Module) (d : Declarations), m.resolve env = .ok d →
        d.Distinct ∧
          (∀ cap ∈ d.capabilities, ∃ unit ∈ m.units, ∃ result,
            unit.resolve env m.index.find? = .ok result ∧ cap ∈ result.capabilities) ∧
          ∀ ext ∈ d.extensions, ∃ unit ∈ m.units, ∃ result,
            unit.resolve env m.index.find? = .ok result ∧ ext ∈ result.extensions := by
  constructor
  · intro unit defs d h
    obtain ⟨-, c, hrun, rfl⟩ := CodeUnit.resolve_eq_ok_iff.1 h
    refine ⟨hrun.finish_distinct, fun earlier cap later hsplit => ?_, fun ext hext => ?_⟩
    · rcases hrun.chosen_of_finish hsplit with hplain | ⟨candidates, hmem, hchosen⟩
      · exact Or.inl (Instruction.mem_stream_iff.1 hplain)
      · obtain ⟨inst, hinst, hmem⟩ := Instruction.mem_stream_iff.1 hmem
        exact Or.inr ⟨inst, hinst, candidates, hmem, hchosen⟩
    · exact (hrun.extension_of_finish hext).imp_left Instruction.mem_stream_iff.1
  · intro m d h
    refine ⟨?_, fun cap hcap => (Module.mem_capabilities_iff h).1 hcap,
      fun ext hext => (Module.mem_extensions_iff h).1 hext⟩
    obtain ⟨results, -, rfl⟩ := Module.resolve_eq_ok_iff.1 h
    exact Declarations.distinct_mergeAll results

/-! ## A unit with two choices

On a Vulkan target of SPIR-V 1.3 the denormal mode takes an extension, and the two subgroup
variables leave choices open that share a candidate. -/

/-- A Vulkan target of SPIR-V 1.3 with two subgroup capabilities and control of denormals. -/
def Target.subgroups : Target where
  triple := "spirvv1.3-unknown-vulkan"
  addressing := .logical
  api := .vulkan
  spirv := .of 1 3
  openCl := .unspecified
  vulkan := .of 1 1
  capabilityToggles := [(.groupNonUniform, true), (.subgroupBallotKHR, true)]
  extensionToggles := [(.khrFloatControls, true)]

/-- The environment of that target. -/
def Environment.subgroups : Environment := ofTarget .subgroups

/-- A decoration of a variable as the size of the subgroup. -/
def Instruction.subgroupSize : Instruction :=
  .of .decorate none [.id ⟨0⟩, .imm 11, .imm 36]

/-- A decoration of a variable as the mask of the invocations that equal the current one. -/
def Instruction.subgroupMask : Instruction :=
  .of .decorate none [.id ⟨1⟩, .imm 11, .imm 4416]

/-- The execution mode that keeps denormals. -/
def Instruction.denormMode : Instruction :=
  .of .executionMode none [.id ⟨2⟩, .imm 4459, .imm 32]

/-- The size and the mask of the subgroup around the execution mode. -/
def CodeUnit.subgroups : CodeUnit := ⟨"main", [.subgroupSize, .denormMode, .subgroupMask]⟩

namespace Environment

/-- The target has the capabilities that it asks for: their prerequisites are among them. -/
theorem hasCapability_subgroups_iff {cap : Capability} :
    subgroups.hasCapability cap = true ↔ cap ∈ Target.subgroups.flags := by
  have hclosed : ∀ cap ∈ Capability.values, cap ∈ Target.subgroups.flags →
      ∀ p ∈ PrerequisiteGraph.standard.prerequisites cap, p ∈ Target.subgroups.flags := by
    decide +kernel
  exact hasCapability_ofTarget_iff (fun cap => hclosed cap (Capability.mem_values cap))
    fun cap _ => PrerequisiteGraph.mem_capabilities_standard cap

theorem usable?_groupNonUniform_subgroups : subgroups.usable? .groupNonUniform = some none :=
  usable?_eq_some_iff.2 ⟨hasCapability_subgroups_iff.2 (by decide), rfl⟩

theorem usable?_subgroupBallot_subgroups : subgroups.usable? .subgroupBallotKHR = some none :=
  usable?_eq_some_iff.2 ⟨hasCapability_subgroups_iff.2 (by decide), rfl⟩

theorem usable?_kernel_subgroups : subgroups.usable? .kernel = none := by
  have hkernel : ¬ subgroups.hasCapability .kernel = true :=
    mt hasCapability_subgroups_iff.1 (by decide)
  rw [usable?, if_neg hkernel]

/-- Each of the two choices can be made. -/
theorem offers_subgroupBallot {candidates : List Capability}
    (h : .subgroupBallotKHR ∈ candidates) : subgroups.Offers candidates :=
  ⟨.subgroupBallotKHR, h, by simp [usable?_subgroupBallot_subgroups]⟩

end Environment

/-- The choices of the two variables in the order in which they are made. -/
theorem Collector.mergeSort_subgroupChoices :
    [[Capability.subgroupBallotKHR, .groupNonUniformBallot],
        [.kernel, .groupNonUniform, .subgroupBallotKHR]].mergeSort precedes =
      [[.kernel, .groupNonUniform, .subgroupBallotKHR],
        [.subgroupBallotKHR, .groupNonUniformBallot]] := by
  rw [mergeSort_precedes_eq_of_perm (.swap _ _ _)]
  exact List.mergeSort_of_pairwise (by decide)

/-- Both choices are made, behind whatever leaves both open: what is picked for the first choice is
no candidate of the second, although the second pick is one of the first. -/
theorem Collector.finish_subgroups {d : Declarations}
    (hfirst : ¬ d.Settles [.kernel, .groupNonUniform, .subgroupBallotKHR])
    (hsecond : ¬ d.Settles [.subgroupBallotKHR, .groupNonUniformBallot]) :
    finish .subgroups ⟨d, [[.subgroupBallotKHR, .groupNonUniformBallot],
        [.kernel, .groupNonUniform, .subgroupBallotKHR]]⟩ =
      (d.declare .groupNonUniform none).declare .subgroupBallotKHR none := by
  have hpick : Environment.subgroups.pick? [.kernel, .groupNonUniform, .subgroupBallotKHR] =
      some (.groupNonUniform, none) := by
    simp [Environment.pick?, Environment.usable?_kernel_subgroups,
      Environment.usable?_groupNonUniform_subgroups]
  have hpick' : Environment.subgroups.pick? [.subgroupBallotKHR, .groupNonUniformBallot] =
      some (.subgroupBallotKHR, none) := by
    simp [Environment.pick?, Environment.usable?_subgroupBallot_subgroups]
  have hstill : ¬ (d.declare .groupNonUniform none).Settles
      [.subgroupBallotKHR, .groupNonUniformBallot] := by
    simpa [Declarations.Settles] using hsecond
  rw [finish_eq_foldl, mergeSort_subgroupChoices, List.foldl_cons, List.foldl_cons, List.foldl_nil,
    choose_of_pick? hfirst hpick, choose_of_pick? hstill hpick']

namespace Instruction

/-- The size of the subgroup leaves a choice. -/
theorem expandedRequirements_subgroupSize (defs : Definitions) :
    subgroupSize.expandedRequirements .subgroups defs =
      .ok [.anyOf [.kernel, .groupNonUniform, .subgroupBallotKHR]] := by
  have hrule : subgroupSize.requirements .subgroups defs =
      .ok [.anyOf [.kernel, .groupNonUniform, .subgroupBallotKHR]] :=
    show subgroupSize.decorationRequirements .subgroups 1 = _ by decide +kernel
  simp [expandedRequirements, hrule, Requirement.expandAll, Requirement.expand]

/-- The mask of the subgroup leaves a choice. -/
theorem expandedRequirements_subgroupMask (defs : Definitions) :
    subgroupMask.expandedRequirements .subgroups defs =
      .ok [.anyOf [.subgroupBallotKHR, .groupNonUniformBallot]] := by
  have hrule : subgroupMask.requirements .subgroups defs =
      .ok [.anyOf [.subgroupBallotKHR, .groupNonUniformBallot]] :=
    show subgroupMask.decorationRequirements .subgroups 1 = _ by decide +kernel
  simp [expandedRequirements, hrule, Requirement.expandAll, Requirement.expand]

/-- The execution mode takes a capability without prerequisites. -/
theorem expandedRequirements_denormMode (defs : Definitions) :
    denormMode.expandedRequirements .subgroups defs = .ok [.capability .denormPreserve] := by
  have hrule : denormMode.requirements .subgroups defs = .ok [.capability .denormPreserve] :=
    show denormMode.operandRequirements .subgroups [(1, .executionMode)] = _ by decide +kernel
  have hprerequisites : PrerequisiteGraph.standard.prerequisites .denormPreserve = [] := by
    decide +kernel
  have horder : Environment.subgroups.graph.order .denormPreserve = .ok [.denormPreserve] := by
    show PrerequisiteGraph.standard.order .denormPreserve = _
    simp [PrerequisiteGraph.order, PrerequisiteGraph.visit, hprerequisites]
  simp [expandedRequirements, hrule, Requirement.expandAll, Requirement.expand, horder, Except.map]

end Instruction

/-- What the unit declares. -/
def Declarations.subgroups : Declarations :=
  ⟨[.denormPreserve, .groupNonUniform, .subgroupBallotKHR], [.khrFloatControls]⟩

/-- The capability of the execution mode is declared first, although a choice comes before it. -/
theorem CodeUnit.resolve_subgroups (defs : Definitions) :
    CodeUnit.subgroups.resolve .subgroups defs = .ok .subgroups := by
  refine resolve_eq_ok_iff.2 ⟨?_, ⟨⟨[.denormPreserve], [.khrFloatControls]⟩,
    [[.subgroupBallotKHR, .groupNonUniformBallot],
      [.kernel, .groupNonUniform, .subgroupBallotKHR]]⟩, ?_, ?_⟩
  · simp [subgroups, Instruction.expandedRequirements_subgroupSize,
      Instruction.expandedRequirements_denormMode, Instruction.expandedRequirements_subgroupMask]
  · rw [subgroups, Instruction.stream, List.flatMap_cons, List.flatMap_cons,
      List.flatMap_singleton,
      Instruction.demands_of_eq_ok (Instruction.expandedRequirements_subgroupSize defs),
      Instruction.demands_of_eq_ok (Instruction.expandedRequirements_denormMode defs),
      Instruction.demands_of_eq_ok (Instruction.expandedRequirements_subgroupMask defs)]
    exact .cons _ _ _ _ _ (.postpone _ (by decide) (Environment.offers_subgroupBallot (by simp)))
      (.cons _ _ _ _ _ (.declare _ (some .khrFloatControls) (by decide) rfl)
        (.cons _ _ _ _ _ (.postpone _ (by decide) (Environment.offers_subgroupBallot (by simp)))
          (.nil _)))
  · rw [Collector.finish_subgroups (by decide) (by decide)]
    rfl

/-- The unit as a module. -/
def Module.subgroups : Module where
  units := [.subgroups]

theorem Module.resolve_subgroups : Module.subgroups.resolve .subgroups = .ok .subgroups := by
  refine resolve_eq_ok_iff.2 ⟨[.subgroups], ?_, rfl⟩
  rw [subgroups, List.map_singleton, CodeUnit.resolve_subgroups, List.map_singleton]

/-- The last capability of the unit stands behind two others, and the extension next to the
capability that needs it; the module adds nothing to either. -/
theorem declarations_traceable_subgroups :
    (CodeUnit.subgroups.resolve .subgroups (fun _ => none) = .ok .subgroups ∧
        Declarations.subgroups.Distinct ∧
        Declarations.subgroups.capabilities =
          [.denormPreserve, .groupNonUniform] ++ .subgroupBallotKHR :: [] ∧
        ((∃ inst ∈ CodeUnit.subgroups.instructions,
            .capability .subgroupBallotKHR ∈ inst.demands .subgroups fun _ => none) ∨
          ∃ inst ∈ CodeUnit.subgroups.instructions, ∃ candidates,
            .anyOf candidates ∈ inst.demands .subgroups (fun _ => none) ∧
              Collector.Chosen .subgroups [.denormPreserve, .groupNonUniform] .subgroupBallotKHR
                candidates) ∧
        ((∃ inst ∈ CodeUnit.subgroups.instructions,
            .extension .khrFloatControls ∈ inst.demands .subgroups fun _ => none) ∨
          ∃ cap ∈ Declarations.subgroups.capabilities,
            Environment.subgroups.gate cap.row = .ok (some .khrFloatControls))) ∧
      Module.subgroups.resolve .subgroups = .ok .subgroups ∧
        ∀ cap ∈ Declarations.subgroups.capabilities, ∃ unit ∈ Module.subgroups.units, ∃ result,
          unit.resolve .subgroups Module.subgroups.index.find? = .ok result ∧
            cap ∈ result.capabilities := by
  have hunit := CodeUnit.resolve_subgroups fun _ => none
  obtain ⟨hdistinct, hcapability, hextension⟩ :=
    (declarations_traceable .subgroups).1 _ _ _ hunit
  obtain ⟨-, hmodule, -⟩ := (declarations_traceable .subgroups).2 _ _ Module.resolve_subgroups
  exact ⟨⟨hunit, hdistinct, rfl, hcapability [.denormPreserve, .groupNonUniform] _ [] rfl,
    hextension .khrFloatControls (by decide)⟩, Module.resolve_subgroups, hmodule⟩

end SpirvLegality
