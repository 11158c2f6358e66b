import SpirvLegality.Proofs.Soundness

/-!
# What a module declares is legal

`Module.resolve_legal` says that the declarations of a module can stand on the target: each
capability passes the gate of its row, an extension that the gate names is declared as well, and
every declared extension can be used. The gates hold of every collector (`Declarations.Gated`). That
the extensions can be used rests on where they come from: a gate names only extensions of the
target, and an instruction set is importable only with the extension that it needs
(`Environment.Coherent`), which no late change touches.
-/

namespace SpirvLegality

namespace Environment

variable {env : Environment}

/-- A gate names only extensions of the target. -/
theorem hasExtension_of_gate {α : Type} {row : Enumerant α} {ext : Extension}
    (h : env.gate row = .ok (some ext)) : env.hasExtension ext = true := by
  unfold gate at h
  simp only at h
  split at h
  · split at h <;> cases h
  · split at h
    · cases h
      exact List.find?_some ‹_›
    · cases h

/-- An instruction set can be imported only where the extension that it needs can be used. -/
def Coherent (env : Environment) : Prop :=
  ∀ set, env.hasInstructionSet set = true →
    ∀ ext, set.requiredExtension = some ext → env.hasExtension ext = true

/-- A fresh environment is coherent. -/
theorem coherent_ofTarget (target : Target) (g : PrerequisiteGraph) :
    (ofTarget target g).Coherent := by
  intro set hset ext hext
  cases set with
  | openClStd | glslStd450 => cases hext
  | amdShaderTrinaryMinmax =>
      -- The target admits this set only next to the extension.
      cases hext
      by_contra hnot
      have hextension : Extension.amdShaderTrinaryMinmax ∉ target.extensions := hnot
      have hmem : InstructionSet.amdShaderTrinaryMinmax ∈ target.instructionSets := hset
      simp only [Target.instructionSets, if_neg hextension, EnumSet.mem_insert] at hmem
      rcases hmem with hmem | hmem
      · split at hmem <;> cases hmem
      · exact EnumSet.not_mem_empty _ hmem

/-- An environment stays coherent when its capabilities are changed. -/
theorem coherent_applyAll (h : env.Coherent) (changes : List Change) :
    (env.applyAll changes).Coherent := by
  simp only [Coherent, hasInstructionSet, hasExtension, applyAll_instructionSets,
    applyAll_extensions]
  exact h

end Environment

namespace Requirement

/-- Every extension among some requirements can be used. -/
def UsableExtensions (env : Environment) (reqs : List Requirement) : Prop :=
  ∀ ext, .extension ext ∈ reqs → env.hasExtension ext = true

variable {env : Environment}

theorem UsableExtensions.append {first second : List Requirement}
    (h : UsableExtensions env first) (h' : UsableExtensions env second) :
    UsableExtensions env (first ++ second) := by
  intro ext hext
  rcases List.mem_append.1 hext with hext | hext
  · exact h ext hext
  · exact h' ext hext

theorem usableExtensions_map_capability (caps : List Capability) :
    UsableExtensions env (caps.map .capability) := by
  intro ext hext
  simp at hext

/-- Expanding a requirement by prerequisites adds no extension. -/
theorem expand_usableExtensions {g : PrerequisiteGraph} {req : Requirement}
    {all : List Requirement} (h : req.expand g = .ok all) (hreq : UsableExtensions env [req]) :
    UsableExtensions env all := by
  rcases expand_cases h with ⟨cap, caps, -, -, rfl⟩ | ⟨-, rfl⟩
  · exact usableExtensions_map_capability caps
  · exact hreq

/-- Expanding requirements by prerequisites adds no extension. -/
theorem expandAll_usableExtensions {g : PrerequisiteGraph} {reqs all : List Requirement}
    (h : expandAll g reqs = .ok all) (hreqs : UsableExtensions env reqs) :
    UsableExtensions env all := by
  induction reqs generalizing all with
  | nil =>
      cases h
      exact hreqs
  | cons req rest ih =>
      have hfirst : UsableExtensions env [req] := fun ext hext => hreqs ext (by simp_all)
      have hrest : UsableExtensions env rest := fun ext hext => hreqs ext (by simp [hext])
      obtain ⟨first, others, hexpand, hothers, rfl⟩ := expandAll_cons_eq_ok_iff.1 h
      exact (expand_usableExtensions hexpand hfirst).append (ih hothers hrest)

end Requirement

open Requirement (UsableExtensions)

/-! ## The rules -/

/-- An operand asks only for extensions that can be used. -/
theorem Family.requirements_usableExtensions {env : Environment} {family : Family} {word : UInt32}
    {reqs : List Requirement} (h : family.requirements word env = .ok reqs) :
    UsableExtensions env reqs := by
  cases hrow : family.table.get? word with
  | none =>
      rw [requirements, hrow] at h
      cases h
      intro ext hext
      cases hext
  | some row =>
      obtain ⟨gate, hgate, rfl⟩ := (requirements_eq_ok_iff hrow).1 h
      have hchoice : UsableExtensions env (choice row) := by
        intro ext hext
        unfold choice Requirement.oneOf at hext
        split at hext <;> simp [Requirement.isNothing] at hext
      refine hchoice.append fun ext hext => ?_
      have hsome : gate = some ext := by simpa using hext
      exact Environment.hasExtension_of_gate (hsome ▸ hgate)

namespace Instruction

variable {env : Environment} {inst : Instruction} {reqs : List Requirement}

/-- In a coherent environment, a rule asks only for extensions that can be used. -/
theorem requirements_usableExtensions (hcoherent : env.Coherent) {defs : Definitions}
    (h : inst.requirements env defs = .ok reqs) : UsableExtensions env reqs := by
  intro ext hext
  cases origin_of_mem_requirements h _ hext with
  | operand family word looked _ hlooked hmem =>
      exact Family.requirements_usableExtensions hlooked ext hmem
  | instructionSet set _ havailable hneeded => exact hcoherent set havailable ext hneeded

/-- In a coherent environment, the expanded requirements of an instruction name only extensions that
can be used. -/
theorem expandedRequirements_usableExtensions (hcoherent : env.Coherent) {defs : Definitions}
    (h : inst.expandedRequirements env defs = .ok reqs) : UsableExtensions env reqs := by
  obtain ⟨direct, hdirect, hexpand⟩ := expandedRequirements_eq_ok_iff.1 h
  exact Requirement.expandAll_usableExtensions hexpand
    (requirements_usableExtensions hcoherent hdirect)

end Instruction

/-! ## Declarations -/

namespace Collector

variable {env : Environment}

/-- A run along usable extensions from gated declarations declares only usable extensions. -/
theorem Run.hasExtension {c : Collector} {reqs : List Requirement} (h : Run env empty reqs c)
    (hreqs : UsableExtensions env reqs) {ext : Extension} (hext : ext ∈ c.declared.extensions) :
    env.hasExtension ext = true := by
  rcases (h.mem_extensions_iff Declarations.gated_empty).1 hext with hext | hext | ⟨cap, -, hgate⟩
  · cases hext
  · exact hreqs ext hext
  · exact Environment.hasExtension_of_gate hgate

/-- Making choices declares only usable extensions. -/
theorem hasExtension_foldl_choose {d : Declarations}
    (hd : ∀ ext ∈ d.extensions, env.hasExtension ext = true) (choices : List (List Capability)) :
    ∀ ext ∈ (choices.foldl (choose env) d).extensions, env.hasExtension ext = true := by
  refine List.foldlRecOn
    (motive := fun d => ∀ ext ∈ d.extensions, env.hasExtension ext = true)
    choices (choose env) hd fun d hd candidates _ ext hext => ?_
  rcases choose_cases env d candidates with ⟨heq, -⟩ | ⟨cap, gate, -, hpick, heq⟩
  · rw [heq] at hext
    exact hd ext hext
  · rw [heq, Declarations.mem_extensions_declare] at hext
    rcases hext with hext | rfl
    · exact hd ext hext
    · obtain ⟨-, husable⟩ := Environment.pick?_eq_some hpick
      exact Environment.hasExtension_of_gate (Environment.usable?_eq_some_iff.1 husable).2

end Collector

/-- Where a unit resolves, its capabilities are gated. -/
theorem CodeUnit.gated_of_resolve {unit : CodeUnit} {env : Environment} {defs : Definitions}
    {d : Declarations} (h : unit.resolve env defs = .ok d) : d.Gated env := by
  obtain ⟨-, c, hrun, rfl⟩ := CodeUnit.resolve_eq_ok_iff.1 h
  exact Collector.gated_foldl_choose (hrun.gated Declarations.gated_empty) _

/-- Where a unit resolves in a coherent environment, its extensions can be used. -/
theorem CodeUnit.hasExtension_of_resolve {unit : CodeUnit} {env : Environment}
    {defs : Definitions} {d : Declarations} (hcoherent : env.Coherent)
    (h : unit.resolve env defs = .ok d) : ∀ ext ∈ d.extensions, env.hasExtension ext = true := by
  obtain ⟨hderived, c, hrun, rfl⟩ := CodeUnit.resolve_eq_ok_iff.1 h
  have hstream : UsableExtensions env (Instruction.stream env defs unit.instructions) := by
    intro ext hext
    obtain ⟨inst, hinst, hext⟩ := List.mem_flatMap.1 hext
    obtain ⟨all, hall⟩ := hderived inst hinst
    rw [Instruction.demands_of_eq_ok hall] at hext
    exact Instruction.expandedRequirements_usableExtensions hcoherent hall ext hext
  exact Collector.hasExtension_foldl_choose (fun ext hext => hrun.hasExtension hstream hext) _

/-- Where a module resolves, in an environment built for any target over any graph and changed in
any way afterwards, every declared capability passes the gate of its row, an extension that the gate
names is declared as well, and every declared extension can be used. -/
theorem Module.resolve_legal {m : Module} {target : Target} {g : PrerequisiteGraph}
    {changes : List Environment.Change} {env : Environment}
    (henv : env = (Environment.ofTarget target g).applyAll changes) {d : Declarations}
    (h : m.resolve env = .ok d) :
    (∀ cap ∈ d.capabilities, ∃ gate, env.gate cap.row = .ok gate ∧
        ∀ ext, gate = some ext → ext ∈ d.extensions) ∧
      ∀ ext ∈ d.extensions, env.hasExtension ext = true := by
  have hcoherent : env.Coherent := by
    rw [henv]
    exact Environment.coherent_applyAll (Environment.coherent_ofTarget target g) changes
  constructor
  · intro cap hcap
    obtain ⟨unit, hunit, result, hresult, hcap⟩ := (Module.mem_capabilities_iff h).1 hcap
    obtain ⟨gate, hgate, hmem⟩ := CodeUnit.gated_of_resolve hresult cap hcap
    have hwithin := Module.within_of_resolve_unit h hunit hresult
    exact ⟨gate, hgate, fun ext hext => hwithin.extensions ext (hmem ext hext)⟩
  · intro ext hext
    obtain ⟨unit, hunit, result, hresult, hext⟩ := (Module.mem_extensions_iff h).1 hext
    exact CodeUnit.hasExtension_of_resolve hcoherent hresult ext hext

/-- On SPIR-V 1.0 the multi-view capability is declared with its extension, which can be used. -/
theorem Module.resolve_legal_multiview :
    Environment.multiview =
        (Environment.ofTarget .multiview .standard).applyAll [.enable .shader] ∧
      Module.multiview.resolve .multiview =
        .ok ⟨[.matrix, .shader, .multiView], [.khrMultiview]⟩ ∧
      (∀ cap ∈ [Capability.matrix, .shader, .multiView], ∃ gate,
        Environment.multiview.gate cap.row = .ok gate ∧
          ∀ ext, gate = some ext → ext ∈ [Extension.khrMultiview]) ∧
      ∀ ext ∈ [Extension.khrMultiview], Environment.multiview.hasExtension ext = true :=
  ⟨rfl, Module.resolve_multiview, Module.resolve_legal rfl Module.resolve_multiview⟩

end SpirvLegality
