import SpirvLegality.Proofs.Upgrade
import SpirvLegality.Proofs.ValidatedGraph

/-!
# What a fresh environment contains

The capabilities of a fresh environment are those in the orders of the capabilities that the target
asks for, however the walks of the construction overlap (`Environment.ofTarget_contents`). The
latest switch of a capability or an extension decides over all earlier ones and over the default
(`EnumSet.mem_foldl_assign_iff`); a prerequisite that is switched off is available all the same.
-/

namespace SpirvLegality

/-- The latest switch of a value, where it was switched at all. -/
def latestSwitch? {α : Type} [DecidableEq α] (switches : List (α × Bool)) (a : α) : Option Bool :=
  switches.reverse.lookup a

theorem latestSwitch?_concat {α : Type} [DecidableEq α] (switches : List (α × Bool))
    (last : α × Bool) (a : α) : latestSwitch? (switches ++ [last]) a =
      if a = last.1 then some last.2 else latestSwitch? switches a := by
  rw [latestSwitch?, List.reverse_append, List.reverse_singleton, List.singleton_append,
    List.lookup_cons]
  by_cases h : a = last.1
  · simp [h]
  · rw [if_neg h, beq_false_of_ne h, latestSwitch?]

/-- The latest switch of a value decides whether it is a member, and a value that is not switched
stays as it was. -/
theorem EnumSet.mem_foldl_assign_iff {α : Type} [DecidableEq α] {s : EnumSet α}
    (switches : List (α × Bool)) {a : α} :
    a ∈ switches.foldl (fun s (a, on) => s.assign a on) s ↔
      latestSwitch? switches a = some true ∨ latestSwitch? switches a = none ∧ a ∈ s := by
  induction switches using List.reverseRecOn with
  | nil => simp [latestSwitch?]
  | append_singleton init last ih =>
      rw [List.foldl_append, List.foldl_cons, List.foldl_nil, mem_assign, latestSwitch?_concat]
      split
      · simp
      · exact ih

/-- A member that is not switched off in the end stays one. -/
theorem EnumSet.mem_foldl_assign_of_mem {α : Type} [DecidableEq α] {s : EnumSet α}
    {switches : List (α × Bool)} {a : α} (ha : a ∈ s)
    (hswitch : latestSwitch? switches a ≠ some false) :
    a ∈ switches.foldl (fun s (a, on) => s.assign a on) s := by
  rw [mem_foldl_assign_iff]
  match hlatest : latestSwitch? switches a with
  | none => exact Or.inr ⟨rfl, ha⟩
  | some true => exact Or.inl rfl
  | some false => exact absurd hlatest hswitch

/-- What is switched off in the end is no member. -/
theorem EnumSet.not_mem_foldl_assign {α : Type} [DecidableEq α] {s : EnumSet α}
    {switches : List (α × Bool)} {a : α} (hoff : latestSwitch? switches a = some false) :
    a ∉ switches.foldl (fun s (a, on) => s.assign a on) s := by
  rw [mem_foldl_assign_iff, hoff]
  nofun

namespace Target

/-- Whether a target asks for a capability: its latest switch is on, or it was not switched and the
target meets a condition that brings it. -/
def AsksFor (t : Target) (cap : Capability) : Prop :=
  latestSwitch? t.capabilityToggles cap = some true ∨
    latestSwitch? t.capabilityToggles cap = none ∧
      ∃ condition : DefaultCondition, condition.holds t = true ∧ cap ∈ condition.capabilities

theorem hasByDefault_iff {t : Target} {cap : Capability} : t.hasByDefault cap = true ↔
    ∃ condition : DefaultCondition, condition.holds t = true ∧ cap ∈ condition.capabilities := by
  have hvalues : ∀ condition : DefaultCondition, condition ∈ DefaultCondition.values := by
    intro condition
    cases condition <;> decide
  simp [hasByDefault, hvalues]

theorem mem_flags_iff {t : Target} {cap : Capability} : cap ∈ t.flags ↔ t.AsksFor cap := by
  rw [flags, EnumSet.mem_foldl_assign_iff, AsksFor, ← hasByDefault_iff]
  rfl

theorem mem_defaultExtensions_iff {t : Target} {ext : Extension} :
    ext ∈ t.defaultExtensions ↔ t.isVulkan = false ∧ ext = .khrNoIntegerWrapDecoration := by
  unfold defaultExtensions
  cases t.isVulkan <;> simp

end Target

namespace Environment

variable {target : Target} {g : PrerequisiteGraph}

/-- A fresh environment has the capabilities of the graph that its target asks for and what these
need. -/
theorem hasCapability_ofTarget_iff_needs {cap : Capability} :
    (ofTarget target g).hasCapability cap = true ↔
      ∃ root ∈ g.capabilities, target.AsksFor root ∧ (cap = root ∨ g.Needs root cap) := by
  constructor
  · intro hcap
    -- Flags of capabilities outside the graph are not looked at.
    have hgrown : (Availability.ofFlags target.flags).GrownBy
        (fun c => ∃ root, (root ∈ g.capabilities ∧ target.AsksFor root) ∧
          (c = root ∨ g.Needs root c)) (ofTarget target g).state :=
      Availability.grownBy_foldl_settle (g.closed_needed _) fun root hroot hflag _ =>
        ⟨root, ⟨hroot, Target.mem_flags_iff.1 hflag⟩, Or.inl rfl⟩
    obtain ⟨root, ⟨hroot, hasked⟩, hneeded⟩ :=
      (hgrown.available cap hcap).resolve_left (EnumSet.not_mem_empty cap)
    exact ⟨root, hroot, hasked, hneeded⟩
  · rintro ⟨root, hroot, hasked, hneeded⟩
    have havailable := hasCapability_of_mem_flags hroot (Target.mem_flags_iff.2 hasked)
    rcases hneeded with rfl | hneeds
    · exact havailable
    · exact (closed_ofTarget target g).of_needs havailable hneeds

/-- Over a validated graph, a fresh environment has the orders of all capabilities of the graph that
its target asks for and nothing else, so it has the prerequisites of what it has. Its extensions are
those of the client interface after the switches, and it can import the instruction set of an
extension just where it has the extension. -/
theorem ofTarget_contents {table : EnumTable Capability}
    (hvalid : PrerequisiteGraph.ofTable table = .ok g) (target : Target) :
    (∀ root ∈ g.capabilities, ∃ chain, g.order root = .ok chain) ∧
      (∀ cap, (ofTarget target g).hasCapability cap = true ↔
        ∃ root ∈ g.capabilities, target.AsksFor root ∧
          ∃ chain, g.order root = .ok chain ∧ cap ∈ chain) ∧
      (g.Closed fun cap => (ofTarget target g).hasCapability cap = true) ∧
      (∀ ext, (ofTarget target g).hasExtension ext = true ↔
        latestSwitch? target.extensionToggles ext = some true ∨
          latestSwitch? target.extensionToggles ext = none ∧
            target.isVulkan = false ∧ ext = .khrNoIntegerWrapDecoration) ∧
      ((ofTarget target g).hasInstructionSet .amdShaderTrinaryMinmax = true ↔
        (ofTarget target g).hasExtension .amdShaderTrinaryMinmax = true) := by
  obtain ⟨-, -, horders⟩ := PrerequisiteGraph.ofTable_eq_ok_iff.1 hvalid
  refine ⟨horders, fun cap => ?_, closed_ofTarget target g, fun ext => ?_, ?_⟩
  · rw [hasCapability_ofTarget_iff_needs]
    refine exists_congr fun root => and_congr_right fun hroot => and_congr_right fun _ => ?_
    obtain ⟨chain, hchain⟩ := horders root hroot
    rw [← PrerequisiteGraph.mem_order_iff hchain]
    constructor
    · exact fun hcap => ⟨chain, hchain, hcap⟩
    · rintro ⟨chain', hchain', hcap⟩
      cases hchain.symm.trans hchain'
      exact hcap
  · have hswitched : ext ∈ target.extensions ↔ _ :=
      EnumSet.mem_foldl_assign_iff target.extensionToggles
    rwa [Target.mem_defaultExtensions_iff] at hswitched
  · have hset : .amdShaderTrinaryMinmax ∈ target.instructionSets ↔
        .amdShaderTrinaryMinmax ∈ target.extensions := by
      rw [Target.mem_instructionSets]
      cases target.isVulkan <;> simp
    exact hset

end Environment

/-- A target without a client interface that switches multi-view on, shaders off, and the extension
of an instruction set on. -/
def Target.multiviewKernel : Target where
  triple := "spirv64-unknown-unknown"
  addressing := .physical64
  api := .unspecified
  spirv := defaultSpirv
  openCl := defaultOpenCl
  vulkan := .unspecified
  capabilityToggles := [(.shader, true), (.multiView, true), (.shader, false)]
  extensionToggles := [(.amdShaderTrinaryMinmax, true)]

/-- Shaders are available although they are switched off: multi-view presupposes them. -/
theorem Environment.ofTarget_contents_multiviewKernel :
    PrerequisiteGraph.ofTable Capability.table = .ok .standard ∧
      (∃ chain, PrerequisiteGraph.standard.order .multiView = .ok chain) ∧
      latestSwitch? Target.multiviewKernel.capabilityToggles .shader = some false ∧
      (ofTarget .multiviewKernel).hasCapability .shader = true ∧
      (ofTarget .multiviewKernel).hasCapability .matrix = true ∧
      (ofTarget .multiviewKernel).hasExtension .khrNoIntegerWrapDecoration = true ∧
      (ofTarget .multiviewKernel).hasInstructionSet .amdShaderTrinaryMinmax = true := by
  obtain ⟨horders, hcapabilities, hclosed, hextensions, hset⟩ :=
    ofTarget_contents PrerequisiteGraph.ofTable_standard .multiviewKernel
  have hmultiView := PrerequisiteGraph.mem_capabilities_standard .multiView
  obtain ⟨chain, hchain⟩ := horders .multiView hmultiView
  have hshader : (ofTarget .multiviewKernel).hasCapability .shader = true := by
    refine (hcapabilities .shader).2 ⟨.multiView, hmultiView, Or.inl (by decide), chain, hchain, ?_⟩
    rw [PrerequisiteGraph.mem_order_iff hchain]
    exact Or.inr (.single (by simp [PrerequisiteGraph.prerequisites_multiView]))
  exact ⟨PrerequisiteGraph.ofTable_standard, ⟨chain, hchain⟩, by decide, hshader,
    hclosed _ hshader _ (by simp [PrerequisiteGraph.prerequisites_shader]),
    (hextensions _).2 (by decide), hset.2 ((hextensions _).2 (by decide))⟩

end SpirvLegality
