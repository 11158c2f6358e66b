import SpirvLegality.Proofs.Availability
import SpirvLegality.Proofs.Traceability
import SpirvLegality.Proofs.Widening
import Mathlib.Logic.Relation

/-!
# Upgrading a target

An upgrade raises pinned versions, turns features of the profile on, and switches capabilities and
extensions on, as often as one likes (`Target.Upgrade`). The target keeps what it could use, and the
units that resolved still resolve (`Target.upgrade_preserves`). The defaults and the switches only
grow with each step (`Target.UpgradeStep.within`), and a larger target makes a wider environment.
-/

namespace SpirvLegality

/-- A pinned version may be raised to a higher one and to the one that stands for "any". -/
def Version.RaisedTo (v w : Version) : Prop :=
  v.isUnspecified = false ∧ (w.isUnspecified = true ∨ v.bits < w.bits)

/-- A raised version reaches every threshold that the pinned one reaches. -/
theorem Version.RaisedTo.atLeast {v w threshold : Version} (h : v.RaisedTo w)
    (hv : v.atLeast threshold = true) : w.atLeast threshold = true := by
  obtain ⟨hpinned, hraised⟩ := h
  simp only [Version.atLeast, Bool.or_eq_true, decide_eq_true_eq, hpinned, Bool.false_eq_true,
    false_or] at hv ⊢
  exact hraised.imp_right fun hlt => UInt32.le_trans hv (UInt32.le_of_lt hlt)

/-- Switching values on and off keeps an inclusion. -/
theorem EnumSet.foldl_assign_mono {α : Type} [DecidableEq α] {s t : EnumSet α}
    (h : ∀ a ∈ s, a ∈ t) (toggles : List (α × Bool)) :
    ∀ a ∈ toggles.foldl (fun s (a, on) => s.assign a on) s,
      a ∈ toggles.foldl (fun s (a, on) => s.assign a on) t := by
  induction toggles generalizing s t with
  | nil => exact h
  | cons toggle rest ih =>
      refine ih fun a ha => ?_
      rw [mem_assign] at ha ⊢
      split at ha
      · rwa [if_pos ‹_›]
      · rw [if_neg ‹_›]
        exact h a ha

/-- A default condition that holds is not lost with higher versions and more features. -/
theorem DefaultCondition.holds_mono {t other : Target} (hapi : other.api = t.api)
    (hspirv : ∀ v, t.spirv.atLeast v = true → other.spirv.atLeast v = true)
    (hopenCl : ∀ v, t.openCl.atLeast v = true → other.openCl.atLeast v = true)
    (hfull : t.fullProfile = true → other.fullProfile = true)
    (himage : t.imageSupport = true → other.imageSupport = true) (condition : DefaultCondition)
    (h : condition.holds t = true) : condition.holds other = true := by
  have hvulkan : other.isVulkan = t.isVulkan := by rw [Target.isVulkan, Target.isVulkan, hapi]
  cases condition <;> simp only [holds, hvulkan, Bool.and_eq_true] at h ⊢
  case vulkan | notVulkan => exact h
  case fullProfile => exact ⟨h.1, hfull h.2⟩
  case imageSupport => exact ⟨h.1, himage h.2⟩
  case readWriteImages => exact ⟨⟨h.1.1, himage h.1.2⟩, hopenCl _ h.2⟩
  case pipeStorage => exact ⟨⟨h.1.1, hspirv _ h.1.2⟩, hopenCl _ h.2⟩

namespace Target

/-! ## Steps -/

/-- One step of an upgrade. -/
inductive UpgradeStep (t : Target) : Target → Prop where
  | spirv (v) : t.spirv.RaisedTo v → UpgradeStep t { t with spirv := v }
  | openCl (v) : t.openCl.RaisedTo v → UpgradeStep t { t with openCl := v }
  | fullProfile : UpgradeStep t { t with fullProfile := true }
  | imageSupport : UpgradeStep t { t with imageSupport := true }
  | capability (cap) : UpgradeStep t (t.withCapability cap true)
  | extension (ext) : UpgradeStep t (t.withExtension ext true)

/-- Any number of steps of an upgrade. -/
def Upgrade : Target → Target → Prop := Relation.ReflTransGen UpgradeStep

/-- The one target asks for all that the other one asks for, for the same kind of modules. -/
structure Within (t larger : Target) : Prop where
  addressing : larger.addressing = t.addressing
  api : larger.api = t.api
  atLeast : ∀ v, t.spirv.atLeast v = true → larger.spirv.atLeast v = true
  flags : ∀ cap ∈ t.flags, cap ∈ larger.flags
  extensions : ∀ ext ∈ t.extensions, ext ∈ larger.extensions

theorem Within.refl (t : Target) : t.Within t :=
  ⟨rfl, rfl, fun _ h => h, fun _ h => h, fun _ h => h⟩

theorem Within.trans {t u v : Target} (h : t.Within u) (h' : u.Within v) : t.Within v where
  addressing := h'.addressing.trans h.addressing
  api := h'.api.trans h.api
  atLeast threshold ht := h'.atLeast threshold (h.atLeast threshold ht)
  flags cap hcap := h'.flags cap (h.flags cap hcap)
  extensions ext hext := h'.extensions ext (h.extensions ext hext)

/-- A target with higher versions and more features, and with the same switches, asks for more. -/
theorem within_of_profile {t larger : Target} (haddressing : larger.addressing = t.addressing)
    (hapi : larger.api = t.api) (hcapabilities : larger.capabilityToggles = t.capabilityToggles)
    (hextensions : larger.extensionToggles = t.extensionToggles)
    (hspirv : ∀ v, t.spirv.atLeast v = true → larger.spirv.atLeast v = true)
    (hopenCl : ∀ v, t.openCl.atLeast v = true → larger.openCl.atLeast v = true)
    (hfull : t.fullProfile = true → larger.fullProfile = true)
    (himage : t.imageSupport = true → larger.imageSupport = true) : t.Within larger where
  addressing := haddressing
  api := hapi
  atLeast := hspirv
  flags := by
    rw [flags, flags, hcapabilities]
    refine EnumSet.foldl_assign_mono (fun cap hcap => ?_) t.capabilityToggles
    simp only [EnumSet.mem_def, hasByDefault, List.any_eq_true, Bool.and_eq_true] at hcap ⊢
    obtain ⟨condition, hmem, hholds, hcap⟩ := hcap
    exact ⟨condition, hmem, DefaultCondition.holds_mono hapi hspirv hopenCl hfull himage condition
      hholds, hcap⟩
  extensions ext hext := by
    rwa [extensions, defaultExtensions, isVulkan, hapi, hextensions]

/-- The latest switch of a capability decides on its flag. -/
theorem flags_withCapability (t : Target) (cap : Capability) (on : Bool) :
    (t.withCapability cap on).flags = t.flags.assign cap on :=
  List.foldl_append

theorem extensions_withExtension (t : Target) (ext : Extension) (on : Bool) :
    (t.withExtension ext on).extensions = t.extensions.assign ext on :=
  List.foldl_append

/-- No step of an upgrade takes anything away. -/
theorem UpgradeStep.within {t upgraded : Target} (h : UpgradeStep t upgraded) :
    t.Within upgraded := by
  cases h with
  | spirv v hraised =>
      exact within_of_profile rfl rfl rfl rfl (fun _ => hraised.atLeast) (fun _ h => h)
        (fun h => h) fun h => h
  | openCl v hraised =>
      exact within_of_profile rfl rfl rfl rfl (fun _ h => h) (fun _ => hraised.atLeast)
        (fun h => h) fun h => h
  | fullProfile =>
      exact within_of_profile rfl rfl rfl rfl (fun _ h => h) (fun _ h => h) (fun _ => rfl)
        fun h => h
  | imageSupport =>
      exact within_of_profile rfl rfl rfl rfl (fun _ h => h) (fun _ h => h) (fun h => h)
        fun _ => rfl
  | capability cap =>
      refine ⟨rfl, rfl, fun _ h => h, fun c hc => ?_, fun _ h => h⟩
      rw [flags_withCapability, EnumSet.mem_assign]
      split
      · rfl
      · exact hc
  | extension ext =>
      refine ⟨rfl, rfl, fun _ h => h, fun _ h => h, fun e he => ?_⟩
      rw [extensions_withExtension, EnumSet.mem_assign]
      split
      · rfl
      · exact he

/-- An upgrade takes nothing away. -/
theorem Upgrade.within {t upgraded : Target} (h : t.Upgrade upgraded) : t.Within upgraded := by
  induction h with
  | refl => exact .refl t
  | tail _ hstep ih => exact ih.trans hstep.within

/-! ## Environments -/

/-- A target imports the instruction set of its client interface, and another one where it has the
extension of that set. -/
theorem mem_instructionSets {t : Target} {set : InstructionSet} : set ∈ t.instructionSets ↔
    set = (if t.isVulkan then .glslStd450 else .openClStd) ∨
      set = .amdShaderTrinaryMinmax ∧ .amdShaderTrinaryMinmax ∈ t.extensions := by
  unfold instructionSets
  by_cases h : Extension.amdShaderTrinaryMinmax ∈ t.extensions <;> simp [h, or_comm]

/-- A target that asks for more makes a wider environment. -/
theorem Within.ofTarget {t larger : Target} (h : t.Within larger) :
    (Environment.ofTarget t).Within (Environment.ofTarget larger) where
  graph := rfl
  isLogical := by
    show larger.isLogical = t.isLogical
    rw [isLogical, isLogical, h.addressing]
  isKernel := by
    show larger.isKernel = t.isKernel
    rw [isKernel, isKernel, isOpenCl, isOpenCl, isLogical, isLogical, h.api, h.addressing]
  atLeast := h.atLeast
  hasCapability cap := Environment.hasCapability_ofTarget_mono h.flags
    fun c _ => PrerequisiteGraph.mem_capabilities_standard c
  hasExtension := h.extensions
  hasInstructionSet set hset := by
    have hmem : set ∈ larger.instructionSets := by
      rw [mem_instructionSets, isVulkan, h.api]
      exact (mem_instructionSets.1 hset).imp_right fun hset =>
        ⟨hset.1, h.extensions _ hset.2⟩
    exact hmem

/-- An upgraded target keeps its capabilities, its extensions and its instruction sets, and each
unit that resolved before the upgrade resolves after it. -/
theorem upgrade_preserves {t upgraded : Target} (h : t.Upgrade upgraded) :
    (∀ cap, (Environment.ofTarget t).hasCapability cap = true →
        (Environment.ofTarget upgraded).hasCapability cap = true) ∧
      (∀ ext, (Environment.ofTarget t).hasExtension ext = true →
        (Environment.ofTarget upgraded).hasExtension ext = true) ∧
      (∀ set, (Environment.ofTarget t).hasInstructionSet set = true →
        (Environment.ofTarget upgraded).hasInstructionSet set = true) ∧
      ∀ (unit : CodeUnit) (defs : Definitions) (d : Declarations),
        unit.resolve (Environment.ofTarget t) defs = .ok d →
          ∃ d', unit.resolve (Environment.ofTarget upgraded) defs = .ok d' := by
  have hwithin := h.within.ofTarget
  exact ⟨hwithin.hasCapability, hwithin.hasExtension, hwithin.hasInstructionSet,
    fun unit defs d hd => CodeUnit.exists_resolve_of_within hwithin hd⟩

/-- The target with subgroups, upgraded to SPIR-V 1.4 and with kernels. -/
def kernelSubgroups : Target := withCapability { subgroups with spirv := .of 1 4 } .kernel true

/-- The unit with two choices still resolves after the upgrade, although kernels can be picked now
and the execution mode needs no extension any more. -/
theorem upgrade_preserves_subgroups :
    subgroups.Upgrade kernelSubgroups ∧
      (Environment.ofTarget subgroups).hasCapability .groupNonUniform = true ∧
      (Environment.ofTarget kernelSubgroups).hasCapability .groupNonUniform = true ∧
      (Environment.ofTarget subgroups).hasExtension .khrFloatControls = true ∧
      (Environment.ofTarget kernelSubgroups).hasExtension .khrFloatControls = true ∧
      (Environment.ofTarget subgroups).hasInstructionSet .glslStd450 = true ∧
      (Environment.ofTarget kernelSubgroups).hasInstructionSet .glslStd450 = true ∧
      CodeUnit.subgroups.resolve (Environment.ofTarget subgroups) (fun _ => none) =
        .ok .subgroups ∧
      ∃ d', CodeUnit.subgroups.resolve (Environment.ofTarget kernelSubgroups) (fun _ => none) =
        .ok d' := by
  have hupgrade : subgroups.Upgrade kernelSubgroups :=
    .tail (.single (.spirv _ ⟨by decide, Or.inr (by decide)⟩)) (.capability _)
  have hcapability : (Environment.ofTarget subgroups).hasCapability .groupNonUniform = true :=
    Environment.hasCapability_subgroups_iff.2 (by decide)
  have hunit := CodeUnit.resolve_subgroups fun _ => none
  obtain ⟨hcapabilities, hextensions, hsets, hunits⟩ := upgrade_preserves hupgrade
  exact ⟨hupgrade, hcapability, hcapabilities _ hcapability, rfl, hextensions _ rfl, rfl,
    hsets _ rfl, hunit, hunits _ _ _ hunit⟩

end Target

end SpirvLegality
