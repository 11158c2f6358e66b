import SpirvLegality.Proofs.History
import SpirvLegality.Proofs.Order
import SpirvLegality.Proofs.Reachability
import SpirvLegality.Proofs.ValidatedGraph

/-!
# Missing prerequisites

A fresh environment has the prerequisites of what it has. Late changes can take a capability away
from those that presuppose it, but only if its flag was switched off
(`Environment.mem_changes_of_missing`). Enabling a capability does not make up for that: the walk
stops at whatever is available, so what is missing behind an available capability stays missing
(`Environment.enable_inputAttachment_without_shader`). Otherwise enabling provides all that a
capability needs (`Environment.hasCapability_enable`).
-/

namespace SpirvLegality

/-- In a state that is consistent but for what was lost, an available capability has all that it
needs, except what is needed by a missing one that was lost, and that one itself. -/
theorem Availability.ConsistentUpTo.available_of_needs {g : PrerequisiteGraph}
    {lost : Capability → Prop} {s : Availability} (h : s.ConsistentUpTo g lost)
    {cap p : Capability} (hcap : cap ∈ s.available) (hneeds : g.Needs cap p) :
    p ∈ s.available ∨
      ∃ q, g.Needs cap q ∧ (q = p ∨ g.Needs q p) ∧ q ∉ s.available ∧ lost q := by
  have hdirect : ∀ {b p}, b ∈ s.available → p ∈ g.prerequisites b → p ∉ s.available → lost p :=
    fun hb hp hmissing => (h.closed _ hb _ hp).resolve_left hmissing
  rw [or_iff_not_imp_left]
  intro hmissing
  induction hneeds with
  | @single p hp => exact ⟨p, .single hp, Or.inl rfl, hmissing, hdirect hcap hp hmissing⟩
  | @tail b p hneeds hp ih =>
      by_cases hb : b ∈ s.available
      · exact ⟨p, hneeds.tail hp, Or.inl rfl, hmissing, hdirect hb hp hmissing⟩
      · obtain ⟨q, hq, hqb, hlost⟩ := ih hb
        refine ⟨q, hq, Or.inr ?_, hlost⟩
        rcases hqb with rfl | hqb
        · exact .single hp
        · exact hqb.tail hp

namespace Environment

variable {env : Environment} {target : Target} {g : PrerequisiteGraph}

/-- A change loses no more than the capability whose flag it switches off. -/
theorem consistentUpTo_apply {lost : Capability → Prop} (hgraph : env.graph = g)
    (h : env.state.ConsistentUpTo g lost) (change : Change) :
    (env.apply change).state.ConsistentUpTo g fun cap =>
      lost cap ∨ change = .setFlag cap false := by
  subst hgraph
  cases change with
  | enable cap => exact (h.enable cap).mono fun _ => Or.inl
  | setFlag cap on =>
      refine ⟨fun c hc => ?_, fun c hc p hp => (h.closed c hc p hp).imp_right Or.inl⟩
      have hassign : c ∈ env.state.flagged.assign cap on ∨ lost c ∨
          Change.setFlag cap on = .setFlag c false := by
        rw [EnumSet.mem_assign]
        by_cases heq : c = cap
        · cases on <;> simp [heq]
        · rw [if_neg heq]
          exact (h.flagged c hc).imp_right Or.inl
      exact hassign
  | synchronize => exact h.synchronize.mono fun _ => Or.inl

/-- Changes of a fresh environment lose no more than the capabilities whose flags they switch
off. -/
theorem consistentUpTo_applyAll (target : Target) (g : PrerequisiteGraph)
    (changes : List Change) :
    ((ofTarget target g).applyAll changes).state.ConsistentUpTo g fun cap =>
      .setFlag cap false ∈ changes := by
  induction changes using List.reverseRecOn with
  | nil => exact (consistent_ofTarget target g).upTo _
  | append_singleton init last ih =>
      have hgraph : ((ofTarget target g).applyAll init).graph = g := applyAll_graph init
      have hlast := consistentUpTo_apply hgraph ih last
      rw [applyAll, List.foldl_append]
      refine hlast.mono fun cap hlost => ?_
      rw [List.mem_append, List.mem_singleton]
      exact hlost.imp_right Eq.symm

/-- After any changes, a prerequisite of an available capability is available too, unless its flag
was switched off. -/
theorem mem_changes_of_missing {changes : List Change} {cap p : Capability}
    (hcap : ((ofTarget target g).applyAll changes).hasCapability cap = true)
    (hp : p ∈ g.prerequisites cap) :
    ((ofTarget target g).applyAll changes).hasCapability p = true ∨
      .setFlag p false ∈ changes :=
  (consistentUpTo_applyAll target g changes).closed cap hcap p hp

/-! ## Withdrawing a capability -/

/-- The environment after the flag of a capability was switched off and its capabilities were
brought in line with their flags. -/
def withdraw (env : Environment) (cap : Capability) : Environment :=
  env.applyAll [.setFlag cap false, .synchronize]

/-- Withdrawing a capability from a fresh environment takes away this one and nothing else. -/
theorem hasCapability_withdraw_iff (htable : ∀ cap, cap ∈ g.capabilities)
    {withdrawn cap : Capability} :
    ((ofTarget target g).withdraw withdrawn).hasCapability cap = true ↔
      (ofTarget target g).hasCapability cap = true ∧ cap ≠ withdrawn := by
  have hflagged : ∀ c, c ∈ ((ofTarget target g).state.setFlag withdrawn false).flagged ↔
      c ≠ withdrawn ∧ (ofTarget target g).hasCapability c = true := by
    intro c
    rw [← mem_flagged_ofTarget_iff htable]
    exact EnumSet.mem_erase
  have hsynchronize := Availability.mem_available_synchronize_iff
    (fun c hc => ((hflagged c).1 hc).2) (htable cap)
  rw [hflagged] at hsynchronize
  exact hsynchronize.trans ⟨fun h => ⟨h.1, h.2.1⟩, fun h => ⟨h.1, h.2, h.1⟩⟩

/-- The default capabilities of a Vulkan target without shaders. -/
def withoutShader : Environment := (ofTarget .standardVulkan).withdraw .shader

theorem hasCapability_withoutShader_iff {cap : Capability} :
    withoutShader.hasCapability cap = true ↔ cap ∈ Target.standardVulkan.flags ∧ cap ≠ .shader := by
  rw [withoutShader, hasCapability_withdraw_iff PrerequisiteGraph.mem_capabilities_standard]
  refine and_congr_left fun _ => ⟨mem_flags_of_hasCapability_standardVulkan, fun h => ?_⟩
  exact hasCapability_of_mem_flags (PrerequisiteGraph.mem_capabilities_standard cap) h

theorem prerequisites_inputAttachment :
    PrerequisiteGraph.standard.prerequisites .inputAttachment = [.shader] := by
  decide +kernel

/-- Input attachments stay without the shaders that they presuppose, whose flag was switched off. -/
theorem mem_changes_of_missing_shader :
    withoutShader.hasCapability .inputAttachment = true ∧
      .shader ∈ PrerequisiteGraph.standard.prerequisites .inputAttachment ∧
      ¬ withoutShader.hasCapability .shader = true ∧
      (withoutShader.hasCapability .shader = true ∨
        .setFlag .shader false ∈ [Change.setFlag .shader false, .synchronize]) := by
  have hinput : withoutShader.hasCapability .inputAttachment = true :=
    hasCapability_withoutShader_iff.2 (by decide)
  have hprerequisite : .shader ∈ PrerequisiteGraph.standard.prerequisites .inputAttachment := by
    simp [prerequisites_inputAttachment]
  exact ⟨hinput, hprerequisite, fun h => (hasCapability_withoutShader_iff.1 h).2 rfl,
    mem_changes_of_missing hinput hprerequisite⟩

/-! ## Enabling after changes -/

/-- After any changes, enabling makes a capability available, together with what it leads to along
prerequisites without passing one that was available before. Something that it needs is missing
only if a missing capability whose flag was switched off is this or needs it. -/
theorem hasCapability_enable (target : Target) (g : PrerequisiteGraph) (changes : List Change)
    (cap : Capability) :
    (((ofTarget target g).applyAll changes).enable cap).hasCapability cap = true ∧
      (∀ p, (((ofTarget target g).applyAll changes).enable cap).hasCapability p = true ↔
        ((ofTarget target g).applyAll changes).hasCapability p = true ∨
          g.LeadsTo ((ofTarget target g).applyAll changes).state.available [cap] p) ∧
      ∀ p, g.Needs cap p →
        (((ofTarget target g).applyAll changes).enable cap).hasCapability p = true ∨
          ∃ q, g.Needs cap q ∧ (q = p ∨ g.Needs q p) ∧
            ¬ (((ofTarget target g).applyAll changes).enable cap).hasCapability q = true ∧
              .setFlag q false ∈ changes := by
  have hgraph : ((ofTarget target g).applyAll changes).graph = g := applyAll_graph changes
  have hconsistent := consistentUpTo_applyAll target g changes
  refine ⟨Availability.mem_available_enable, fun p => ?_, fun p hneeds => ?_⟩
  · unfold enable
    rw [hgraph]
    exact Availability.mem_available_enableAll_iff
  · unfold enable
    rw [hgraph]
    exact (hconsistent.enable cap).available_of_needs Availability.mem_available_enable hneeds

theorem prerequisites_geometry :
    PrerequisiteGraph.standard.prerequisites .geometry = [.shader] := by
  decide +kernel

/-- Enabling geometry leads to the shaders that are missing, and what shaders need was left. -/
theorem hasCapability_enable_geometry :
    ¬ withoutShader.hasCapability .shader = true ∧
      (withoutShader.enable .geometry).hasCapability .geometry = true ∧
      (withoutShader.enable .geometry).hasCapability .shader = true ∧
      PrerequisiteGraph.standard.Needs .geometry .matrix ∧
      ((withoutShader.enable .geometry).hasCapability .matrix = true ∨
        ∃ q, PrerequisiteGraph.standard.Needs .geometry q ∧
          (q = .matrix ∨ PrerequisiteGraph.standard.Needs q .matrix) ∧
            ¬ (withoutShader.enable .geometry).hasCapability q = true ∧
              .setFlag q false ∈ [Change.setFlag .shader false, .synchronize]) := by
  have hgeometry : ¬ withoutShader.hasCapability .geometry = true :=
    mt hasCapability_withoutShader_iff.1 (by decide)
  have hshader : ¬ withoutShader.hasCapability .shader = true :=
    mt hasCapability_withoutShader_iff.1 (by decide)
  have hfirst : .shader ∈ PrerequisiteGraph.standard.prerequisites .geometry := by
    simp [prerequisites_geometry]
  have hsecond : .matrix ∈ PrerequisiteGraph.standard.prerequisites .shader := by
    simp [PrerequisiteGraph.prerequisites_shader]
  have hleads : PrerequisiteGraph.standard.LeadsTo withoutShader.state.available [.geometry]
      .shader :=
    .prerequisite (.work (by simp) hgeometry) hfirst hshader
  have hmatrix : PrerequisiteGraph.standard.Needs .geometry .matrix :=
    .tail (.single hfirst) hsecond
  obtain ⟨hself, hreached, hneeded⟩ := hasCapability_enable .standardVulkan .standard
    [.setFlag .shader false, .synchronize] .geometry
  exact ⟨hshader, hself, (hreached .shader).2 (Or.inr hleads), hmatrix, hneeded .matrix hmatrix⟩

/-- Enabling input attachments, which are available, does not bring back the shaders that they
presuppose. -/
theorem enable_inputAttachment_without_shader :
    PrerequisiteGraph.ofTable Capability.table = .ok .standard ∧
      PrerequisiteGraph.standard.Needs .inputAttachment .shader ∧
      ¬ (((ofTarget .standardVulkan).applyAll [.setFlag .shader false, .synchronize]).enable
        .inputAttachment).hasCapability .shader = true := by
  have hinput : withoutShader.hasCapability .inputAttachment = true :=
    hasCapability_withoutShader_iff.2 (by decide)
  refine ⟨PrerequisiteGraph.ofTable_standard,
    .single (by simp [prerequisites_inputAttachment]), fun h => ?_⟩
  have hshader : withoutShader.hasCapability .shader = true :=
    (Availability.mem_available_enable_of_mem hinput).1 h
  exact (hasCapability_withoutShader_iff.1 hshader).2 rfl

end Environment

end SpirvLegality
