import SpirvLegality.Proofs.FreshEnvironment
import SpirvLegality.Proofs.MissingPrerequisites

/-!
# Switching before and after construction

A capability can be switched on the target, before the environment is built, or on the environment,
whose capabilities are then brought in line with their flags. Switching on comes to the same.
Switching off does not: before construction it takes back a wish, and what is needed otherwise comes
back with the prerequisites, whereas afterwards it takes away the capability and nothing else.
`Environment.switchedEarly_eq_switchedLate_iff` says when the two agree and what they can differ in.
-/

namespace SpirvLegality

/-- The target with some more switches of capabilities in turn. -/
def Target.withCapabilities (t : Target) (switches : List (Capability × Bool)) : Target :=
  switches.foldl (fun t (cap, on) => t.withCapability cap on) t

theorem Target.flags_withCapabilities (t : Target) (switches : List (Capability × Bool)) :
    (t.withCapabilities switches).flags =
      switches.foldl (fun s (cap, on) => s.assign cap on) t.flags := by
  induction switches generalizing t with
  | nil => rfl
  | cons first rest ih =>
      obtain ⟨cap, on⟩ := first
      have hrest := ih (t.withCapability cap on)
      rwa [flags_withCapability] at hrest

/-- A Vulkan target with subgroup votes. -/
def Target.votingVulkan : Target := standardVulkan.withCapability .groupNonUniformVote true

/-- The state after the flags of some capabilities were switched in turn. -/
def Availability.setFlags (s : Availability) (switches : List (Capability × Bool)) :
    Availability :=
  { s with flagged := switches.foldl (fun s (cap, on) => s.assign cap on) s.flagged }

namespace Environment

/-- The environment of a target that some capabilities were switched on and off for. -/
def switchedEarly (t : Target) (switches : List (Capability × Bool)) : Environment :=
  ofTarget (t.withCapabilities switches)

/-- The environment of a target, in which the flags of some capabilities were switched on and off
and its capabilities were brought in line with them. -/
def switchedLate (t : Target) (switches : List (Capability × Bool)) : Environment :=
  (ofTarget t).applyAll (switches.map (fun (cap, on) => .setFlag cap on) ++ [.synchronize])

variable {t : Target} {switches : List (Capability × Bool)} {cap : Capability}

/-- Flags alone make nothing available and take nothing away. -/
theorem mem_available_setFlags_iff {env : Environment} :
    cap ∈ (env.state.setFlags switches).available ↔ env.hasCapability cap = true :=
  Iff.rfl

theorem state_applyAll_setFlag (env : Environment) (switches : List (Capability × Bool)) :
    (env.applyAll (switches.map fun (cap, on) => .setFlag cap on)).state =
      env.state.setFlags switches := by
  induction switches generalizing env with
  | nil => rfl
  | cons first rest ih => exact ih (env.setFlag first.1 first.2)

theorem state_switchedLate (t : Target) (switches : List (Capability × Bool)) :
    (switchedLate t switches).state =
      ((ofTarget t).state.setFlags switches).synchronize .standard := by
  rw [← state_applyAll_setFlag, switchedLate, applyAll, List.foldl_append]
  have hgraph : ((ofTarget t).applyAll (switches.map fun (cap, on) => .setFlag cap on)).graph =
      .standard := applyAll_graph _
  show ((applyAll _ _).state).synchronize (applyAll _ _).graph = _
  rw [hgraph]

/-- Before they are brought in line, the flags are those of the latest switches, and of what was
available for capabilities that were not switched. -/
theorem mem_flagged_setFlags_iff : cap ∈ ((ofTarget t).state.setFlags switches).flagged ↔
    latestSwitch? switches cap = some true ∨
      latestSwitch? switches cap = none ∧ (ofTarget t).hasCapability cap = true := by
  rw [← mem_flagged_ofTarget_iff PrerequisiteGraph.mem_capabilities_standard]
  exact EnumSet.mem_foldl_assign_iff switches

theorem mem_flags_withCapabilities_iff : cap ∈ (t.withCapabilities switches).flags ↔
    latestSwitch? switches cap = some true ∨ latestSwitch? switches cap = none ∧ cap ∈ t.flags := by
  rw [Target.flags_withCapabilities]
  exact EnumSet.mem_foldl_assign_iff switches

/-- A capability that the target has keeps its flag or is switched off. -/
theorem mem_flagged_setFlags_of_hasCapability (h : (ofTarget t).hasCapability cap = true)
    (hswitch : latestSwitch? switches cap ≠ some false) :
    cap ∈ ((ofTarget t).state.setFlags switches).flagged :=
  EnumSet.mem_foldl_assign_of_mem
    ((mem_flagged_ofTarget_iff PrerequisiteGraph.mem_capabilities_standard).2 h) hswitch

/-- Late switches leave available, or make available, whatever ends up flagged. -/
theorem hasCapability_switchedLate_of_flagged
    (h : cap ∈ ((ofTarget t).state.setFlags switches).flagged) :
    (switchedLate t switches).hasCapability cap = true := by
  have hsynchronized := (Availability.foldl_settle_of_flagged (g := .standard) _ h).2
    (Or.inr (PrerequisiteGraph.mem_capabilities_standard cap))
  rwa [← Availability.synchronize, ← state_switchedLate] at hsynchronized

/-- Late switches keep what the target has and was not switched off. -/
theorem hasCapability_switchedLate_of_kept (h : (ofTarget t).hasCapability cap = true)
    (hswitch : latestSwitch? switches cap ≠ some false) :
    (switchedLate t switches).hasCapability cap = true :=
  hasCapability_switchedLate_of_flagged (mem_flagged_setFlags_of_hasCapability h hswitch)

/-- What the target asks for after the switches is available after late switches as well. -/
theorem hasCapability_switchedLate_of_mem_flags (h : cap ∈ (t.withCapabilities switches).flags) :
    (switchedLate t switches).hasCapability cap = true := by
  refine hasCapability_switchedLate_of_flagged (mem_flagged_setFlags_iff.2 ?_)
  exact (mem_flags_withCapabilities_iff.1 h).imp_right fun ⟨hnone, hflag⟩ =>
    ⟨hnone, hasCapability_of_mem_flags (PrerequisiteGraph.mem_capabilities_standard cap) hflag⟩

/-- Late switches provide no more than early ones do, apart from what the target has and was not
switched off. -/
theorem hasCapability_of_switchedLate (h : (switchedLate t switches).hasCapability cap = true) :
    (switchedEarly t switches).hasCapability cap = true ∨
      (ofTarget t).hasCapability cap = true ∧ latestSwitch? switches cap ≠ some false := by
  have htable := PrerequisiteGraph.mem_capabilities_standard
  have hgrown : ((ofTarget t).state.setFlags switches).GrownBy
      (fun c => (switchedEarly t switches).hasCapability c = true)
      (switchedLate t switches).state := by
    rw [state_switchedLate]
    refine Availability.grownBy_foldl_settle (closed_ofTarget _ _) fun c _ hflagged hmissing => ?_
    -- What is flagged without being available was switched on.
    refine hasCapability_of_mem_flags (htable c) (mem_flags_withCapabilities_iff.2 (Or.inl ?_))
    exact (mem_flagged_setFlags_iff.1 hflagged).resolve_right fun hkept =>
      hmissing (mem_available_setFlags_iff.2 hkept.2)
  rcases hgrown.available cap h with hbefore | hearly
  · have hflagged : cap ∈ (switchedLate t switches).state.flagged := by
      rw [state_switchedLate]
      refine Availability.flagged_of_mem_synchronize (htable cap) ?_
      rw [← state_switchedLate]
      exact h
    rcases hgrown.flagged cap hflagged with hset | hearly
    · exact Or.inr ⟨mem_available_setFlags_iff.1 hbefore, fun hoff =>
        EnumSet.not_mem_foldl_assign hoff hset⟩
    · exact Or.inl hearly
  · exact Or.inl hearly

/-- After late switches, prerequisites are missing only where they were switched off. -/
theorem consistentUpTo_switchedLate (t : Target) (switches : List (Capability × Bool)) :
    (switchedLate t switches).state.ConsistentUpTo .standard fun cap =>
      (ofTarget t).hasCapability cap = true ∧ latestSwitch? switches cap = some false := by
  rw [state_switchedLate]
  refine Availability.ConsistentUpTo.synchronize ⟨fun c hc => ?_, fun c hc p hp => ?_⟩
  · have hbefore := mem_available_setFlags_iff.1 hc
    by_cases hoff : latestSwitch? switches c = some false
    · exact Or.inr ⟨hbefore, hoff⟩
    · exact Or.inl (mem_flagged_setFlags_of_hasCapability hbefore hoff)
  · have hclosed := closed_ofTarget t .standard c (mem_available_setFlags_iff.1 hc) p hp
    exact Or.inl (mem_available_setFlags_iff.2 hclosed)

/-- Early switches provide no more than late ones do, apart from what the target has and was
switched off. -/
theorem hasCapability_of_switchedEarly (h : (switchedEarly t switches).hasCapability cap = true) :
    (switchedLate t switches).hasCapability cap = true ∨
      (ofTarget t).hasCapability cap = true ∧ latestSwitch? switches cap = some false := by
  refine mem_of_hasCapability_ofTarget (t := fun c =>
    (switchedLate t switches).hasCapability c = true ∨
      (ofTarget t).hasCapability c = true ∧ latestSwitch? switches c = some false)
    (fun c hc p hp => ?_) (fun c hc => Or.inl (hasCapability_switchedLate_of_mem_flags hc)) h
  rcases hc with hlate | ⟨hbefore, -⟩
  · exact (consistentUpTo_switchedLate t switches).closed c hlate p hp
  · have hp := closed_ofTarget t .standard c hbefore p hp
    by_cases hoff : latestSwitch? switches p = some false
    · exact Or.inr ⟨hp, hoff⟩
    · exact Or.inl (hasCapability_switchedLate_of_kept hp hoff)

/-- Where nothing that the target has is switched off, early switches keep all of it. -/
theorem hasCapability_switchedEarly_of_kept
    (hkept : ∀ cap, (ofTarget t).hasCapability cap = true → latestSwitch? switches cap ≠ some false)
    (h : (ofTarget t).hasCapability cap = true) :
    (switchedEarly t switches).hasCapability cap = true := by
  have htable := PrerequisiteGraph.mem_capabilities_standard
  refine hasCapability_ofTarget_mono (fun c hc => ?_) (fun c _ => htable c) h
  have hswitch := hkept c (hasCapability_of_mem_flags (htable c) hc)
  rw [Target.flags_withCapabilities]
  exact EnumSet.mem_foldl_assign_of_mem hc hswitch

/-- Early and late switches agree exactly where late ones leave no prerequisite missing and early
ones keep what the target has and was not switched off. Only what the target has and was switched
off can be available after early switches alone, and just what it has and was not switched off is
available after late ones without being so after early ones. They agree where nothing that the
target has is switched off. -/
theorem switchedEarly_eq_switchedLate_iff (t : Target) (switches : List (Capability × Bool)) :
    ((∀ cap, (switchedEarly t switches).hasCapability cap =
          (switchedLate t switches).hasCapability cap) ↔
        (PrerequisiteGraph.standard.Closed fun cap =>
            (switchedLate t switches).hasCapability cap = true) ∧
          ∀ cap, (ofTarget t).hasCapability cap = true → latestSwitch? switches cap ≠ some false →
            (switchedEarly t switches).hasCapability cap = true) ∧
      (∀ cap, (switchedEarly t switches).hasCapability cap = true →
        ¬ (switchedLate t switches).hasCapability cap = true →
          (ofTarget t).hasCapability cap = true ∧ latestSwitch? switches cap = some false) ∧
      (∀ cap, ¬ (switchedEarly t switches).hasCapability cap = true →
        ((switchedLate t switches).hasCapability cap = true ↔
          (ofTarget t).hasCapability cap = true ∧ latestSwitch? switches cap ≠ some false)) ∧
      ((∀ cap, (ofTarget t).hasCapability cap = true → latestSwitch? switches cap ≠ some false) →
        ∀ cap, (switchedEarly t switches).hasCapability cap =
          (switchedLate t switches).hasCapability cap) := by
  refine ⟨⟨fun hagree => ⟨?_, ?_⟩, ?_⟩, ?_, ?_, ?_⟩
  · simp only [← hagree]
    exact closed_ofTarget _ _
  · intro cap hcap hswitch
    rw [hagree]
    exact hasCapability_switchedLate_of_kept hcap hswitch
  · rintro ⟨hclosed, hkeeps⟩ cap
    rw [Bool.eq_iff_iff]
    constructor
    · -- The late capabilities are closed, so they bound what the early flags lead to.
      exact mem_of_hasCapability_ofTarget hclosed fun c hc =>
        hasCapability_switchedLate_of_mem_flags hc
    · intro hlate
      exact (hasCapability_of_switchedLate hlate).elim id fun h => hkeeps cap h.1 h.2
  · intro cap hearly hlate
    exact (hasCapability_of_switchedEarly hearly).resolve_left hlate
  · intro cap hearly
    constructor
    · exact fun hlate => (hasCapability_of_switchedLate hlate).resolve_left hearly
    · exact fun h => hasCapability_switchedLate_of_kept h.1 h.2
  · intro hkept cap
    rw [Bool.eq_iff_iff]
    constructor
    · intro hearly
      exact (hasCapability_of_switchedEarly hearly).resolve_right fun h => hkept cap h.1 h.2
    · intro hlate
      exact (hasCapability_of_switchedLate hlate).elim id fun h =>
        hasCapability_switchedEarly_of_kept hkept h.1

/-- Without a wish for shaders, a Vulkan target has them all the same: its default capabilities
presuppose them. -/
theorem hasCapability_shader_switchedEarly :
    (switchedEarly .standardVulkan [(.shader, false)]).hasCapability .shader = true := by
  have hinput : (switchedEarly .standardVulkan [(.shader, false)]).hasCapability
      .inputAttachment = true :=
    hasCapability_of_mem_flags (PrerequisiteGraph.mem_capabilities_standard _) (by decide)
  exact closed_ofTarget _ _ _ hinput _ (by simp [prerequisites_inputAttachment])

theorem not_hasCapability_shader_switchedLate :
    ¬ (switchedLate .standardVulkan [(.shader, false)]).hasCapability .shader = true := by
  have hlate : switchedLate .standardVulkan [(.shader, false)] = withoutShader := rfl
  rw [hlate, hasCapability_withoutShader_iff]
  exact fun h => h.2 rfl

/-- Shaders that are switched off stay before construction and are gone afterwards. -/
theorem switchedLate_loses_shader :
    (switchedEarly .standardVulkan [(.shader, false)]).hasCapability .shader = true ∧
      ¬ (switchedLate .standardVulkan [(.shader, false)]).hasCapability .shader = true :=
  ⟨hasCapability_shader_switchedEarly, not_hasCapability_shader_switchedLate⟩

theorem prerequisites_groupNonUniformVote :
    PrerequisiteGraph.standard.prerequisites .groupNonUniformVote = [.groupNonUniform] := by
  decide +kernel

/-- Votes that are switched off before construction bring no subgroups along. -/
theorem not_hasCapability_groupNonUniform_votingVulkan :
    ¬ (switchedEarly .votingVulkan [(.groupNonUniformVote, false)]).hasCapability .groupNonUniform =
      true := by
  intro h
  have hflags : ∀ cap ∈
      (Target.votingVulkan.withCapabilities [(.groupNonUniformVote, false)]).flags,
        cap ∈ Target.standardVulkan.flags := by
    intro cap hcap
    rw [Target.flags_withCapabilities, Target.votingVulkan, Target.flags_withCapability] at hcap
    simp only [List.foldl_cons, List.foldl_nil, EnumSet.mem_assign] at hcap
    split at hcap
    · cases hcap
    · exact hcap
  have hstandard : (ofTarget .standardVulkan).hasCapability .groupNonUniform = true :=
    hasCapability_ofTarget_mono hflags
      (fun cap _ => PrerequisiteGraph.mem_capabilities_standard cap) h
  exact absurd (mem_flags_of_hasCapability_standardVulkan hstandard) (by decide)

/-- Shaders are available after early switches alone, and the subgroups behind votes after late ones
alone; switching geometry on comes to the same. -/
theorem switchedEarly_eq_switchedLate_iff_standardVulkan :
    ((ofTarget .standardVulkan).hasCapability .shader = true ∧
        latestSwitch? [(Capability.shader, false)] .shader = some false) ∧
      (switchedLate .votingVulkan [(.groupNonUniformVote, false)]).hasCapability .groupNonUniform =
        true ∧
      (∀ cap, (ofTarget .standardVulkan).hasCapability cap = true →
        latestSwitch? [(Capability.geometry, true)] cap ≠ some false) ∧
      ∀ cap, (switchedEarly .standardVulkan [(.geometry, true)]).hasCapability cap =
        (switchedLate .standardVulkan [(.geometry, true)]).hasCapability cap := by
  have honlyEarly :=
    (switchedEarly_eq_switchedLate_iff .standardVulkan [(.shader, false)]).2.1
  have honlyLate :=
    (switchedEarly_eq_switchedLate_iff .votingVulkan [(.groupNonUniformVote, false)]).2.2.1
  have hagree :=
    (switchedEarly_eq_switchedLate_iff .standardVulkan [(.geometry, true)]).2.2.2
  have hvote : (ofTarget .votingVulkan).hasCapability .groupNonUniformVote = true :=
    hasCapability_of_mem_flags (PrerequisiteGraph.mem_capabilities_standard _) (by decide)
  have hsubgroups : (ofTarget .votingVulkan).hasCapability .groupNonUniform = true :=
    closed_ofTarget _ _ _ hvote _ (by simp [prerequisites_groupNonUniformVote])
  have hkept : ∀ cap, (ofTarget .standardVulkan).hasCapability cap = true →
      latestSwitch? [(Capability.geometry, true)] cap ≠ some false := by
    intro cap _ hoff
    rw [← List.nil_append [_], latestSwitch?_concat] at hoff
    split at hoff <;> cases hoff
  exact ⟨honlyEarly .shader hasCapability_shader_switchedEarly
      not_hasCapability_shader_switchedLate,
    (honlyLate .groupNonUniform not_hasCapability_groupNonUniform_votingVulkan).2
      ⟨hsubgroups, by decide⟩, hkept, hagree hkept⟩

end Environment

end SpirvLegality
