import SpirvLegality.Proofs.Switches

/-!
# Bringing capabilities in line with their flags

One pass over the table is enough, whatever the state and the graph: afterwards a capability of the
table is available just where it is flagged (`Availability.inLine_synchronize`), and a second pass
finds nothing to do (`Availability.InLine.synchronize_eq`). The pass changes flags on its way, but
takes none back, and those that it raises belong to capabilities that it has made available
(`Availability.available_of_mem_flagged_foldl_settle`). Hence a capability that comes without having
been flagged is needed by one that was flagged and missing
(`Availability.needed_of_mem_synchronize`).
-/

namespace SpirvLegality

namespace Availability

variable {g : PrerequisiteGraph} {s : Availability}

/-- The capabilities of the graph are available just where they are flagged. -/
def InLine (g : PrerequisiteGraph) (s : Availability) : Prop :=
  ∀ cap ∈ g.capabilities, (cap ∈ s.available ↔ cap ∈ s.flagged)

/-- Bringing a capability in line with its flag raises no flag without making its capability
available. -/
theorem available_of_mem_flagged_settle (cap : Capability) {other : Capability}
    (h : other ∈ (s.settle g cap).flagged) :
    other ∈ s.flagged ∨ other ∈ (s.settle g cap).available := by
  unfold Availability.settle at h ⊢
  split at h
  · rw [if_pos ‹_›]
    split at h
    · exact Or.inl h
    · rw [if_neg ‹_›]
      exact available_of_mem_flagged_enableAll h
  · split at h <;> exact Or.inl h

/-- Bringing some capabilities in line with their flags raises no flag without making its capability
available. -/
theorem available_of_mem_flagged_foldl_settle (caps : List Capability) {cap : Capability}
    (h : cap ∈ (caps.foldl (Availability.settle g) s).flagged) :
    cap ∈ s.flagged ∨ cap ∈ (caps.foldl (Availability.settle g) s).available := by
  induction caps generalizing s with
  | nil => exact Or.inl h
  | cons first rest ih =>
      rcases ih h with hflagged | havailable
      · -- What the first step has flagged and made available stays available.
        exact (available_of_mem_flagged_settle first hflagged).imp_right fun havailable =>
          (foldl_settle_of_flagged rest hflagged).2 (Or.inl havailable)
      · exact Or.inr havailable

/-- Synchronizing brings the capabilities of the graph in line with their flags. -/
theorem inLine_synchronize (g : PrerequisiteGraph) (s : Availability) :
    (s.synchronize g).InLine g := by
  intro cap hcap
  refine ⟨flagged_of_mem_synchronize hcap, fun hflagged => ?_⟩
  rcases available_of_mem_flagged_foldl_settle g.capabilities hflagged with hbefore | havailable
  · exact (foldl_settle_of_flagged g.capabilities hbefore).2 (Or.inr hcap)
  · exact havailable

/-- A raised flag keeps a state consistent. -/
theorem Consistent.raise (h : s.Consistent g) (cap : Capability) : (s.raise cap).Consistent g :=
  ⟨fun c hc => EnumSet.mem_insert.2 (Or.inr (h.flagged c hc)), h.closed⟩

/-- A capability that is in line with its flag stays as it is. -/
theorem settle_eq_self {cap : Capability} (h : cap ∈ s.available ↔ cap ∈ s.flagged) :
    s.settle g cap = s := by
  unfold Availability.settle
  by_cases hflagged : cap ∈ s.flagged
  · rw [if_pos hflagged, if_pos (h.2 hflagged)]
  · rw [if_neg hflagged, if_neg (mt h.1 hflagged)]

/-- Synchronizing changes nothing in a state that is in line with its flags. -/
theorem InLine.synchronize_eq (h : s.InLine g) : s.synchronize g = s := by
  refine List.foldlRecOn (motive := fun next => next = s) g.capabilities _ rfl ?_
  rintro next rfl cap hcap
  exact settle_eq_self (h cap hcap)

/-- A capability of the graph that was not flagged is available after synchronization only if one
that was flagged and missing needs it. -/
theorem needed_of_mem_synchronize {cap : Capability} (hcap : cap ∈ g.capabilities)
    (hflag : cap ∉ s.flagged) (h : cap ∈ (s.synchronize g).available) :
    ∃ root ∈ s.flagged, root ∉ s.available ∧ g.Needs root cap := by
  have hgrown : s.GrownBy
      (fun c => ∃ root, (root ∈ s.flagged ∧ root ∉ s.available) ∧ (c = root ∨ g.Needs root c))
      (s.synchronize g) :=
    grownBy_foldl_settle (g.closed_needed _) fun root _ hflagged hmissing =>
      ⟨root, ⟨hflagged, hmissing⟩, Or.inl rfl⟩
  obtain ⟨root, ⟨hflagged, hmissing⟩, rfl | hneeds⟩ :=
    (hgrown.flagged cap (flagged_of_mem_synchronize hcap h)).resolve_left hflag
  · exact absurd hflagged hflag
  · exact ⟨root, hflagged, hmissing, hneeds⟩

end Availability

namespace Environment

/-- After synchronization the capabilities of the table are available just where they are flagged,
those that were flagged before are available, and one that was not is available only if one that was
flagged and missing needs it. A second synchronization changes nothing. -/
theorem synchronize_in_line (env : Environment) :
    (∀ cap ∈ env.graph.capabilities,
        (env.synchronize.hasCapability cap = true ↔ cap ∈ env.synchronize.state.flagged)) ∧
      (∀ cap ∈ env.graph.capabilities, cap ∈ env.state.flagged →
        env.synchronize.hasCapability cap = true) ∧
      (∀ cap ∈ env.graph.capabilities, cap ∉ env.state.flagged →
        env.synchronize.hasCapability cap = true →
          ∃ root ∈ env.state.flagged, ¬ env.hasCapability root = true ∧
            env.graph.Needs root cap) ∧
      env.synchronize.synchronize = env.synchronize := by
  refine ⟨Availability.inLine_synchronize env.graph env.state, fun cap hcap hflagged => ?_,
    fun cap => Availability.needed_of_mem_synchronize, ?_⟩
  · exact (Availability.foldl_settle_of_flagged env.graph.capabilities hflagged).2 (Or.inr hcap)
  · have hstate := (Availability.inLine_synchronize env.graph env.state).synchronize_eq
    show { env.synchronize with state := (env.state.synchronize env.graph).synchronize env.graph } =
      env.synchronize
    rw [hstate]
    rfl

/-- Synchronizing a consistent environment leaves no prerequisite of what it has missing. -/
theorem closed_synchronize {env : Environment} (h : env.state.Consistent env.graph) :
    env.graph.Closed fun cap => env.synchronize.hasCapability cap = true :=
  (h.upTo _).synchronize.consistent.closed

/-- A Vulkan target in which the flag of subgroup votes was switched on and not looked at yet. -/
def votesAsked : Environment := (ofTarget .standardVulkan).setFlag .groupNonUniformVote true

theorem mem_flagged_votesAsked_iff {cap : Capability} : cap ∈ votesAsked.state.flagged ↔
    cap = .groupNonUniformVote ∨ (ofTarget .standardVulkan).hasCapability cap = true := by
  rw [← mem_flagged_ofTarget_iff PrerequisiteGraph.mem_capabilities_standard]
  exact EnumSet.mem_insert

/-- Synchronizing provides the votes and the subgroups that they need, which nobody asked for. -/
theorem synchronize_in_line_votesAsked :
    .groupNonUniformVote ∈ votesAsked.graph.capabilities ∧
      .groupNonUniformVote ∈ votesAsked.state.flagged ∧
      .groupNonUniform ∈ votesAsked.graph.capabilities ∧
      .groupNonUniform ∉ votesAsked.state.flagged ∧
      votesAsked.synchronize.hasCapability .groupNonUniformVote = true ∧
      votesAsked.synchronize.hasCapability .groupNonUniform = true ∧
      .groupNonUniform ∈ votesAsked.synchronize.state.flagged ∧
      ∃ root ∈ votesAsked.state.flagged, ¬ votesAsked.hasCapability root = true ∧
        votesAsked.graph.Needs root .groupNonUniform := by
  obtain ⟨hinLine, hflagged, hneeded, -⟩ := synchronize_in_line votesAsked
  have htable : ∀ cap, cap ∈ votesAsked.graph.capabilities :=
    PrerequisiteGraph.mem_capabilities_standard
  have hasked : .groupNonUniformVote ∈ votesAsked.state.flagged :=
    mem_flagged_votesAsked_iff.2 (Or.inl rfl)
  have hnot : .groupNonUniform ∉ votesAsked.state.flagged := by
    rw [mem_flagged_votesAsked_iff]
    rintro (h | h)
    · cases h
    · exact absurd (mem_flags_of_hasCapability_standardVulkan h) (by decide)
  have hvote := hflagged _ (htable _) hasked
  have hconsistent : votesAsked.state.Consistent votesAsked.graph :=
    (consistent_ofTarget .standardVulkan .standard).raise .groupNonUniformVote
  have hneeds : .groupNonUniform ∈ votesAsked.graph.prerequisites .groupNonUniformVote :=
    prerequisites_groupNonUniformVote ▸ List.mem_singleton_self _
  have hsubgroups := closed_synchronize hconsistent _ hvote _ hneeds
  exact ⟨htable _, hasked, htable _, hnot, hvote, hsubgroups,
    (hinLine _ (htable _)).1 hsubgroups, hneeded _ (htable _) hnot hsubgroups⟩

end Environment

end SpirvLegality
