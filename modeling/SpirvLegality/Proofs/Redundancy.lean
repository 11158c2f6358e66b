import SpirvLegality.Proofs.Traceability

/-!
# Redundant picks

The open choices are made one after the other, each by its first usable candidate, and no pick is
taken back. So a pick may turn out redundant: a later one can settle its choice as well
(`Collector.finish_subgroups_not_irredundant`). Only later picks can do so, and neither an earlier
one nor a capability that was asked for plainly (`Collector.settled_only_later`).
-/

namespace SpirvLegality

/-- Whether each declared capability that was not asked for plainly is needed: without it, no
candidate of some choice is declared. -/
def Declarations.Irredundant (reqs : List Requirement) (d : Declarations) : Prop :=
  ∀ cap ∈ d.capabilities, .capability cap ∉ reqs →
    ∃ candidates, .anyOf candidates ∈ reqs ∧
      ∀ other ∈ candidates, other ∉ d.capabilities.erase cap

namespace Collector

variable {env : Environment} {reqs : List Requirement} {c : Collector}

/-- What was asked for plainly stands before whatever is picked. -/
theorem Run.mem_earlier_of_plain (h : Run env empty reqs c) {earlier later : List Capability}
    {picked cap : Capability} (hfinish : (c.finish env).capabilities = earlier ++ picked :: later)
    (hpicked : .capability picked ∉ reqs) (hcap : .capability cap ∈ reqs) : cap ∈ earlier := by
  have hdeclared : cap ∈ c.declared.capabilities := h.mem_capabilities_iff.2 (Or.inr hcap)
  obtain ⟨rest, hrest⟩ := prefix_finish env c
  rcases List.append_eq_append_iff.1 (hrest.trans hfinish) with
    ⟨between, hearlier, -⟩ | ⟨between, heq, htail⟩
  · exact hearlier ▸ List.mem_append_left between hdeclared
  · -- The plain capabilities reach up to the pick, as they would contain it otherwise.
    cases between with
    | nil => simpa [heq] using hdeclared
    | cons first others =>
        cases htail
        have hmem : picked ∈ c.declared.capabilities := by simp [heq]
        exact absurd ((h.mem_capabilities_iff.1 hmem).resolve_left nofun) hpicked

/-- For each declared capability that was not asked for plainly there is a choice that it was picked
for, and what else settles that choice was picked later. -/
theorem settled_only_later (h : empty.addAll env reqs = .ok c) {earlier later : List Capability}
    {cap : Capability} (hfinish : (c.finish env).capabilities = earlier ++ cap :: later)
    (hpicked : .capability cap ∉ reqs) :
    ∃ candidates, .anyOf candidates ∈ reqs ∧ cap ∈ candidates ∧
      ∀ other ∈ candidates, other ∈ (c.finish env).capabilities.erase cap →
        other ∈ later ∧ .capability other ∉ reqs := by
  have hrun := addAll_eq_ok_iff.1 h
  obtain ⟨candidates, hmem, hchosen⟩ := (hrun.chosen_of_finish hfinish).resolve_left hpicked
  refine ⟨candidates, hmem, hchosen.mem, fun other hother herase => ?_⟩
  obtain ⟨hne, hdeclared⟩ := (hrun.finish_distinct.capabilities.mem_erase_iff).1 herase
  have hearlier : other ∉ earlier := hchosen.unsettled other hother
  constructor
  · rw [hfinish] at hdeclared
    simpa [hearlier, hne] using hdeclared
  · exact fun hplain => hearlier (hrun.mem_earlier_of_plain hfinish hpicked hplain)

end Collector

/-! ## Two choices that share a candidate -/

/-- The choices that the two subgroup variables leave. -/
def Requirement.subgroupChoices : List Requirement :=
  [.anyOf [.kernel, .groupNonUniform, .subgroupBallotKHR],
   .anyOf [.subgroupBallotKHR, .groupNonUniformBallot]]

namespace Collector

/-- The collector of these choices. -/
def subgroupChoices : Collector :=
  ⟨{}, [[.subgroupBallotKHR, .groupNonUniformBallot],
    [.kernel, .groupNonUniform, .subgroupBallotKHR]]⟩

theorem addAll_subgroupChoices :
    empty.addAll .subgroups Requirement.subgroupChoices = .ok subgroupChoices := by
  rw [addAll_eq_ok_iff]
  exact .cons _ _ _ _ _ (.postpone _ (by decide) (Environment.offers_subgroupBallot (by simp)))
    (.cons _ _ _ _ _ (.postpone _ (by decide) (Environment.offers_subgroupBallot (by simp)))
      (.nil _))

theorem finish_subgroupChoices :
    subgroupChoices.finish .subgroups = ⟨[.groupNonUniform, .subgroupBallotKHR], []⟩ := by
  rw [subgroupChoices, finish_subgroups (by decide) (by decide)]
  rfl

/-- Of the two capabilities that are picked, only the second can settle the choice of the first. -/
theorem settled_only_later_subgroups :
    empty.addAll .subgroups Requirement.subgroupChoices = .ok subgroupChoices ∧
      (subgroupChoices.finish .subgroups).capabilities =
        [] ++ .groupNonUniform :: [.subgroupBallotKHR] ∧
      .capability .groupNonUniform ∉ Requirement.subgroupChoices ∧
      ∃ candidates, .anyOf candidates ∈ Requirement.subgroupChoices ∧
        .groupNonUniform ∈ candidates ∧
          ∀ other ∈ candidates,
            other ∈ (subgroupChoices.finish .subgroups).capabilities.erase .groupNonUniform →
              other ∈ [Capability.subgroupBallotKHR] ∧
                .capability other ∉ Requirement.subgroupChoices := by
  have hsplit : (subgroupChoices.finish .subgroups).capabilities =
      [] ++ .groupNonUniform :: [.subgroupBallotKHR] := by
    rw [finish_subgroupChoices, List.nil_append]
  have hpicked : .capability .groupNonUniform ∉ Requirement.subgroupChoices := by decide
  exact ⟨addAll_subgroupChoices, hsplit, hpicked,
    settled_only_later addAll_subgroupChoices hsplit hpicked⟩

/-- The second pick settles the choice of the first, which is redundant next to it. -/
theorem finish_subgroups_not_irredundant :
    empty.addAll .subgroups Requirement.subgroupChoices = .ok subgroupChoices ∧
      ¬ (subgroupChoices.finish .subgroups).Irredundant Requirement.subgroupChoices := by
  refine ⟨addAll_subgroupChoices, fun h => ?_⟩
  rw [finish_subgroupChoices] at h
  obtain ⟨candidates, hmem, hnone⟩ := h .groupNonUniform (by decide) (by decide)
  have hballot : .subgroupBallotKHR ∈ candidates := by
    rcases List.mem_pair.1 hmem with h | h
    · cases h
      decide
    · cases h
      decide
  exact hnone .subgroupBallotKHR hballot (by decide)

end Collector

end SpirvLegality
