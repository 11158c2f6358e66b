import SpirvLegality.Proofs.Soundness

/-!
# The order of requirements

What depends on the order in which requirements come. Whether a stream is accepted does: a choice
that the target cannot make itself is refused unless one of its candidates was asked for plainly
*before* it. `accepts_perm_iff` says for which streams every order is as good as any other. What is
declared does not: two orders that are both accepted declare the same capabilities and extensions
(`sameMembers_of_perm`).
-/

namespace SpirvLegality

variable {env : Environment}

/-! ## Acceptance -/

namespace Collector

/-- Whether a fresh collector takes a whole stream. -/
def Accepts (env : Environment) (reqs : List Requirement) : Prop :=
  ∃ c, empty.addAll env reqs = .ok c

theorem accepts_iff_run {reqs : List Requirement} :
    Accepts env reqs ↔ ∃ c, Run env empty reqs c := by
  simp only [Accepts, addAll_eq_ok_iff]

end Collector

namespace Requirement

/-- Whether a requirement is a plain capability. -/
def isCapability : Requirement → Bool
  | .capability _ => true
  | _ => false

/-- A requirement that no order of the stream `reqs` gets granted: a capability that is not legal in
the target's version, or a choice that the target cannot make and of which no candidate is asked for
plainly. -/
def Hopeless (env : Environment) (reqs : List Requirement) : Requirement → Prop
  | .capability cap => ∃ e, env.gate cap.row = .error e
  | .anyOf candidates =>
    ¬ env.Offers candidates ∧ ∀ cap ∈ candidates, Requirement.capability cap ∉ reqs
  | .extension _ | .nothing => False

/-- Which requirements are hopeless does not depend on the order of the stream. -/
theorem hopeless_congr {reqs other : List Requirement} (hperm : reqs.Perm other)
    {req : Requirement} : req.Hopeless env reqs ↔ req.Hopeless env other := by
  cases req <;> simp only [Hopeless, hperm.mem_iff]

end Requirement

namespace Collector

/-- A stream with a hopeless requirement is refused. -/
theorem not_accepts_of_hopeless {reqs : List Requirement} {req : Requirement} (hreq : req ∈ reqs)
    (h : req.Hopeless env reqs) : ¬ Accepts env reqs := by
  rw [accepts_iff_run]
  intro h
  obtain ⟨c, hrun⟩ := h
  have hgrants := hrun.grants req hreq
  cases req with
  | capability cap =>
      obtain ⟨e, he⟩ := h
      -- It would be declared, and everything that is declared passes its gate.
      have hcap := hrun.mem_capabilities_iff.2 (Or.inr hreq)
      obtain ⟨gate, hgate, -⟩ := hrun.gated Declarations.gated_empty cap hcap
      rw [he] at hgate
      cases hgate
  | anyOf candidates =>
      obtain ⟨hoffers, habsent⟩ := h
      obtain ⟨cap, hmem, hcap⟩ := (grants_anyOf_iff.1 hgrants).resolve_right hoffers
      exact habsent cap hmem ((hrun.mem_capabilities_iff.1 hcap).resolve_left nofun)
  | extension | nothing => exact h

/-- A stream without hopeless requirements of which the target can make every choice is accepted. -/
theorem accepts_of_offers {reqs : List Requirement}
    (hoffers : ∀ candidates, .anyOf candidates ∈ reqs → env.Offers candidates)
    (h : ∀ req ∈ reqs, ¬ req.Hopeless env reqs) : Accepts env reqs := by
  refine accepts_iff_run.2 (exists_run fun req hreq => ?_)
  cases req with
  | capability cap =>
      rw [grants_capability_iff]
      cases hgate : env.gate cap.row with
      | error e => exact absurd ⟨e, hgate⟩ (h _ hreq)
      | ok ext => exact Or.inr ⟨ext, rfl⟩
  | anyOf candidates => exact grants_anyOf_iff.2 (Or.inr (hoffers candidates hreq))
  | extension ext => exact ⟨_, .extension ext⟩
  | nothing => exact ⟨_, .nothing⟩

/-- A stream without hopeless requirements is accepted when its plain capabilities come first. -/
theorem accepts_capabilities_first {reqs : List Requirement}
    (h : ∀ req ∈ reqs, ¬ req.Hopeless env reqs) :
    Accepts env (reqs.filter (·.isCapability) ++ reqs.filter (!·.isCapability)) := by
  have hfirst : Accepts env (reqs.filter (·.isCapability)) := by
    refine accepts_of_offers (fun candidates hmem => ?_) fun req hreq hhopeless => ?_
    · simp [Requirement.isCapability] at hmem
    · obtain ⟨hmem, hcapability⟩ := List.mem_filter.1 hreq
      cases req with
      | capability cap => exact h _ hmem hhopeless
      | anyOf | extension | nothing => cases hcapability
  obtain ⟨c, hrun⟩ := accepts_iff_run.1 hfirst
  have hgranted : ∀ req ∈ reqs.filter (!·.isCapability), c.Grants env req := by
    intro req hreq
    have hmem := (List.mem_filter.1 hreq).1
    cases req with
    | capability cap => simp [Requirement.isCapability] at hreq
    | anyOf candidates =>
        by_cases hplain : ∃ cap ∈ candidates, .capability cap ∈ reqs
        · -- The plain candidate is declared by now.
          obtain ⟨cap, hcap, hplain⟩ := hplain
          have hdeclared : cap ∈ c.declared.capabilities :=
            hrun.mem_capabilities_iff.2 (Or.inr (List.mem_filter.2 ⟨hplain, rfl⟩))
          exact grants_anyOf_iff.2 (Or.inl ⟨cap, hcap, hdeclared⟩)
        · have hoffers : env.Offers candidates := by
            by_contra hnot
            exact h _ hmem ⟨hnot, fun cap hcap hcapability => hplain ⟨cap, hcap, hcapability⟩⟩
          exact grants_anyOf_iff.2 (Or.inr hoffers)
    | extension ext => exact ⟨_, .extension ext⟩
    | nothing => exact ⟨_, .nothing⟩
  obtain ⟨c', hrun'⟩ := exists_run hgranted
  exact accepts_iff_run.2 ⟨c', run_append_iff.2 ⟨c, hrun, hrun'⟩⟩

/-- A choice at the start of an accepted stream is one that the target can make. -/
theorem offers_of_accepts_cons {candidates : List Capability} {rest : List Requirement}
    (h : Accepts env (.anyOf candidates :: rest)) : env.Offers candidates := by
  obtain ⟨c, hrun⟩ := accepts_iff_run.1 h
  cases hrun with
  | cons _ _ next _ _ hstep _ =>
      refine (grants_anyOf_iff.1 ⟨next, hstep⟩).resolve_left ?_
      intro h
      obtain ⟨cap, -, hcap⟩ := h
      cases hcap

/-- All orders of a stream are accepted or all are refused exactly where the target can make every
choice of the stream, or no order of the stream is accepted because of a hopeless requirement. -/
theorem accepts_perm_iff (env : Environment) (reqs : List Requirement) :
    (∀ other, reqs.Perm other → (Accepts env reqs ↔ Accepts env other)) ↔
      (∀ candidates, .anyOf candidates ∈ reqs → env.Offers candidates) ∨
        ∃ req ∈ reqs, req.Hopeless env reqs := by
  by_cases hhopeless : ∃ req ∈ reqs, req.Hopeless env reqs
  · -- Every order is refused.
    obtain ⟨req, hreq, hreqHopeless⟩ := hhopeless
    refine iff_of_true (fun other hperm => ?_) (Or.inr ⟨req, hreq, hreqHopeless⟩)
    have hother : ¬ Accepts env other := not_accepts_of_hopeless (hperm.mem_iff.1 hreq)
      ((Requirement.hopeless_congr hperm).1 hreqHopeless)
    exact iff_of_false (not_accepts_of_hopeless hreq hreqHopeless) hother
  · rw [or_iff_left hhopeless]
    simp only [not_exists, not_and] at hhopeless
    constructor
    · -- The order with the capabilities first is accepted, so the one with this choice first is.
      intro h candidates hmem
      have haccepts : Accepts env reqs :=
        (h _ (List.filter_append_perm _ reqs).symm).2 (accepts_capabilities_first hhopeless)
      exact offers_of_accepts_cons ((h _ (List.perm_cons_erase hmem)).1 haccepts)
    · intro hoffers other hperm
      refine iff_of_true (accepts_of_offers hoffers hhopeless) (accepts_of_offers ?_ ?_)
      · exact fun candidates hmem => hoffers candidates (hperm.mem_iff.2 hmem)
      · intro req hreq hother
        exact hhopeless req (hperm.mem_iff.2 hreq)
          ((Requirement.hopeless_congr hperm).2 hother)

end Collector

/-- A Vulkan target, as its triple describes it. -/
def Target.standardVulkan : Target where
  triple := "spirv-unknown-vulkan"
  addressing := .logical
  api := .vulkan
  spirv := .of 1 4
  openCl := .unspecified
  vulkan := .of 1 1

/-- On Vulkan only the default capabilities are available: they are closed under prerequisites. -/
theorem Environment.mem_flags_of_hasCapability_standardVulkan {cap : Capability}
    (h : (ofTarget .standardVulkan).hasCapability cap = true) :
    cap ∈ Target.standardVulkan.flags := by
  refine mem_of_hasCapability_ofTarget (t := (· ∈ Target.standardVulkan.flags)) ?_ (fun _ h => h) h
  have hclosed : ∀ cap ∈ Capability.values, cap ∈ Target.standardVulkan.flags →
      ∀ p ∈ PrerequisiteGraph.standard.prerequisites cap, p ∈ Target.standardVulkan.flags := by
    decide +kernel
  exact fun cap hcap => hclosed cap (Capability.mem_values cap) hcap

/-- On Vulkan neither kernels nor addresses can be used. -/
theorem Environment.not_offers_kernel_standardVulkan :
    ¬ (ofTarget .standardVulkan).Offers [.kernel, .addresses] := by
  intro h
  obtain ⟨cap, hmem, husable⟩ := h
  obtain ⟨ext, husable⟩ := Option.isSome_iff_exists.1 husable
  have hflags := mem_flags_of_hasCapability_standardVulkan (usable?_eq_some_iff.1 husable).1
  have hnone : ∀ cap ∈ [Capability.kernel, .addresses], cap ∉ Target.standardVulkan.flags := by
    decide +kernel
  exact hnone cap hmem hflags

/-- On Vulkan, a choice between kernels and addresses is accepted behind a plain requirement of
kernels and refused before it. -/
theorem Collector.accepts_kernel_order :
    [Requirement.capability .kernel, .anyOf [.kernel, .addresses]].Perm
        [.anyOf [.kernel, .addresses], .capability .kernel] ∧
      ¬ (Accepts (.ofTarget .standardVulkan)
            [.capability .kernel, .anyOf [.kernel, .addresses]] ↔
          Accepts (.ofTarget .standardVulkan)
            [.anyOf [.kernel, .addresses], .capability .kernel]) := by
  have haccepts :
      Accepts (.ofTarget .standardVulkan) [.capability .kernel, .anyOf [.kernel, .addresses]] := by
    rw [accepts_iff_run]
    exact ⟨_, .cons _ _ _ _ _ (.declare _ none nofun rfl)
      (.cons _ _ _ _ _ (.settled _ ⟨.kernel, by simp, by simp⟩) (.nil _))⟩
  refine ⟨.swap _ _ _, fun h => Environment.not_offers_kernel_standardVulkan ?_⟩
  exact offers_of_accepts_cons (h.1 haccepts)

/-! ## Declarations -/

/-- The collectors of two orders of a stream have declared the same. -/
theorem Collector.Run.declared_sameMembers {c c' : Collector} {reqs other : List Requirement}
    (h : Run env empty reqs c) (h' : Run env empty other c') (hperm : reqs.Perm other) :
    c.declared.SameMembers c'.declared := by
  constructor
  · intro cap
    rw [h.mem_capabilities_iff, h'.mem_capabilities_iff, hperm.mem_iff]
  · intro ext
    simp only [h.mem_extensions_iff Declarations.gated_empty,
      h'.mem_extensions_iff Declarations.gated_empty, hperm.mem_iff]

/-- Two orders of a stream make the same choices at the end, so they declare the same: the choices
that one order dropped and the other left open are settled in both. -/
theorem Collector.Run.finish_sameMembers {c c' : Collector}
    {reqs other : List Requirement} (h : Run env empty reqs c) (h' : Run env empty other c')
    (hperm : reqs.Perm other) : (c.finish env).SameMembers (c'.finish env) := by
  have hchoices : (Requirement.choices reqs).mergeSort precedes =
      (Requirement.choices other).mergeSort precedes :=
    mergeSort_precedes_eq_of_perm (hperm.filterMap _)
  -- `finish_eq` restores the dropped choices, so both orders make the same choices from here.
  rw [h.finish_eq, h'.finish_eq, hchoices]
  exact sameMembers_foldl_choose (h.declared_sameMembers h' hperm) _

/-- Any two orders of a stream that are both collected declare the same capabilities and the same
extensions; so do any two orders of the instructions of a unit that both resolve. -/
theorem sameMembers_of_perm (env : Environment) :
    (∀ (reqs other : List Requirement) (c c' : Collector), reqs.Perm other →
        Collector.empty.addAll env reqs = .ok c → Collector.empty.addAll env other = .ok c' →
        (c.finish env).SameMembers (c'.finish env)) ∧
      ∀ (unit other : CodeUnit) (defs : Definitions) (d d' : Declarations),
        unit.instructions.Perm other.instructions →
        unit.resolve env defs = .ok d → other.resolve env defs = .ok d' → d.SameMembers d' := by
  constructor
  · intro reqs other c c' hperm h h'
    rw [Collector.addAll_eq_ok_iff] at h h'
    exact h.finish_sameMembers h' hperm
  · intro unit other defs d d' hperm h h'
    obtain ⟨-, c, hrun, rfl⟩ := CodeUnit.resolve_eq_ok_iff.1 h
    obtain ⟨-, c', hrun', rfl⟩ := CodeUnit.resolve_eq_ok_iff.1 h'
    exact hrun.finish_sameMembers hrun' (hperm.flatMap_right _)

/-- The view index first settles the choice of the specialization constant, which is dropped. -/
theorem CodeUnit.resolve_viewIndex_first (defs : Definitions) :
    resolve ⟨"main", [.viewIndex, .specialization]⟩ .multiview defs =
      .ok ⟨[.matrix, .shader, .multiView], [.khrMultiview]⟩ := by
  refine resolve_eq_ok_iff.2 ⟨?_, ⟨⟨[.matrix, .shader, .multiView], [.khrMultiview]⟩, []⟩, ?_, ?_⟩
  · simp [Instruction.expandedRequirements_viewIndex,
      Instruction.expandedRequirements_specialization]
  · rw [Instruction.stream, List.flatMap_cons, List.flatMap_singleton,
      Instruction.demands_of_eq_ok (Instruction.expandedRequirements_viewIndex defs),
      Instruction.demands_of_eq_ok (Instruction.expandedRequirements_specialization defs)]
    exact .cons _ _ _ _ _ (.declare _ none (by decide) rfl)
      (.cons _ _ _ _ _ (.declare _ none (by decide) rfl)
        (.cons _ _ _ _ _ (.declare _ (some .khrMultiview) (by decide) rfl)
          (.cons _ _ _ _ _ (.settled _ (by decide)) (.nil _))))
  · simp [Collector.finish_eq_foldl]

/-- The view index last finds the choice of the specialization constant open and settles it. -/
theorem CodeUnit.resolve_viewIndex_last (defs : Definitions) :
    resolve ⟨"main", [.specialization, .viewIndex]⟩ .multiview defs =
      .ok ⟨[.matrix, .shader, .multiView], [.khrMultiview]⟩ := by
  refine resolve_eq_ok_iff.2 ⟨?_, ⟨⟨[.matrix, .shader, .multiView], [.khrMultiview]⟩,
    [[.shader, .kernel]]⟩, ?_, ?_⟩
  · simp [Instruction.expandedRequirements_viewIndex,
      Instruction.expandedRequirements_specialization]
  · rw [Instruction.stream, List.flatMap_cons, List.flatMap_singleton,
      Instruction.demands_of_eq_ok (Instruction.expandedRequirements_viewIndex defs),
      Instruction.demands_of_eq_ok (Instruction.expandedRequirements_specialization defs)]
    exact .cons _ _ _ _ _ (.postpone _ (by decide) Environment.offers_shader_multiview)
      (.cons _ _ _ _ _ (.declare _ none (by decide) rfl)
        (.cons _ _ _ _ _ (.declare _ none (by decide) rfl)
          (.cons _ _ _ _ _ (.declare _ (some .khrMultiview) (by decide) rfl) (.nil _))))
  · have hsettled : Declarations.Settles ⟨[.matrix, .shader, .multiView], [.khrMultiview]⟩
        [.shader, .kernel] := by decide
    rw [Collector.finish_eq_foldl, List.mergeSort_singleton, List.foldl_cons, List.foldl_nil,
      Collector.choose_of_settles hsettled]

/-- A choice that is dropped in one order and left open in the other, in a stream and in a unit. -/
theorem sameMembers_of_perm_multiview :
    ([Requirement.capability .shader, .anyOf [.shader, .kernel], .capability .matrix].Perm
          [.capability .matrix, .anyOf [.shader, .kernel], .capability .shader] ∧
        Collector.empty.addAll .multiview
            [.capability .shader, .anyOf [.shader, .kernel], .capability .matrix] =
          .ok ⟨⟨[.shader, .matrix], []⟩, []⟩ ∧
        Collector.empty.addAll .multiview
            [.capability .matrix, .anyOf [.shader, .kernel], .capability .shader] =
          .ok ⟨⟨[.matrix, .shader], []⟩, [[.shader, .kernel]]⟩ ∧
        (Collector.finish .multiview ⟨⟨[.shader, .matrix], []⟩, []⟩).SameMembers
          (Collector.finish .multiview ⟨⟨[.matrix, .shader], []⟩, [[.shader, .kernel]]⟩)) ∧
      [Instruction.viewIndex, .specialization].Perm [.specialization, .viewIndex] ∧
        CodeUnit.resolve ⟨"main", [.viewIndex, .specialization]⟩ .multiview (fun _ => none) =
          .ok ⟨[.matrix, .shader, .multiView], [.khrMultiview]⟩ ∧
        CodeUnit.resolve ⟨"main", [.specialization, .viewIndex]⟩ .multiview (fun _ => none) =
          .ok ⟨[.matrix, .shader, .multiView], [.khrMultiview]⟩ ∧
        Declarations.SameMembers ⟨[.matrix, .shader, .multiView], [.khrMultiview]⟩
          ⟨[.matrix, .shader, .multiView], [.khrMultiview]⟩ := by
  have hperm : [Requirement.capability .shader, .anyOf [.shader, .kernel],
      .capability .matrix].Perm
        [.capability .matrix, .anyOf [.shader, .kernel], .capability .shader] := by decide
  have hdropped : Collector.empty.addAll .multiview
      [.capability .shader, .anyOf [.shader, .kernel], .capability .matrix] =
        .ok ⟨⟨[.shader, .matrix], []⟩, []⟩ := by
    rw [Collector.addAll_eq_ok_iff]
    exact .cons _ _ _ _ _ (.declare _ none (by decide) rfl)
      (.cons _ _ _ _ _ (.settled _ (by decide))
        (.cons _ _ _ _ _ (.declare _ none (by decide) rfl) (.nil _)))
  have hopen : Collector.empty.addAll .multiview
      [.capability .matrix, .anyOf [.shader, .kernel], .capability .shader] =
        .ok ⟨⟨[.matrix, .shader], []⟩, [[.shader, .kernel]]⟩ := by
    rw [Collector.addAll_eq_ok_iff]
    exact .cons _ _ _ _ _ (.declare _ none (by decide) rfl)
      (.cons _ _ _ _ _ (.postpone _ (by decide) Environment.offers_shader_multiview)
        (.cons _ _ _ _ _ (.declare _ none (by decide) rfl) (.nil _)))
  have hunit := CodeUnit.resolve_viewIndex_first fun _ => none
  have hother := CodeUnit.resolve_viewIndex_last fun _ => none
  exact ⟨⟨hperm, hdropped, hopen,
      (sameMembers_of_perm .multiview).1 _ _ _ _ hperm hdropped hopen⟩,
    .swap _ _ _, hunit, hother,
    (sameMembers_of_perm .multiview).2 _ _ _ _ _ (.swap _ _ _) hunit hother⟩

end SpirvLegality
