import SpirvLegality.Proofs.Sharing
import SpirvLegality.Proofs.Synchronization

/-!
# Ways to enable capabilities

Several ways to make capabilities available come to the same. Which walk provides a capability
depends on the order in which others are enabled, because a walk stops at whatever is available by
then; what all of them provide together does not (`Availability.enableAll_congr`). Raising flags and
synchronizing enables what was flagged without being available
(`Availability.exists_enableAll_eq_foldl_settle`), hence just the capabilities whose flags were
raised, if the state was in line with its flags before (`Availability.InLine.synchronize_raised`).
Over a validated graph and from a state without missing prerequisites, the walk provides what the
order of the capability lists (`Environment.enable_adds_order`).
-/

namespace SpirvLegality

namespace Availability

variable {g : PrerequisiteGraph} {s u : Availability} {work : List Capability}

/-- Two states with the same flags and the same available capabilities are the same state. -/
theorem eq_of_mem_iff (hflagged : ∀ cap, cap ∈ s.flagged ↔ cap ∈ u.flagged)
    (havailable : ∀ cap, cap ∈ s.available ↔ cap ∈ u.available) : s = u := by
  cases s
  cases u
  exact congrArg₂ Availability.mk (EnumSet.ext hflagged) (EnumSet.ext havailable)

/-! ## Enabling one after the other -/

/-- Enabling some capabilities and then others is enabling all of them. -/
theorem enableAll_append (first second : List Capability) :
    enableAll g s (first ++ second) = enableAll g (enableAll g s first) second := by
  fun_induction enableAll g s first with
  | case1 s => rfl
  | case2 s cap rest hcap ih => rw [List.cons_append, enableAll, if_pos hcap, ih]
  | case3 s cap rest hcap ih =>
      rw [List.cons_append, enableAll, if_neg hcap, ← List.append_assoc, ih]

theorem foldl_enable (caps : List Capability) :
    caps.foldl (Availability.enable g) s = enableAll g s caps := by
  induction caps generalizing s with
  | nil => rw [List.foldl_nil, enableAll]
  | cons first rest ih =>
      rw [List.foldl_cons, ih, ← List.singleton_append, enableAll_append, Availability.enable]

/-- What enabling leads to does not depend on the order of the work, nor on how often each of its
entries occurs. -/
theorem enableAll_congr {other : List Capability} (h : ∀ cap, cap ∈ work ↔ cap ∈ other) :
    enableAll g s work = enableAll g s other := by
  refine eq_of_mem_iff (fun cap => ?_) fun cap => ?_
  · rw [mem_flagged_enableAll_iff, mem_flagged_enableAll_iff, PrerequisiteGraph.meets_congr h]
  · rw [mem_available_enableAll_iff, mem_available_enableAll_iff,
      PrerequisiteGraph.leadsTo_iff_meets, PrerequisiteGraph.leadsTo_iff_meets,
      PrerequisiteGraph.meets_congr h]

/-- Enabling what is available and flagged changes nothing. -/
theorem enableAll_eq_self (h : ∀ cap ∈ work, cap ∈ s.available ∧ cap ∈ s.flagged) :
    enableAll g s work = s := by
  induction work with
  | nil => rw [enableAll]
  | cons first rest ih =>
      obtain ⟨⟨havailable, hflagged⟩, hrest⟩ := List.forall_mem_cons.1 h
      rw [enableAll, if_pos havailable, raise, EnumSet.insert_of_mem hflagged]
      exact ih hrest

/-! ## Raising flags -/

theorem mem_flagged_foldl_raise {caps : List Capability} {cap : Capability} :
    cap ∈ (caps.foldl raise s).flagged ↔ cap ∈ caps ∨ cap ∈ s.flagged := by
  induction caps generalizing s with
  | nil => simp
  | cons first rest ih =>
      rw [List.foldl_cons, ih, raise, EnumSet.mem_insert, List.mem_cons, or_left_comm, or_assoc]

theorem available_foldl_raise (caps : List Capability) :
    (caps.foldl raise s).available = s.available :=
  List.foldlRecOn (motive := fun next => next.available = s.available) caps raise rfl
    fun _ h _ _ => (rfl : (raise _ _).available = _).trans h

/-- Enabling flags its work, so it makes no difference that this was flagged before. -/
theorem enableAll_foldl_raise (caps : List Capability) :
    enableAll g (caps.foldl raise s) caps = enableAll g s caps := by
  refine eq_of_mem_iff (fun cap => ?_) fun cap => ?_
  · rw [mem_flagged_enableAll_iff, mem_flagged_enableAll_iff, mem_flagged_foldl_raise,
      available_foldl_raise, or_assoc, or_iff_right_of_imp]
    exact fun hcap => Or.inr (Or.inl hcap)
  · rw [mem_available_enableAll_iff, mem_available_enableAll_iff, available_foldl_raise]

/-- A capability that is not available without its flag is enabled if it is flagged and missing, and
stays as it is otherwise. -/
theorem settle_cases {cap : Capability} (h : cap ∈ s.available → cap ∈ s.flagged) :
    (cap ∈ s.flagged ∧ cap ∉ s.available) ∧ s.settle g cap = enableAll g s [cap] ∨
      s.settle g cap = s := by
  by_cases hmissing : cap ∈ s.flagged ∧ cap ∉ s.available
  · refine Or.inl ⟨hmissing, ?_⟩
    rw [Availability.settle, if_pos hmissing.1, if_neg hmissing.2, Availability.enable]
  · exact Or.inr (settle_eq_self ⟨h, fun hflagged => of_not_not fun hnot =>
      hmissing ⟨hflagged, hnot⟩⟩)

/-- Where the available capabilities are flagged, apart from lost ones, bringing others than lost
ones in line with their flags enables some of those that are flagged and missing. -/
theorem exists_enableAll_eq_foldl_settle {lost : Capability → Prop} {caps : List Capability}
    (h : ∀ cap ∈ s.available, cap ∈ s.flagged ∨ lost cap) (hcaps : ∀ cap ∈ caps, ¬ lost cap) :
    ∃ work, (∀ cap ∈ work, cap ∈ caps ∧ cap ∈ s.flagged ∧ cap ∉ s.available) ∧
      caps.foldl (Availability.settle g) s = enableAll g s work := by
  induction caps generalizing s with
  | nil => exact ⟨[], by simp, by rw [List.foldl_nil, enableAll]⟩
  | cons first rest ih =>
      obtain ⟨hfirst, hrest⟩ := List.forall_mem_cons.1 hcaps
      rw [List.foldl_cons]
      rcases settle_cases (g := g) fun hav => (h first hav).resolve_right hfirst with
        ⟨hmissing, hsettle⟩ | hsettle
      · obtain ⟨work, hwork, heq⟩ := ih (flagged_enableAll (g := g) [first] h) hrest
        refine ⟨first :: work, List.forall_mem_cons.2 ⟨⟨List.mem_cons_self, hmissing⟩, ?_⟩, ?_⟩
        · intro cap hcap
          obtain ⟨hmem, hflagged, hunavailable⟩ := hwork cap hcap
          -- A flag that the first walk raised belongs to a capability that is available by now.
          exact ⟨List.mem_cons_of_mem _ hmem,
            (available_of_mem_flagged_enableAll hflagged).resolve_right hunavailable,
            fun havailable => hunavailable (mem_available_enableAll_of_mem havailable)⟩
        · rw [hsettle, heq, ← enableAll_append, List.singleton_append]
      · obtain ⟨work, hwork, heq⟩ := ih h hrest
        rw [hsettle]
        exact ⟨work, fun cap hcap => (hwork cap hcap).imp_left (List.mem_cons_of_mem _), heq⟩

/-- In a state that is in line with its flags, raising the flags of some capabilities of the graph
and synchronizing comes to enabling them. -/
theorem InLine.synchronize_raised (h : s.InLine g) {caps : List Capability}
    (hcaps : ∀ cap ∈ caps, cap ∈ g.capabilities) :
    (caps.foldl raise s).synchronize g = enableAll g s caps := by
  have hflagged : ∀ cap ∈ (caps.foldl raise s).available,
      cap ∈ (caps.foldl raise s).flagged ∨ cap ∉ g.capabilities := by
    intro cap havailable
    rw [available_foldl_raise] at havailable
    exact or_iff_not_imp_right.2 fun htable =>
      mem_flagged_foldl_raise.2 (Or.inr ((h cap (not_not.1 htable)).1 havailable))
  obtain ⟨work, hwork, heq⟩ := exists_enableAll_eq_foldl_settle (g := g) hflagged
    fun cap htable => not_not.2 htable
  have hraised : ∀ cap ∈ work, cap ∈ caps := by
    intro cap hcap
    obtain ⟨htable, hflag, hmissing⟩ := hwork cap hcap
    rw [available_foldl_raise] at hmissing
    exact (mem_flagged_foldl_raise.1 hflag).resolve_right fun hbefore =>
      hmissing ((h cap htable).2 hbefore)
  have hdone : ∀ cap ∈ caps, cap ∈ ((caps.foldl raise s).synchronize g).available ∧
      cap ∈ ((caps.foldl raise s).synchronize g).flagged := by
    intro cap hcap
    obtain ⟨hflag, havailable⟩ := foldl_settle_of_flagged (g := g) g.capabilities
      (mem_flagged_foldl_raise (s := s).2 (Or.inl hcap))
    exact ⟨havailable (Or.inr (hcaps cap hcap)), hflag⟩
  calc (caps.foldl raise s).synchronize g
    _ = enableAll g ((caps.foldl raise s).synchronize g) caps := (enableAll_eq_self hdone).symm
    _ = enableAll g (caps.foldl raise s) (work ++ caps) := by
        rw [enableAll_append, ← heq, synchronize]
    _ = enableAll g (caps.foldl raise s) caps :=
        enableAll_congr fun cap => by rw [List.mem_append, or_iff_right_of_imp (hraised cap)]
    _ = enableAll g s caps := enableAll_foldl_raise caps

/-- Where no prerequisite of an available capability is missing, enabling a capability makes it
available, together with what it needs. -/
theorem mem_available_enable_iff_of_closed (h : g.Closed (· ∈ s.available))
    {cap other : Capability} : other ∈ (s.enable g cap).available ↔
      other ∈ s.available ∨ other = cap ∨ g.Needs cap other := by
  constructor
  · intro hother
    have hgrown : s.GrownBy _ (s.enable g cap) :=
      grownBy_enableAll (g.closed_needed (· = cap)) fun c hc =>
        ⟨cap, rfl, Or.inl (List.mem_singleton.1 hc)⟩
    refine (hgrown.available other hother).imp_right ?_
    rintro ⟨root, rfl, hneeded⟩
    exact hneeded
  · have hnothing : ∀ c ∈ s.available, ∀ p ∈ g.prerequisites c,
        p ∈ s.available ∨ p ∈ [cap] ∨ False := fun c hc p hp => Or.inl (h c hc p hp)
    have hclosed : g.Closed (· ∈ (s.enable g cap).available) := fun c hc p hp =>
      (closed_enableAll hnothing c hc p hp).resolve_right id
    rintro (hother | rfl | hneeds)
    · exact mem_available_enableAll_of_mem hother
    · exact mem_available_enable
    · exact hclosed.of_needs mem_available_enable hneeds

end Availability

namespace Environment

variable {env : Environment}

theorem applyAll_enable (env : Environment) (caps : List Capability) :
    env.applyAll (caps.map .enable) =
      { env with state := Availability.enableAll env.graph env.state caps } := by
  rw [← Availability.foldl_enable]
  induction caps generalizing env with
  | nil => rfl
  | cons first rest ih => exact ih (env.enable first)

theorem applyAll_setFlag_true (env : Environment) (caps : List Capability) :
    env.applyAll (caps.map (.setFlag · true)) =
      { env with state := caps.foldl Availability.raise env.state } := by
  induction caps generalizing env with
  | nil => rfl
  | cons first rest ih => exact ih (env.setFlag first true)

/-- Enabling the same capabilities in another order, or some of them repeatedly, leads to the same
environment. Once the capabilities were brought in line with their flags, switching on the flags of
some capabilities of the table and bringing all in line again leads there as well. -/
theorem enabled_in_any_order (env : Environment) :
    (∀ caps other : List Capability, (∀ cap, cap ∈ caps ↔ cap ∈ other) →
        env.applyAll (caps.map .enable) = env.applyAll (other.map .enable)) ∧
      ∀ caps : List Capability, (∀ cap ∈ caps, cap ∈ env.graph.capabilities) →
        env.synchronize.applyAll (caps.map .enable) =
          env.synchronize.applyAll (caps.map (.setFlag · true) ++ [.synchronize]) := by
  constructor
  · intro caps other h
    rw [applyAll_enable, applyAll_enable, Availability.enableAll_congr h]
  · intro caps hcaps
    have hstate := (Availability.inLine_synchronize env.graph env.state).synchronize_raised hcaps
    calc env.synchronize.applyAll (caps.map .enable)
      _ = { env.synchronize with
            state := Availability.enableAll env.graph env.synchronize.state caps } :=
          applyAll_enable env.synchronize caps
      _ = (env.synchronize.applyAll (caps.map (.setFlag · true))).synchronize := by
          rw [applyAll_setFlag_true]
          exact congrArg (fun state => { env with state := state }) hstate.symm
      _ = env.synchronize.applyAll (caps.map (.setFlag · true) ++ [.synchronize]) := by
          rw [applyAll, applyAll, List.foldl_append]
          rfl

/-- Geometry and tessellation both need the shaders that were withdrawn, so the one that is enabled
first brings them back. Switching on the two flags does so as well. -/
theorem enabled_in_any_order_withoutShader :
    (∀ cap, cap ∈ [Capability.geometry, .tessellation] ↔
        cap ∈ [Capability.tessellation, .geometry, .tessellation]) ∧
      withoutShader.applyAll ([Capability.geometry, .tessellation].map .enable) =
        withoutShader.applyAll ([Capability.tessellation, .geometry, .tessellation].map .enable) ∧
      (∀ cap ∈ [Capability.geometry, .tessellation], cap ∈ withoutShader.graph.capabilities) ∧
      withoutShader.synchronize.applyAll ([Capability.geometry, .tessellation].map .enable) =
        withoutShader.synchronize.applyAll
          ([Capability.geometry, .tessellation].map (.setFlag · true) ++ [.synchronize]) := by
  obtain ⟨horder, hflags⟩ := enabled_in_any_order withoutShader
  have hmem : ∀ cap, cap ∈ [Capability.geometry, .tessellation] ↔
      cap ∈ [Capability.tessellation, .geometry, .tessellation] := by
    intro cap
    simp only [List.mem_cons, List.not_mem_nil, or_false]
    exact ⟨fun h => h.symm.imp_right Or.inl, fun h => h.elim Or.inr id⟩
  have htable : ∀ cap ∈ [Capability.geometry, .tessellation],
      cap ∈ withoutShader.graph.capabilities :=
    fun cap _ => PrerequisiteGraph.mem_capabilities_standard cap
  exact ⟨hmem, horder _ _ hmem, htable, hflags _ htable⟩

/-- Over a validated graph, and where no prerequisite of an available capability is missing,
enabling a capability makes available what its order lists, which walking lists as well. -/
theorem enable_adds_order {table : EnumTable Capability}
    (hvalid : PrerequisiteGraph.ofTable table = .ok env.graph)
    (hclosed : env.graph.Closed fun cap => env.hasCapability cap = true) (cap : Capability) :
    ∃ chain, env.graph.order cap = .ok chain ∧ env.graph.walkFrom cap = .ok chain ∧
      ∀ other, (env.enable cap).hasCapability other = true ↔
        env.hasCapability other = true ∨ other ∈ chain := by
  obtain ⟨chain, hchain⟩ := PrerequisiteGraph.exists_order_of_ofTable hvalid cap
  refine ⟨chain, hchain, ?_, fun other => ?_⟩
  · rw [PrerequisiteGraph.walkFrom_eq_order, hchain]
  · rw [PrerequisiteGraph.mem_order_iff hchain]
    exact Availability.mem_available_enable_iff_of_closed hclosed

/-- Enabling subgroup votes on Vulkan provides the subgroups in front of them in the order, and
nothing else. -/
theorem enable_adds_order_votes :
    PrerequisiteGraph.ofTable Capability.table = .ok (ofTarget .standardVulkan).graph ∧
      ((ofTarget .standardVulkan).graph.Closed fun cap =>
        (ofTarget .standardVulkan).hasCapability cap = true) ∧
      PrerequisiteGraph.standard.walkFrom .groupNonUniformVote =
        .ok [.groupNonUniform, .groupNonUniformVote] ∧
      ¬ (ofTarget .standardVulkan).hasCapability .groupNonUniform = true ∧
      ((ofTarget .standardVulkan).enable .groupNonUniformVote).hasCapability .groupNonUniform =
        true ∧
      ¬ ((ofTarget .standardVulkan).enable .groupNonUniformVote).hasCapability .kernel = true := by
  have hvalid : PrerequisiteGraph.ofTable Capability.table =
      .ok (ofTarget .standardVulkan).graph := PrerequisiteGraph.ofTable_standard
  have hclosed := closed_ofTarget .standardVulkan .standard
  have hsubgroups : PrerequisiteGraph.standard.prerequisites .groupNonUniform = [] := by
    decide +kernel
  have horder : PrerequisiteGraph.standard.order .groupNonUniformVote =
      .ok [.groupNonUniform, .groupNonUniformVote] := by
    simp [PrerequisiteGraph.order, PrerequisiteGraph.visit, prerequisites_groupNonUniformVote,
      hsubgroups]
  obtain ⟨chain, hchain, hwalk, hadded⟩ := enable_adds_order hvalid hclosed .groupNonUniformVote
  cases horder.symm.trans hchain
  refine ⟨hvalid, hclosed, hwalk, fun h => ?_, (hadded _).2 (Or.inr (by simp)), fun h => ?_⟩
  · exact absurd (mem_flags_of_hasCapability_standardVulkan h) (by decide)
  · have hkernel := ((hadded _).1 h).resolve_right (by simp)
    exact absurd (mem_flags_of_hasCapability_standardVulkan hkernel) (by decide)

end Environment

end SpirvLegality
