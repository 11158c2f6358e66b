import SpirvLegality.Proofs.UnitOrder
import SpirvLegality.Proofs.Validation

/-!
# Expanding requirements again

An expansion puts the order of each capability in its place. Expanding it once more puts everything
that a capability needs in front of it for a second time. All of this was asked for before, as an
expansion comes in the order of prerequisites, and a collector passes over what is declared
(`Collector.addAll_expandAll`). So nothing depends on how often requirements are expanded: the
declarations are the same, in the same order, or the same capability is refused
(`expanded_again`).
-/

namespace SpirvLegality

namespace Requirement

variable {g : PrerequisiteGraph}

/-- Requirements behind others are expanded behind them. -/
theorem expandAll_append_eq_ok_iff {reqs others all : List Requirement} :
    expandAll g (reqs ++ others) = .ok all ↔
      ∃ first second, expandAll g reqs = .ok first ∧ expandAll g others = .ok second ∧
        first ++ second = all := by
  induction reqs generalizing all with
  | nil => simp [expandAll]
  | cons req rest ih =>
      rw [List.cons_append, expandAll_cons_eq_ok_iff]
      constructor
      · rintro ⟨first, behind, hreq, hbehind, rfl⟩
        obtain ⟨middle, second, hrest, hothers, rfl⟩ := ih.1 hbehind
        exact ⟨first ++ middle, second,
          expandAll_cons_eq_ok_iff.2 ⟨first, middle, hreq, hrest, rfl⟩, hothers,
          List.append_assoc _ _ _⟩
      · rintro ⟨before, second, hbefore, hothers, rfl⟩
        obtain ⟨first, middle, hreq, hrest, rfl⟩ := expandAll_cons_eq_ok_iff.1 hbefore
        exact ⟨first, middle ++ second, hreq, ih.2 ⟨middle, second, hrest, hothers, rfl⟩,
          (List.append_assoc _ _ _).symm⟩

end Requirement

namespace Collector

variable {env : Environment}

/-- Adding two streams is adding the first one and, unless that fails, the second one. -/
theorem addAll_append (c : Collector) (first second : List Requirement) :
    c.addAll env (first ++ second) = c.addAll env first >>= fun next => next.addAll env second := by
  induction first generalizing c with
  | nil => rfl
  | cons req rest ih =>
      rw [List.cons_append, addAll, addAll]
      cases c.add env req with
      | error e => rfl
      | ok next => exact ih next

theorem addAll_singleton (c : Collector) (req : Requirement) :
    c.addAll env [req] = c.add env req := by
  rw [addAll]
  cases c.add env req <;> rfl

/-- Adding capabilities that are declared changes nothing. -/
theorem addAll_of_declared {c : Collector} {caps : List Capability}
    (h : ∀ cap ∈ caps, cap ∈ c.declared.capabilities) :
    c.addAll env (caps.map .capability) = .ok c := by
  rw [addAll_eq_ok_iff]
  induction caps with
  | nil => exact .nil c
  | cons cap rest ih =>
      obtain ⟨hcap, hrest⟩ := List.forall_mem_cons.1 h
      exact .cons _ _ _ _ _ (.known cap hcap) (ih hrest)

/-- Where everything that a capability needs is declared, adding its order is adding the capability
alone. -/
theorem addAll_order {g : PrerequisiteGraph} {c : Collector} {cap : Capability}
    {caps : List Capability} (horder : g.order cap = .ok caps)
    (h : ∀ p, g.Needs cap p → p ∈ c.declared.capabilities) :
    c.addAll env (caps.map .capability) = c.add env (.capability cap) := by
  have hnodup := PrerequisiteGraph.nodup_order horder
  have hmem : ∀ p ∈ caps, p = cap ∨ g.Needs cap p :=
    fun p => (PrerequisiteGraph.mem_order_iff horder).1
  rw [PrerequisiteGraph.order_eq] at horder
  cases hvisit : g.visit (EnumSet.empty.insert cap) [] (g.prerequisites cap) with
  | error e =>
      rw [hvisit] at horder
      cases horder
  | ok before =>
      rw [hvisit] at horder
      cases horder
      -- The capability itself is listed once, at the end.
      have hdeclared : ∀ p ∈ before, p ∈ c.declared.capabilities := by
        intro p hp
        rcases hmem p (List.mem_append_left _ hp) with rfl | hneeds
        · exact absurd rfl ((List.nodup_append.1 hnodup).2.2 p hp p (List.mem_singleton.2 rfl))
        · exact h p hneeds
      rw [List.map_append, addAll_append, addAll_of_declared hdeclared]
      exact addAll_singleton c (.capability cap)

/-- A stream whose capabilities come in the order of prerequisites may be expanded before it is
added: a collector ends the same. -/
theorem addAll_expandAll {g : PrerequisiteGraph} {once twice : List Requirement}
    (hordered : g.Ordered (Requirement.plain once)) (h : Requirement.expandAll g once = .ok twice)
    (c : Collector) : c.addAll env twice = c.addAll env once := by
  induction once using List.reverseRecOn generalizing twice with
  | nil =>
      cases h
      rfl
  | append_singleton init req ih =>
      obtain ⟨before, last, hbefore, hlast, rfl⟩ := Requirement.expandAll_append_eq_ok_iff.1 h
      rw [Requirement.plain_append] at hordered
      rw [addAll_append, addAll_append,
        ih (PrerequisiteGraph.Ordered.of_append hordered) hbefore]
      cases hadd : c.addAll env init with
      | error e => rfl
      | ok next =>
          obtain ⟨expanded, others, hreq, hothers, rfl⟩ :=
            Requirement.expandAll_cons_eq_ok_iff.1 hlast
          cases hothers
          show next.addAll env (expanded ++ []) = next.addAll env [req]
          rw [List.append_nil, addAll_singleton]
          rcases Requirement.expand_cases hreq with ⟨cap, caps, rfl, horder, rfl⟩ | ⟨-, rfl⟩
          · refine addAll_order horder fun p hneeds => ?_
            -- What the capability needs stands in front of it in the stream, and was added.
            have hsplit : Requirement.plain init ++ Requirement.plain [.capability cap] =
                Requirement.plain init ++ cap :: [] := rfl
            exact (addAll_eq_ok_iff.1 hadd).mem_capabilities_iff.2
              (Or.inr (Requirement.mem_plain.1 (hordered.mem_of_needs hsplit hneeds)))
          · exact addAll_singleton next req

end Collector

/-- Over the graph of an accepted table, requirements can be expanded and expanded again. Whatever
collector both streams are added to, both are refused with the same error or end in the same
declarations, in the same order. -/
theorem expanded_again {table : EnumTable Capability} {g : PrerequisiteGraph}
    (hvalid : PrerequisiteGraph.ofTable table = .ok g) (env : Environment)
    (reqs : List Requirement) :
    ∃ once twice, Requirement.expandAll g reqs = .ok once ∧
      Requirement.expandAll g once = .ok twice ∧
        ∀ c : Collector, (c.addAll env twice).map (Collector.finish env) =
          (c.addAll env once).map (Collector.finish env) := by
  have horders := PrerequisiteGraph.exists_order_of_ofTable hvalid
  obtain ⟨once, honce⟩ := Requirement.exists_expandAll horders reqs
  obtain ⟨twice, htwice⟩ := Requirement.exists_expandAll horders once
  refine ⟨once, twice, honce, htwice, fun c => ?_⟩
  rw [Collector.addAll_expandAll (Requirement.expandAll_ordered honce).1 htwice c]

/-- On SPIR-V 1.0 a choice of shaders is settled by the order of the multi-view capability, and
variable pointers are refused for what they need. Expanding both again changes nothing. -/
theorem expanded_again_multiview :
    PrerequisiteGraph.ofTable Capability.table = .ok .standard ∧
      (∃ once twice, Requirement.expandAll .standard
          [.anyOf [.shader, .kernel], .capability .multiView] = .ok once ∧
        Requirement.expandAll .standard once = .ok twice ∧
          (Collector.empty.addAll .multiview twice).map (Collector.finish .multiview) =
            .ok ⟨[.matrix, .shader, .multiView], [.khrMultiview]⟩) ∧
      ∃ once twice, Requirement.expandAll .standard [.capability .variablePointers] = .ok once ∧
        Requirement.expandAll .standard once = .ok twice ∧
          (Collector.empty.addAll .multiview twice).map (Collector.finish .multiview) =
            .error (.versionTooLow "VariablePointersStorageBuffer" (.of 1 3) (.of 1 0)) := by
  have hvalid := PrerequisiteGraph.ofTable_standard
  obtain ⟨once, twice, honce, htwice, hsame⟩ :=
    expanded_again hvalid .multiview [.anyOf [.shader, .kernel], .capability .multiView]
  obtain ⟨pointers, again, hpointers, hagain, hrefused⟩ :=
    expanded_again hvalid .multiview [.capability .variablePointers]
  refine ⟨hvalid, ⟨once, twice, honce, htwice, ?_⟩, pointers, again, hpointers, hagain, ?_⟩
  · simp only [Requirement.expandAll, Requirement.expand, PrerequisiteGraph.order_multiView,
      Except.map] at honce
    cases honce
    have hrun : Collector.empty.addAll .multiview [.anyOf [.shader, .kernel], .capability .matrix,
        .capability .shader, .capability .multiView] =
          .ok ⟨⟨[.matrix, .shader, .multiView], [.khrMultiview]⟩, [[.shader, .kernel]]⟩ := by
      rw [Collector.addAll_eq_ok_iff]
      exact .cons _ _ _ _ _ (.postpone _ (by decide) Environment.offers_shader_multiview)
        (.cons _ _ _ _ _ (.declare _ none (by decide) rfl)
          (.cons _ _ _ _ _ (.declare _ none (by decide) rfl)
            (.cons _ _ _ _ _ (.declare _ (some .khrMultiview) (by decide) rfl) (.nil _))))
    rw [hsame]
    show (Collector.empty.addAll .multiview [_, _, _, _]).map _ = _
    rw [hrun]
    simp [Except.map, Collector.finish_eq_foldl, Collector.choose]
  · simp only [Requirement.expandAll, Requirement.expand, PrerequisiteGraph.order_variablePointers,
      Except.map] at hpointers
    cases hpointers
    rw [hrefused]
    rfl

end SpirvLegality
