import SpirvLegality.Resolution
import SpirvLegality.Proofs.Collector

/-!
# When a module resolves

Resolving a unit is one run of a collector along the requirements of all its instructions
(`CodeUnit.resolve_eq_ok_iff`), and resolving a module is resolving each of its units and merging
the results (`Module.resolve_eq_ok_iff`). What an operand requires and how requirements are expanded
is stated in front (`Family.requirements_eq_ok_iff`, `Requirement.expandAll_cons_eq_ok_iff`), and so
is where the requirements of an instruction come from (`Instruction.origin_of_mem_requirements`).
-/

namespace SpirvLegality

/-- A computation in two steps succeeds where both steps do. -/
theorem except_bind_eq_ok_iff {ε α β : Type} {x : Except ε α} {f : α → Except ε β} {b : β} :
    (x >>= f) = .ok b ↔ ∃ a, x = .ok a ∧ f a = .ok b := by
  cases x <;> simp [bind, Except.bind]

namespace Requirement

variable {g : PrerequisiteGraph}

/-- A capability is expanded to its order, and any other requirement stays as it is. -/
theorem expand_cases {req : Requirement} {all : List Requirement} (h : req.expand g = .ok all) :
    (∃ cap caps, req = .capability cap ∧ g.order cap = .ok caps ∧ all = caps.map .capability) ∨
      (∀ cap, req ≠ .capability cap) ∧ all = [req] := by
  cases req with
  | capability cap =>
      simp only [expand] at h
      cases horder : g.order cap with
      | error e =>
          rw [horder] at h
          cases h
      | ok caps =>
          rw [horder] at h
          cases h
          exact Or.inl ⟨cap, caps, rfl, horder, rfl⟩
  | anyOf | extension | nothing =>
      cases h
      exact Or.inr ⟨nofun, rfl⟩

/-- A first requirement and further ones expand to the expansions of both, one behind the other. -/
theorem expandAll_cons_eq_ok_iff {req : Requirement} {rest all : List Requirement} :
    expandAll g (req :: rest) = .ok all ↔
      ∃ first others, req.expand g = .ok first ∧ expandAll g rest = .ok others ∧
        first ++ others = all := by
  rw [expandAll]
  cases req.expand g with
  | error e => simp
  | ok first => cases expandAll g rest <;> simp

end Requirement

variable {env : Environment} {defs : Definitions}

/-- What a row requires apart from its extension. -/
def Family.choice (row : Enumerant UInt32) : List Requirement :=
  if (Requirement.oneOf row.capabilities).isNothing then []
  else [Requirement.oneOf row.capabilities]

/-- An operand with a row requires the choice of the row and the extension that its gate names. -/
theorem Family.requirements_eq_ok_iff {family : Family} {word : UInt32}
    {row : Enumerant UInt32} (hrow : family.table.get? word = some row)
    {reqs : List Requirement} : family.requirements word env = .ok reqs ↔
      ∃ ext, env.gate row = .ok ext ∧ reqs = choice row ++ ext.toList.map .extension := by
  simp only [requirements, hrow]
  cases env.gate row with
  | error e => simp
  | ok ext =>
      cases ext with
      | none => simp [choice, eq_comm (a := reqs)]
      | some ext => simp [choice, eq_comm (a := reqs)]

/-- Where a requirement of an instruction comes from. -/
inductive Requirement.Origin (env : Environment) : Requirement → Prop where
  /-- The rule names the capability itself. -/
  | capability (cap) : Origin env (.capability cap)
  | operand (family : Family) (word reqs req) :
      family.requirements word env = .ok reqs → req ∈ reqs → Origin env req
  | instructionSet (set : InstructionSet) (ext) :
      env.hasInstructionSet set = true → set.requiredExtension = some ext →
      Origin env (.extension ext)

namespace Instruction

open Requirement (Origin)

section Origins

variable {inst : Instruction} {reqs : List Requirement}

theorem origin_of_mem_operandRequirements {positions : List (Nat × Family)}
    (h : inst.operandRequirements env positions = .ok reqs) : ∀ req ∈ reqs, Origin env req := by
  induction positions generalizing reqs with
  | nil =>
      cases h
      exact nofun
  | cons operand rest ih =>
      simp only [operandRequirements, except_bind_eq_ok_iff] at h
      obtain ⟨word, -, first, hfirst, others, hothers, h⟩ := h
      cases h
      exact List.forall_mem_append.2
        ⟨fun req => Origin.operand operand.2 word first req hfirst, ih hothers⟩

theorem origin_of_mem_decorationRequirements {position : Nat}
    (h : inst.decorationRequirements env position = .ok reqs) : ∀ req ∈ reqs, Origin env req := by
  simp only [decorationRequirements, except_bind_eq_ok_iff] at h
  obtain ⟨decoration, -, own, hown, h⟩ := h
  have horigin : ∀ req ∈ own, Origin env req := fun req =>
    Origin.operand .decoration decoration own req hown
  split at h
  · simp only [except_bind_eq_ok_iff] at h
    obtain ⟨meaning, -, builtIn, hbuiltIn, h⟩ := h
    cases h
    exact List.forall_mem_append.2
      ⟨horigin, fun req => Origin.operand .builtIn meaning builtIn req hbuiltIn⟩
  · cases h
    exact horigin

theorem origin_of_mem_imageRequirements (h : inst.imageRequirements env = .ok reqs) :
    ∀ req ∈ reqs, Origin env req := by
  unfold imageRequirements at h
  split at h
  · cases h
  simp only [except_bind_eq_ok_iff] at h
  obtain ⟨format, -, ofFormat, hformat, arrayed, -, multisampled, -, sampled, -, dimension, -, h⟩ :=
    h
  cases h
  exact List.forall_mem_append.2
    ⟨fun req => Origin.operand .imageFormat format ofFormat req hformat,
      List.forall_mem_map.2 fun cap _ => .capability cap⟩

theorem origin_of_mem_variablePointerRequirements
    (h : inst.variablePointerRequirements env defs = .ok reqs) :
    ∀ req ∈ reqs, Origin env req := by
  unfold variablePointerRequirements at h
  split at h
  · split at h
    · cases h
    · split at h
      · cases h
      · split at h
        · cases h
          exact List.forall_mem_singleton.2 (.capability _)
        · cases h
          exact nofun
  · cases h
    exact nofun

theorem origin_of_mem_importRequirements (h : inst.importRequirements env = .ok reqs) :
    ∀ req ∈ reqs, Origin env req := by
  unfold importRequirements at h
  split at h
  · cases h
  · split at h
    · cases h
    · next set _ =>
        split at h
        · next havailable =>
            cases h
            exact List.forall_mem_map.2 fun ext hext =>
              .instructionSet set ext havailable (Option.mem_toList.1 hext)
        · cases h

/-- A requirement of an instruction is a capability that the rule names, or it comes from an operand
or from an instruction set. -/
theorem origin_of_mem_requirements (h : inst.requirements env defs = .ok reqs) :
    ∀ req ∈ reqs, Origin env req := by
  unfold requirements at h
  split at h
  · cases h
    exact nofun
  · cases h
    exact List.forall_mem_singleton.2 (.capability _)
  · exact origin_of_mem_operandRequirements h
  · simp only [except_bind_eq_ok_iff] at h
    obtain ⟨word, -, h⟩ := h
    cases h
    intro req hreq
    obtain ⟨cap, -, rfl⟩ := Option.map_eq_some_iff.1 (Option.mem_toList.1 hreq)
    exact .capability cap
  · exact origin_of_mem_decorationRequirements h
  · exact origin_of_mem_imageRequirements h
  · cases h
    split
    · exact List.forall_mem_singleton.2 (.capability _)
    · exact nofun
  · cases h
    exact List.forall_mem_singleton.2 (.capability _)
  · exact origin_of_mem_variablePointerRequirements h
  · split at h
    · cases h
      exact nofun
    · cases h
  · exact origin_of_mem_importRequirements h

end Origins

/-- The expanded requirements of an instruction are its direct ones with their prerequisites. -/
theorem expandedRequirements_eq_ok_iff {inst : Instruction} {all : List Requirement} :
    inst.expandedRequirements env defs = .ok all ↔
      ∃ direct, inst.requirements env defs = .ok direct ∧
        Requirement.expandAll env.graph direct = .ok all := by
  unfold expandedRequirements
  cases inst.requirements env defs with
  | error e => simp
  | ok direct => cases h : Requirement.expandAll env.graph direct <;> simp [h]

/-- The expanded requirements of an instruction; none where they cannot be derived. -/
def demands (env : Environment) (defs : Definitions) (inst : Instruction) : List Requirement :=
  match inst.expandedRequirements env defs with
  | .ok all => all
  | .error _ => []

/-- The expanded requirements of some instructions, one instruction after the other. -/
def stream (env : Environment) (defs : Definitions) (insts : List Instruction) :
    List Requirement :=
  insts.flatMap (demands env defs)

theorem demands_of_eq_ok {inst : Instruction} {all : List Requirement}
    (h : inst.expandedRequirements env defs = .ok all) : demands env defs inst = all := by
  rw [demands, h]

/-- Adding the requirements of an instruction is deriving them and running along them. -/
theorem collect_eq_ok_iff {inst : Instruction} {c c' : Collector} :
    inst.collect env defs c = .ok c' ↔
      (∃ all, inst.expandedRequirements env defs = .ok all) ∧
        Collector.Run env c (demands env defs inst) c' := by
  unfold collect demands
  cases inst.expandedRequirements env defs with
  | error e => simp
  | ok all => simp [Collector.addAll_eq_ok_iff]

end Instruction

namespace CodeUnit

/-- Adding the requirements of some instructions is deriving those of each and running along all of
them. -/
theorem collectFrom_eq_ok_iff {name : String} {index : Nat} {insts : List Instruction}
    {c c' : Collector} :
    collectFrom env defs name index c insts = .ok c' ↔
      (∀ inst ∈ insts, ∃ all, inst.expandedRequirements env defs = .ok all) ∧
        Collector.Run env c (Instruction.stream env defs insts) c' := by
  induction insts generalizing index c with
  | nil =>
      constructor
      · intro h
        cases h
        exact ⟨nofun, .nil _⟩
      · intro h
        obtain ⟨-, h⟩ := h
        cases h
        rfl
  | cons inst rest ih =>
      rw [collectFrom, Instruction.stream, List.flatMap_cons, Collector.run_append_iff,
        List.forall_mem_cons]
      constructor
      · intro h
        split at h
        · cases h
        · obtain ⟨hall, hrun⟩ := Instruction.collect_eq_ok_iff.1 ‹_›
          obtain ⟨hrest, hruns⟩ := ih.1 h
          exact ⟨⟨hall, hrest⟩, _, hrun, hruns⟩
      · intro h
        obtain ⟨⟨hall, hrest⟩, next, hrun, hruns⟩ := h
        rw [Instruction.collect_eq_ok_iff.2 ⟨hall, hrun⟩]
        exact ih.2 ⟨hrest, hruns⟩

/-- Resolving a unit is one run along the requirements of its instructions, finished. -/
theorem resolve_eq_ok_iff {unit : CodeUnit} {d : Declarations} :
    unit.resolve env defs = .ok d ↔
      (∀ inst ∈ unit.instructions, ∃ all, inst.expandedRequirements env defs = .ok all) ∧
        ∃ c, Collector.Run env .empty (Instruction.stream env defs unit.instructions) c ∧
          c.finish env = d := by
  unfold resolve
  constructor
  · intro h
    split at h
    · cases h
    · cases h
      obtain ⟨hall, hrun⟩ := collectFrom_eq_ok_iff.1 ‹_›
      exact ⟨hall, _, hrun, rfl⟩
  · intro h
    obtain ⟨hall, c, hrun, rfl⟩ := h
    rw [collectFrom_eq_ok_iff.2 ⟨hall, hrun⟩]

/-- A first unit and further ones resolve to the result of the first and those of the others. -/
theorem resolveAll_cons_eq_ok_iff {unit : CodeUnit} {rest : List CodeUnit}
    {results : List Declarations} :
    resolveAll env defs (unit :: rest) = .ok results ↔
      ∃ d others, unit.resolve env defs = .ok d ∧ resolveAll env defs rest = .ok others ∧
        results = d :: others := by
  simp only [resolveAll, except_bind_eq_ok_iff, pure, Except.pure, Except.ok.injEq]
  constructor
  · intro h
    obtain ⟨d, hunit, others, hrest, rfl⟩ := h
    exact ⟨d, others, hunit, hrest, rfl⟩
  · intro h
    obtain ⟨d, others, hunit, hrest, rfl⟩ := h
    exact ⟨d, hunit, others, hrest, rfl⟩

/-- Several units resolve where each of them does, to the results of each. -/
theorem resolveAll_eq_ok_iff {units : List CodeUnit} {results : List Declarations} :
    resolveAll env defs units = .ok results ↔
      units.map (fun unit => unit.resolve env defs) = results.map .ok := by
  induction units generalizing results with
  | nil => cases results <;> simp [resolveAll]
  | cons unit rest ih =>
      rw [resolveAll_cons_eq_ok_iff, List.map_cons]
      constructor
      · intro h
        obtain ⟨d, others, hunit, hrest, rfl⟩ := h
        rw [hunit, ih.1 hrest, List.map_cons]
      · intro h
        cases results with
        | nil => cases h
        | cons d others =>
            rw [List.map_cons, List.cons.injEq] at h
            exact ⟨d, others, h.1, ih.2 h.2, rfl⟩

end CodeUnit

namespace Module

/-- Resolving a module is resolving each of its units and merging the results. -/
theorem resolve_eq_ok_iff {m : Module} {d : Declarations} :
    m.resolve env = .ok d ↔
      ∃ results, m.units.map (fun unit => unit.resolve env m.index.find?) = results.map .ok ∧
        Declarations.mergeAll results = d := by
  simp only [← CodeUnit.resolveAll_eq_ok_iff, resolve, resolveUnits]
  cases CodeUnit.resolveAll env m.index.find? m.units <;> simp [Except.map]

/-- Where a module resolves, each of its units does. -/
theorem exists_resolve_unit {m : Module} {d : Declarations} (h : m.resolve env = .ok d)
    {unit : CodeUnit} (hunit : unit ∈ m.units) :
    ∃ result, unit.resolve env m.index.find? = .ok result := by
  obtain ⟨results, hresults, -⟩ := resolve_eq_ok_iff.1 h
  have hmem : unit.resolve env m.index.find? ∈ results.map .ok :=
    hresults ▸ List.mem_map_of_mem hunit
  obtain ⟨result, -, heq⟩ := List.mem_map.1 hmem
  exact ⟨result, heq.symm⟩

/-- What is merged into the declarations of a module is what its units resolve to. -/
theorem exists_results {m : Module} {d : Declarations} (h : m.resolve env = .ok d) :
    ∃ results, Declarations.mergeAll results = d ∧
      ∀ result, result ∈ results ↔
        ∃ unit ∈ m.units, unit.resolve env m.index.find? = .ok result := by
  obtain ⟨results, hresults, hmerge⟩ := resolve_eq_ok_iff.1 h
  refine ⟨results, hmerge, fun result => ?_⟩
  have hmem : Except.ok result ∈ results.map (Except.ok (ε := ResolutionError)) ↔
      result ∈ results := by simp
  rw [← hmem, ← hresults, List.mem_map]

/-- The capabilities of a module are those of its units. -/
theorem mem_capabilities_iff {m : Module} {d : Declarations} (h : m.resolve env = .ok d)
    {cap : Capability} : cap ∈ d.capabilities ↔
      ∃ unit ∈ m.units, ∃ result, unit.resolve env m.index.find? = .ok result ∧
        cap ∈ result.capabilities := by
  obtain ⟨results, rfl, hresults⟩ := exists_results h
  simp only [Declarations.mem_capabilities_mergeAll, hresults]
  constructor
  · intro h
    obtain ⟨result, ⟨unit, hunit, hresult⟩, hcap⟩ := h
    exact ⟨unit, hunit, result, hresult, hcap⟩
  · intro h
    obtain ⟨unit, hunit, result, hresult, hcap⟩ := h
    exact ⟨result, ⟨unit, hunit, hresult⟩, hcap⟩

/-- The extensions of a module are those of its units. -/
theorem mem_extensions_iff {m : Module} {d : Declarations} (h : m.resolve env = .ok d)
    {ext : Extension} : ext ∈ d.extensions ↔
      ∃ unit ∈ m.units, ∃ result, unit.resolve env m.index.find? = .ok result ∧
        ext ∈ result.extensions := by
  obtain ⟨results, rfl, hresults⟩ := exists_results h
  simp only [Declarations.mem_extensions_mergeAll, hresults]
  constructor
  · intro h
    obtain ⟨result, ⟨unit, hunit, hresult⟩, hext⟩ := h
    exact ⟨unit, hunit, result, hresult, hext⟩
  · intro h
    obtain ⟨unit, hunit, result, hresult, hext⟩ := h
    exact ⟨result, ⟨unit, hunit, hresult⟩, hext⟩

/-- The declarations of a module contain those of each of its units. -/
theorem within_of_resolve_unit {m : Module} {d result : Declarations}
    (h : m.resolve env = .ok d) {unit : CodeUnit} (hunit : unit ∈ m.units)
    (hresult : unit.resolve env m.index.find? = .ok result) : result.Within d :=
  ⟨fun _ hcap => (mem_capabilities_iff h).2 ⟨unit, hunit, result, hresult, hcap⟩,
    fun _ hext => (mem_extensions_iff h).2 ⟨unit, hunit, result, hresult, hext⟩⟩

end Module

end SpirvLegality
