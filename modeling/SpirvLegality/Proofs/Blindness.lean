import SpirvLegality.Proofs.Failure

/-!
# What resolving does not look at

The requirements of an instruction do not depend on its span, and they depend on the definitions
only as far as these tell which values are defined and which of them are pointer types
(`Definitions.Agree`). The name of a unit stands in its error and nowhere else. Two modules whose
instructions differ in nothing but their spans therefore resolve alike
(`Module.resolve_of_bodies_eq`, `Module.FailsAt.of_bodies_eq`).
-/

namespace SpirvLegality

/-! ## Definitions -/

/-- The definitions tell the same values as defined, and the same ones as pointer types. -/
def Definitions.Agree (defs others : Definitions) : Prop :=
  ∀ id, (defs id).map (fun inst => decide (inst.opcode = .typePointer)) =
    (others id).map fun inst => decide (inst.opcode = .typePointer)

variable {env : Environment} {defs others : Definitions}

namespace Instruction

/-- An instruction that may yield a pointer asks the definition of its type for the opcode only. -/
theorem variablePointerRequirements_of_agree (h : defs.Agree others) (inst : Instruction) :
    inst.variablePointerRequirements env defs = inst.variablePointerRequirements env others := by
  unfold variablePointerRequirements
  cases inst.id? 1 with
  | none => rfl
  | some type =>
      have htype := h type
      cases hdefs : defs type with
      | none =>
          rw [hdefs] at htype
          cases hothers : others type with
          | none => simp only [hdefs, hothers]
          | some definition =>
              rw [hothers] at htype
              cases htype
      | some definition =>
          rw [hdefs] at htype
          cases hothers : others type with
          | none =>
              rw [hothers] at htype
              cases htype
          | some other =>
              rw [hothers] at htype
              have hopcode := decide_eq_decide.1 (Option.some.inj htype)
              simp only [hdefs, hothers, hopcode]

theorem requirements_of_agree (h : defs.Agree others) (inst : Instruction) :
    inst.requirements env defs = inst.requirements env others := by
  unfold requirements
  rw [variablePointerRequirements_of_agree h]

/-! ## Spans -/

/-- An instruction without its place in the source. -/
def withoutSpan (inst : Instruction) : Instruction := { inst with span := {} }

theorem operandRequirements_withoutSpan (inst : Instruction) (positions : List (Nat × Family)) :
    inst.withoutSpan.operandRequirements env positions =
      inst.operandRequirements env positions := by
  induction positions with
  | nil => rfl
  | cons first rest ih =>
      rw [operandRequirements, operandRequirements, ih]
      rfl

theorem requirements_withoutSpan (inst : Instruction) :
    inst.withoutSpan.requirements env defs = inst.requirements env defs := by
  have hopcode : inst.withoutSpan.opcode = inst.opcode := rfl
  unfold requirements
  rw [hopcode]
  cases Rule.of inst.opcode with
  | operands positions => exact operandRequirements_withoutSpan inst positions
  | _ => rfl

/-- Collecting an instruction looks neither at its span nor at the bodies of definitions. -/
theorem collect_of_withoutSpan_eq (hdefs : defs.Agree others) {inst other : Instruction}
    (h : inst.withoutSpan = other.withoutSpan) (c : Collector) :
    inst.collect env defs c = other.collect env others c := by
  have hrequirements : inst.requirements env defs = other.requirements env others := by
    rw [← requirements_withoutSpan inst, h, requirements_withoutSpan other,
      requirements_of_agree hdefs]
  rw [collect, expandedRequirements, hrequirements, collect, expandedRequirements]

end Instruction

/-! ## Names of units -/

namespace CodeUnit

/-- The instructions of a unit without their places in the source. -/
def body (unit : CodeUnit) : List Instruction := unit.instructions.map Instruction.withoutSpan

/-- Instructions that differ in nothing but their spans are collected alike, up to the name of the
unit in the error. -/
theorem collectFrom_of_map_withoutSpan_eq (hdefs : defs.Agree others)
    {insts others' : List Instruction}
    (h : insts.map Instruction.withoutSpan = others'.map Instruction.withoutSpan)
    (name name' : String) (index : Nat) (c : Collector) :
    collectFrom env others name' index c others' =
      (collectFrom env defs name index c insts).mapError fun e => { e with unit := name' } := by
  induction insts generalizing others' index c with
  | nil =>
      rw [List.map_nil, eq_comm, List.map_eq_nil_iff] at h
      rw [h]
      rfl
  | cons inst rest ih =>
      rw [List.map_cons, eq_comm, List.map_eq_cons_iff] at h
      obtain ⟨other, rest', rfl, hother, hrest⟩ := h
      have hopcode : other.opcode = inst.opcode := (congrArg Instruction.opcode hother :)
      rw [collectFrom, collectFrom, Instruction.collect_of_withoutSpan_eq hdefs hother.symm,
        hopcode]
      cases other.collect env others c with
      | error cause => rfl
      | ok next => exact ih hrest.symm (index + 1) next

/-- Units that differ in nothing but their names and the spans of their instructions resolve alike,
up to the name in the error. -/
theorem resolve_of_body_eq (hdefs : defs.Agree others) {unit other : CodeUnit}
    (h : unit.body = other.body) :
    other.resolve env others =
      (unit.resolve env defs).mapError fun e => { e with unit := other.name } := by
  rw [resolve, resolve, collectFrom_of_map_withoutSpan_eq hdefs h unit.name other.name]
  cases collectFrom env defs unit.name 0 .empty unit.instructions <;> rfl

end CodeUnit

/-! ## Modules -/

namespace DefinitionIndex

/-- An instruction defines its result, unless this is defined already. -/
theorem find?_add (index : DefinitionIndex) (inst : Instruction) (id : ValueId) :
    (index.add inst).find? id = (index.find? id).or (Definitions.ofList [inst] id) := by
  cases hresult : inst.result with
  | none => simp [add, hresult, Definitions.ofList]
  | some value =>
      simp only [add, hresult, find?, Definitions.ofList, Std.HashMap.getElem?_insertIfNew]
      by_cases hvalue : value = id
      · subst hvalue
        cases hfound : index.entries[value]? with
        | none =>
            have hnew : value ∉ index.entries := by simpa using hfound
            simp [hnew, hresult]
        | some found =>
            have hold : value ∈ index.entries :=
              Std.HashMap.mem_iff_isSome_getElem?.2 (by simp [hfound])
            simp [hold]
      · simp [hvalue, hresult]

/-- Some instructions define their results, unless these are defined already. -/
theorem find?_foldl_add (index : DefinitionIndex) (insts : List Instruction) (id : ValueId) :
    (insts.foldl add index).find? id = (index.find? id).or (Definitions.ofList insts id) := by
  induction insts generalizing index with
  | nil => simp [Definitions.ofList]
  | cons inst rest ih =>
      rw [List.foldl_cons, ih, find?_add, Option.or_assoc, Definitions.ofList, Definitions.ofList,
        Definitions.ofList, ← List.find?_append]
      rfl

/-- The index finds the first instruction of all units that defines a value. -/
theorem find?_ofUnits (units : List CodeUnit) :
    (ofUnits units).find? = Definitions.ofList (units.flatMap (·.instructions)) := by
  have hfold (index : DefinitionIndex) : units.foldl (fun index unit =>
      unit.instructions.foldl add index) index =
        (units.flatMap (·.instructions)).foldl add index := by
    rw [List.foldl_flatMap]
  funext id
  rw [ofUnits, hfold, find?_foldl_add]
  simp [find?, empty]

end DefinitionIndex

/-- Instructions that differ in nothing but their spans define the same values, and the same ones as
pointer types. -/
theorem Definitions.agree_ofList {insts others : List Instruction}
    (h : insts.map Instruction.withoutSpan = others.map Instruction.withoutSpan) :
    (ofList insts).Agree (ofList others) := by
  have herase (insts : List Instruction) (id : ValueId) :
      (ofList insts id).map (fun inst => decide (inst.opcode = .typePointer)) =
        (ofList (insts.map Instruction.withoutSpan) id).map
          fun inst => decide (inst.opcode = .typePointer) := by
    rw [ofList, ofList, List.find?_map, Option.map_map]
    rfl
  intro id
  rw [herase insts, herase others, h]

namespace Module

/-- The units of a module without their names, and their instructions without places in the
source. -/
def bodies (m : Module) : List (List Instruction) := m.units.map CodeUnit.body

theorem flatten_bodies (m : Module) :
    m.bodies.flatten = m.instructions.map Instruction.withoutSpan := by
  rw [instructions, List.map_flatMap, bodies, ← List.flatMap_def]
  rfl

variable {m other : Module}

/-- The definitions of a module are visible through its bodies. -/
theorem agree_of_bodies_eq (h : m.bodies = other.bodies) :
    m.index.find?.Agree other.index.find? := by
  rw [index, index, DefinitionIndex.find?_ofUnits, DefinitionIndex.find?_ofUnits]
  exact Definitions.agree_ofList (by rw [← instructions, ← instructions, ← flatten_bodies, h,
    flatten_bodies])

/-- The units of modules with the same bodies resolve alike, up to their names in errors. -/
theorem getElem?_outcomes_of_bodies_eq (h : m.bodies = other.bodies) (env : Environment) (u : Nat) :
    ∃ name, (other.outcomes env)[u]? =
      (m.outcomes env)[u]?.map (·.mapError fun e => { e with unit := name }) := by
  have hunit : (m.units[u]?).map CodeUnit.body = (other.units[u]?).map CodeUnit.body := by
    rw [← List.getElem?_map, ← List.getElem?_map]
    exact congrArg (·[u]?) h
  rw [outcomes, outcomes, List.getElem?_map, List.getElem?_map]
  cases hu : m.units[u]? with
  | none =>
      rw [hu, Option.map_none, eq_comm, Option.map_eq_none_iff] at hunit
      exact ⟨"", by rw [hunit]; rfl⟩
  | some unit =>
      rw [hu, Option.map_some, eq_comm, Option.map_eq_some_iff] at hunit
      obtain ⟨unit', hu', hbody⟩ := hunit
      refine ⟨unit'.name, ?_⟩
      rw [hu', Option.map_some, CodeUnit.resolve_of_body_eq (agree_of_bodies_eq h) hbody.symm]
      rfl

/-- A module with the same bodies as one that resolves has the same declarations. -/
theorem resolve_of_bodies_eq (h : m.bodies = other.bodies) {d : Declarations}
    (hresolve : m.resolve env = .ok d) : other.resolve env = .ok d := by
  obtain ⟨results, hresults, hmerge⟩ := resolve_eq_ok_iff.1 hresolve
  refine resolve_eq_ok_iff.2 ⟨results, List.ext_getElem? fun u => ?_, hmerge⟩
  obtain ⟨name, hu⟩ := getElem?_outcomes_of_bodies_eq h env u
  have hm : (m.outcomes env)[u]? = (results.map Except.ok)[u]? := congrArg (·[u]?) hresults
  refine hu.trans ?_
  rw [hm, List.getElem?_map, Option.map_map]
  rfl

/-- A module with the same bodies as one that fails does so at the same instruction of the same unit
and for the same cause. -/
theorem FailsAt.of_bodies_eq (h : m.bodies = other.bodies) {u : Nat} {e : ResolutionError}
    (hfails : m.FailsAt env u e) : ∃ name, other.FailsAt env u { e with unit := name } := by
  obtain ⟨name, hu⟩ := getElem?_outcomes_of_bodies_eq h env u
  refine ⟨name, ?_, fun v hv => ?_⟩
  · rw [hu, hfails.fails]
    rfl
  · obtain ⟨d, hd⟩ := hfails.earlier v hv
    obtain ⟨name', hv⟩ := getElem?_outcomes_of_bodies_eq h env v
    refine ⟨d, ?_⟩
    rw [hv, hd]
    rfl

/-- Modules with the same bodies have the same declarations, or both fail at the same instruction of
the same unit and for the same cause. -/
theorem resolve_alike (h : m.bodies = other.bodies) (env : Environment) :
    (∃ d, m.resolve env = .ok d ∧ other.resolve env = .ok d) ∨
      ∃ u e name, m.FailsAt env u e ∧ other.FailsAt env u { e with unit := name } := by
  cases hresolve : m.resolve env with
  | ok d => exact Or.inl ⟨d, rfl, resolve_of_bodies_eq h hresolve⟩
  | error e =>
      obtain ⟨u, hfails⟩ := resolve_eq_error_iff.1 hresolve
      obtain ⟨name, hother⟩ := hfails.of_bodies_eq h
      exact Or.inr ⟨u, e, name, hfails, hother⟩

end Module

end SpirvLegality
