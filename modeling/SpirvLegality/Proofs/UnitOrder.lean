import SpirvLegality.Proofs.Blindness
import SpirvLegality.Proofs.Order

/-!
# The order of units

The units of a module see each other through the index of definitions only, and this keeps the first
definition of each value. Where no two units define the same value, there is no other one to be
found (`DefinitionIndex.find?_eq_some_iff`), so the index does not depend on the order of the units;
neither does which of them resolve. The declarations are merged in the order of the units, and so
only their order can change (`Module.resolve_perm_units`).
-/

namespace SpirvLegality

/-- The values that the instructions of a unit define, in order. -/
def CodeUnit.results (unit : CodeUnit) : List ValueId := unit.instructions.filterMap (·.result)

/-- No value is defined in two of some units. Within one unit it may be defined several times. -/
def DistinctAcross (units : List CodeUnit) : Prop :=
  units.Pairwise fun unit other => unit.results.Disjoint other.results

theorem DistinctAcross.perm {units others : List CodeUnit} (h : DistinctAcross units)
    (hperm : units.Perm others) : DistinctAcross others :=
  List.Pairwise.perm h hperm List.disjoint_symm

/-! ## Definitions across units -/

/-- A value for which a definition is found in a unit is among the results of the unit. -/
theorem Definitions.mem_results_of_ofList {unit : CodeUnit} {id : ValueId} {inst : Instruction}
    (h : ofList unit.instructions id = some inst) : id ∈ unit.results := by
  have hresult : inst.result = some id := by simpa using List.find?_some h
  exact List.mem_filterMap.2 ⟨inst, List.mem_of_find?_eq_some h, hresult⟩

/-- Where no two units define the same value, the index finds what any of the units defines. -/
theorem DefinitionIndex.find?_eq_some_iff {units : List CodeUnit} (h : DistinctAcross units)
    {id : ValueId} {inst : Instruction} : (ofUnits units).find? id = some inst ↔
      ∃ unit ∈ units, Definitions.ofList unit.instructions id = some inst := by
  rw [find?_ofUnits]
  induction units with
  | nil => simp [Definitions.ofList]
  | cons first rest ih =>
      obtain ⟨hfirst, hrest⟩ := List.pairwise_cons.1 h
      have hsplit : Definitions.ofList ((first :: rest).flatMap (·.instructions)) id =
          (Definitions.ofList first.instructions id).or
            (Definitions.ofList (rest.flatMap (·.instructions)) id) := by
        rw [List.flatMap_cons, Definitions.ofList, List.find?_append]
        rfl
      rw [hsplit, List.exists_mem_cons_iff]
      cases hdefined : Definitions.ofList first.instructions id with
      | none => simpa using ih hrest
      | some found =>
          -- The first unit defines the value, so none of the others does.
          have hothers : ¬ ∃ unit ∈ rest, Definitions.ofList unit.instructions id = some inst := by
            intro hexists
            obtain ⟨unit, hunit, hother⟩ := hexists
            exact hfirst unit hunit (Definitions.mem_results_of_ofList hdefined)
              (Definitions.mem_results_of_ofList hother)
          rw [Option.some_or, or_iff_left hothers]

/-- Where no two units define the same value, their order does not matter to the index. -/
theorem DefinitionIndex.find?_eq_of_perm {units others : List CodeUnit}
    (h : DistinctAcross units) (hperm : units.Perm others) :
    (ofUnits units).find? = (ofUnits others).find? := by
  funext id
  refine Option.ext fun inst => ?_
  rw [find?_eq_some_iff h, find?_eq_some_iff (h.perm hperm)]
  simp only [hperm.mem_iff]

/-! ## Declarations -/

/-- Where no two units of a module define the same value, the module resolves with its units in one
order exactly where it does with them in another one, and then declares the same capabilities and
the same extensions. -/
theorem Module.resolve_perm_units (env : Environment) {m other : Module}
    (hdistinct : DistinctAcross m.units) (hperm : m.units.Perm other.units) :
    ((∃ d, m.resolve env = .ok d) ↔ ∃ d, other.resolve env = .ok d) ∧
      ∀ d d', m.resolve env = .ok d → other.resolve env = .ok d' → d.SameMembers d' := by
  have hindex : m.index.find? = other.index.find? :=
    DefinitionIndex.find?_eq_of_perm hdistinct hperm
  constructor
  · rw [exists_resolve_iff, exists_resolve_iff, hindex]
    simp only [hperm.mem_iff]
  · intro d d' hd hd'
    constructor
    · intro cap
      rw [mem_capabilities_iff hd, mem_capabilities_iff hd', hindex]
      simp only [hperm.mem_iff]
    · intro ext
      rw [mem_extensions_iff hd, mem_extensions_iff hd', hindex]
      simp only [hperm.mem_iff]

/-! ## A pointer type in one unit and a load through it in another -/

/-- A pointer type. -/
def Instruction.pointerType : Instruction := .of .typePointer (some ⟨0⟩) [.imm 7, .id ⟨1⟩]

/-- A load whose result type is the pointer type. -/
def Instruction.pointerLoad : Instruction := .of .load (some ⟨2⟩) [.id ⟨0⟩, .id ⟨3⟩]

/-- One unit with the pointer type and one with the load. -/
def Module.pointerLoad : Module where
  units := [⟨"<module>", [.pointerType]⟩, ⟨"main", [.pointerLoad]⟩]

/-- The same units in the opposite order. -/
def Module.pointerLoadFirst : Module where
  units := [⟨"main", [.pointerLoad]⟩, ⟨"<module>", [.pointerType]⟩]

namespace PrerequisiteGraph

theorem prerequisites_variablePointers :
    standard.prerequisites .variablePointers = [.variablePointersStorageBuffer] := by
  decide +kernel

theorem prerequisites_variablePointersStorageBuffer :
    standard.prerequisites .variablePointersStorageBuffer = [.shader] := by
  decide +kernel

theorem order_variablePointers : standard.order .variablePointers =
    .ok [.matrix, .shader, .variablePointersStorageBuffer, .variablePointers] := by
  simp [order, visit, prerequisites_variablePointers, prerequisites_variablePointersStorageBuffer,
    prerequisites_shader, prerequisites_matrix]

end PrerequisiteGraph

/-- The storage class of the pointer type requires nothing. -/
theorem Instruction.expandedRequirements_pointerType (defs : Definitions) :
    pointerType.expandedRequirements (.ofTarget .standardVulkan) defs = .ok [] := by
  have hrule : pointerType.requirements (.ofTarget .standardVulkan) defs = .ok [] :=
    show pointerType.operandRequirements (.ofTarget .standardVulkan) [(1, .storageClass)] = _ by
      decide +kernel
  simp [expandedRequirements, hrule, Requirement.expandAll]

/-- Where its type is a pointer type, the load requires variable pointers. -/
theorem Instruction.expandedRequirements_pointerLoad {defs : Definitions}
    (hdefs : defs ⟨0⟩ = some pointerType) :
    pointerLoad.expandedRequirements (.ofTarget .standardVulkan) defs =
      .ok [.capability .matrix, .capability .shader, .capability .variablePointersStorageBuffer,
        .capability .variablePointers] := by
  have hrule : pointerLoad.requirements (.ofTarget .standardVulkan) defs =
      .ok [.capability .variablePointers] := by
    show pointerLoad.variablePointerRequirements (.ofTarget .standardVulkan) defs = _
    have hid : pointerLoad.id? 1 = some ⟨0⟩ := rfl
    rw [variablePointerRequirements, hid]
    simp only [hdefs]
    rfl
  have horder : (Environment.ofTarget .standardVulkan).graph.order .variablePointers =
      .ok [.matrix, .shader, .variablePointersStorageBuffer, .variablePointers] :=
    PrerequisiteGraph.order_variablePointers
  simp [expandedRequirements, hrule, Requirement.expandAll, Requirement.expand, horder, Except.map]

/-- The unit with the pointer type declares nothing. -/
theorem CodeUnit.resolve_pointerType (defs : Definitions) :
    resolve ⟨"<module>", [.pointerType]⟩ (.ofTarget .standardVulkan) defs = .ok {} := by
  refine resolve_eq_ok_iff.2 ⟨?_, .empty, ?_, ?_⟩
  · simp [Instruction.expandedRequirements_pointerType]
  · rw [Instruction.stream, List.flatMap_singleton,
      Instruction.demands_of_eq_ok (Instruction.expandedRequirements_pointerType defs)]
    exact .nil _
  · simp [Collector.finish_eq_foldl, Collector.empty]

/-- The unit with the load declares variable pointers and their prerequisites. -/
theorem CodeUnit.resolve_pointerLoad {defs : Definitions}
    (hdefs : defs ⟨0⟩ = some .pointerType) :
    resolve ⟨"main", [.pointerLoad]⟩ (.ofTarget .standardVulkan) defs =
      .ok ⟨[.matrix, .shader, .variablePointersStorageBuffer, .variablePointers], []⟩ := by
  refine resolve_eq_ok_iff.2 ⟨?_, ⟨⟨[.matrix, .shader, .variablePointersStorageBuffer,
    .variablePointers], []⟩, []⟩, ?_, ?_⟩
  · simp [Instruction.expandedRequirements_pointerLoad hdefs]
  · rw [Instruction.stream, List.flatMap_singleton,
      Instruction.demands_of_eq_ok (Instruction.expandedRequirements_pointerLoad hdefs)]
    exact .cons _ _ _ _ _ (.declare _ none (by decide) rfl)
      (.cons _ _ _ _ _ (.declare _ none (by decide) rfl)
        (.cons _ _ _ _ _ (.declare _ none (by decide) rfl)
          (.cons _ _ _ _ _ (.declare _ none (by decide) rfl) (.nil _))))
  · simp [Collector.finish_eq_foldl]

/-- The load finds the pointer type in the other unit. -/
theorem Module.resolve_pointerLoad : pointerLoad.resolve (.ofTarget .standardVulkan) =
    .ok ⟨[.matrix, .shader, .variablePointersStorageBuffer, .variablePointers], []⟩ := by
  have hdefs : pointerLoad.index.find? ⟨0⟩ = some .pointerType := by
    rw [index, DefinitionIndex.find?_ofUnits]
    rfl
  refine resolve_eq_ok_iff.2 ⟨[{}, ⟨[.matrix, .shader, .variablePointersStorageBuffer,
    .variablePointers], []⟩], ?_, rfl⟩
  show [CodeUnit.resolve _ _ _, CodeUnit.resolve _ _ _] = _
  rw [CodeUnit.resolve_pointerType, CodeUnit.resolve_pointerLoad hdefs]
  rfl

/-- With the load first, the module resolves as well and declares the same. -/
theorem Module.resolve_perm_units_pointerLoad :
    DistinctAcross pointerLoad.units ∧ pointerLoad.units.Perm pointerLoadFirst.units ∧
      ∃ d, pointerLoadFirst.resolve (.ofTarget .standardVulkan) = .ok d ∧
        Declarations.SameMembers
          ⟨[.matrix, .shader, .variablePointersStorageBuffer, .variablePointers], []⟩ d := by
  have hdistinct : DistinctAcross pointerLoad.units := by
    simp [DistinctAcross, pointerLoad, CodeUnit.results, Instruction.pointerType,
      Instruction.pointerLoad, Instruction.of]
  have hperm : pointerLoad.units.Perm pointerLoadFirst.units := .swap _ _ _
  obtain ⟨hresolves, hmembers⟩ := resolve_perm_units (.ofTarget .standardVulkan) hdistinct hperm
  obtain ⟨d, hd⟩ := hresolves.1 ⟨_, resolve_pointerLoad⟩
  exact ⟨hdistinct, hperm, d, hd, hmembers _ _ resolve_pointerLoad hd⟩

end SpirvLegality
