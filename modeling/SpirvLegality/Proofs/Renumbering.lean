import SpirvLegality.Proofs.Derivation
import SpirvLegality.Proofs.UnitOrder
import Mathlib.Data.List.Find

/-!
# The numbers of values

Values are told apart by their numbers and are nothing else to the rules: a renumbering that keeps
the values of a module apart changes the outcome of the module only where its error names a value
(`Module.resolve_renumber`). There is one rule that looks at values at all, the one for variable
pointers, and what it asks of a value is only whether it is defined and whether as a pointer type.
The other rules read words and texts, and name no value in their errors
(`Instruction.valueFree_requirements`).
-/

namespace SpirvLegality

/-! ## Renumbering -/

section Renumbering

variable (f : ValueId → ValueId)

/-- An operand with its value renumbered. -/
def Operand.renumber : Operand → Operand
  | .id value => .id (f value)
  | .imm word => .imm word
  | .str text => .str text

/-- An instruction with its result and the values among its operands renumbered. -/
def Instruction.renumber (inst : Instruction) : Instruction :=
  { inst with result := inst.result.map f, operands := inst.operands.map (Operand.renumber f) }

/-- A unit with all values renumbered. -/
def CodeUnit.renumber (unit : CodeUnit) : CodeUnit :=
  { unit with instructions := unit.instructions.map (Instruction.renumber f) }

/-- An error with the value renumbered that it names. -/
def RequirementError.renumber : RequirementError → RequirementError
  | .undefinedValue id => .undefinedValue (f id)
  | e => e

/-- An error with the value renumbered that its cause names. -/
def ResolutionError.renumber (e : ResolutionError) : ResolutionError :=
  { e with cause := e.cause.renumber f }

end Renumbering

/-- The values that an instruction mentions: its result and those among its operands. -/
def Instruction.Mentions (inst : Instruction) (id : ValueId) : Prop :=
  inst.result = some id ∨ .id id ∈ inst.operands

/-- The values that the instructions of a module mention. -/
def Module.mentioned (m : Module) : Set ValueId :=
  { id | ∃ inst ∈ m.instructions, inst.Mentions id }

/-! ## Errors that name no value -/

/-- No error of a computation names a value. -/
def ValueFree {α : Type} (x : Except RequirementError α) : Prop :=
  ∀ id, x ≠ .error (.undefinedValue id)

/-- A renumbering does not change an error that names no value. -/
theorem ValueFree.mapError_renumber {α : Type} {x : Except RequirementError α} (h : ValueFree x)
    (f : ValueId → ValueId) : x.mapError (·.renumber f) = x := by
  cases x with
  | ok a => rfl
  | error e =>
      cases e with
      | undefinedValue id => exact absurd rfl (h id)
      | _ => rfl

variable {env : Environment}

/-- Only the rule for variable pointers names a value in its error. -/
theorem Instruction.valueFree_requirements {defs : Definitions} {inst : Instruction}
    (h : Rule.of inst.opcode ≠ .variablePointer) : ValueFree (inst.requirements env defs) := by
  intro id herror
  cases requirements_eq_error_iff.1 herror with
  | undefinedValue _ hrule => exact h hrule

/-- No collector names a value in its error. -/
theorem Collector.valueFree_addAll (c : Collector) (reqs : List Requirement) :
    ValueFree (c.addAll env reqs) := by
  intro id herror
  obtain ⟨next, req, hrefused⟩ := refuses_of_addAll herror
  cases hrefused with
  | barred cap _ _ hgate =>
      obtain ⟨-, hversion⟩ := (Environment.gate_eq_error_iff rfl).1 hgate
      cases hversion

/-! ## Rules on renumbered operands -/

variable {f : ValueId → ValueId}

namespace Instruction

theorem imm?_renumber (inst : Instruction) (position : Nat) :
    (inst.renumber f).imm? position = inst.imm? position := by
  simp only [imm?, renumber, List.getElem?_map]
  cases inst.operands[position]? with
  | none => rfl
  | some operand => cases operand <;> rfl

theorem str?_renumber (inst : Instruction) (position : Nat) :
    (inst.renumber f).str? position = inst.str? position := by
  simp only [str?, renumber, List.getElem?_map]
  cases inst.operands[position]? with
  | none => rfl
  | some operand => cases operand <;> rfl

theorem id?_renumber (inst : Instruction) (position : Nat) :
    (inst.renumber f).id? position = (inst.id? position).map f := by
  simp only [id?, renumber, List.getElem?_map]
  cases inst.operands[position]? with
  | none => rfl
  | some operand => cases operand <;> rfl

/-- A value that is read at an operand position is mentioned. -/
theorem mentions_of_id? {inst : Instruction} {position : Nat} {id : ValueId}
    (h : inst.id? position = some id) : inst.Mentions id := by
  simp only [id?] at h
  split at h
  · cases h
    exact Or.inr (List.mem_of_getElem? ‹_›)
  · cases h

theorem word_renumber (inst : Instruction) (position : Nat) :
    (inst.renumber f).word position = inst.word position := by
  rw [word, word, imm?_renumber]
  rfl

theorem operandRequirements_renumber (inst : Instruction) (positions : List (Nat × Family)) :
    (inst.renumber f).operandRequirements env positions =
      inst.operandRequirements env positions := by
  induction positions with
  | nil => rfl
  | cons first rest ih => rw [operandRequirements, operandRequirements, ih, word_renumber]

theorem decorationRequirements_renumber (inst : Instruction) (position : Nat) :
    (inst.renumber f).decorationRequirements env position =
      inst.decorationRequirements env position := by
  simp only [decorationRequirements, word_renumber]

theorem imageRequirements_renumber (inst : Instruction) :
    (inst.renumber f).imageRequirements env = inst.imageRequirements env := by
  have hlength : (inst.renumber f).operands.length = inst.operands.length := List.length_map _
  have hopcode : (inst.renumber f).opcode = inst.opcode := rfl
  simp only [imageRequirements, accessCapabilities, word_renumber, imm?_renumber, hlength, hopcode]

theorem importRequirements_renumber (inst : Instruction) :
    (inst.renumber f).importRequirements env = inst.importRequirements env := by
  rw [importRequirements, importRequirements, str?_renumber]
  rfl

variable {defs others : Definitions}

/-- The rule for variable pointers finds the renumbered definition of its type, and in its error
names the renumbered type. -/
theorem variablePointerRequirements_renumber {inst : Instruction}
    (hdefs : ∀ id, inst.Mentions id → others (f id) = (defs id).map (renumber f)) :
    (inst.renumber f).variablePointerRequirements env others =
      (inst.variablePointerRequirements env defs).mapError (·.renumber f) := by
  unfold variablePointerRequirements
  split
  · rw [id?_renumber]
    cases htype : inst.id? 1 with
    | none => rfl
    | some type =>
        have hdefinition := hdefs type (mentions_of_id? htype)
        simp only [Option.map_some, hdefinition]
        cases defs type with
        | none => rfl
        | some definition =>
            have hopcode : (definition.renumber f).opcode = definition.opcode := rfl
            simp only [Option.map_some, hopcode]
            split <;> rfl
  · rfl

/-- The requirements of a renumbered instruction are those of the original one. -/
theorem requirements_renumber {inst : Instruction}
    (hdefs : ∀ id, inst.Mentions id → others (f id) = (defs id).map (renumber f)) :
    (inst.renumber f).requirements env others =
      (inst.requirements env defs).mapError (·.renumber f) := by
  have hopcode : (inst.renumber f).opcode = inst.opcode := rfl
  by_cases hrule : Rule.of inst.opcode = .variablePointer
  · unfold requirements
    rw [hopcode, hrule]
    exact variablePointerRequirements_renumber hdefs
  · rw [(valueFree_requirements hrule).mapError_renumber]
    unfold requirements
    rw [hopcode]
    cases hof : Rule.of inst.opcode with
    | operands positions => exact operandRequirements_renumber inst positions
    | keyed position cases => simp only [word_renumber]
    | decoration position => exact decorationRequirements_renumber inst position
    | image => exact imageRequirements_renumber inst
    | variablePointer => exact absurd hof hrule
    | instructionSetImport => exact importRequirements_renumber inst
    | nothing | always | sampler | forwardPointer | pointerComparison => rfl

/-- Collecting a renumbered instruction is collecting the original one, up to the value in the
error. -/
theorem collect_renumber {inst : Instruction}
    (hdefs : ∀ id, inst.Mentions id → others (f id) = (defs id).map (renumber f))
    (c : Collector) : (inst.renumber f).collect env others c =
      (inst.collect env defs c).mapError (·.renumber f) := by
  rw [collect, collect, expandedRequirements, expandedRequirements, requirements_renumber hdefs]
  cases inst.requirements env defs with
  | error e => rfl
  | ok direct =>
      simp only [Except.mapError]
      cases Requirement.expandAll env.graph direct with
      | error e => rfl
      | ok all => exact ((c.valueFree_addAll all).mapError_renumber f).symm

end Instruction

/-! ## Units and modules -/

/-- The definitions of renumbered instructions are the renumbered definitions, as long as the
renumbering keeps the values apart. -/
theorem Definitions.ofList_renumber {insts : List Instruction} {values : Set ValueId}
    (hf : values.InjOn f) (hvalues : ∀ inst ∈ insts, ∀ id, inst.Mentions id → id ∈ values)
    {id : ValueId} (hid : id ∈ values) :
    ofList (insts.map (Instruction.renumber f)) (f id) =
      (ofList insts id).map (Instruction.renumber f) := by
  rw [ofList, ofList, List.find?_map]
  refine congrArg _ (List.find?_congr fun inst hinst => decide_eq_decide.2 ?_)
  show inst.result.map f = some (f id) ↔ inst.result = some id
  cases hresult : inst.result with
  | none => simp
  | some value =>
      have hvalue : value ∈ values := hvalues inst hinst value (Or.inl hresult)
      rw [Option.map_some, Option.some.injEq, Option.some.injEq, hf.eq_iff hvalue hid]

namespace CodeUnit

variable {defs others : Definitions}

theorem collectFrom_renumber {insts : List Instruction}
    (hdefs : ∀ inst ∈ insts, ∀ id, inst.Mentions id →
      others (f id) = (defs id).map (Instruction.renumber f))
    (name : String) (index : Nat) (c : Collector) :
    collectFrom env others name index c (insts.map (Instruction.renumber f)) =
      (collectFrom env defs name index c insts).mapError (·.renumber f) := by
  induction insts generalizing index c with
  | nil => rfl
  | cons inst rest ih =>
      rw [List.map_cons, collectFrom, collectFrom,
        Instruction.collect_renumber (hdefs inst List.mem_cons_self)]
      cases inst.collect env defs c with
      | error cause => rfl
      | ok next => exact ih (fun inst hinst => hdefs inst (List.mem_cons_of_mem _ hinst)) _ next

theorem resolve_renumber {unit : CodeUnit}
    (hdefs : ∀ inst ∈ unit.instructions, ∀ id, inst.Mentions id →
      others (f id) = (defs id).map (Instruction.renumber f)) :
    (unit.renumber f).resolve env others = (unit.resolve env defs).mapError (·.renumber f) := by
  have hcollect : collectFrom env others unit.name 0 .empty
      (unit.instructions.map (Instruction.renumber f)) =
        (collectFrom env defs unit.name 0 .empty unit.instructions).mapError (·.renumber f) :=
    collectFrom_renumber hdefs unit.name 0 .empty
  rw [resolve, resolve, renumber, hcollect]
  cases collectFrom env defs unit.name 0 .empty unit.instructions <;> rfl

theorem resolveAll_renumber {units : List CodeUnit}
    (hdefs : ∀ unit ∈ units, ∀ inst ∈ unit.instructions, ∀ id, inst.Mentions id →
      others (f id) = (defs id).map (Instruction.renumber f)) :
    resolveAll env others (units.map (renumber f)) =
      (resolveAll env defs units).mapError (·.renumber f) := by
  induction units with
  | nil => rfl
  | cons unit rest ih =>
      rw [List.map_cons, resolveAll, resolveAll, resolve_renumber (hdefs unit List.mem_cons_self),
        ih fun unit hunit => hdefs unit (List.mem_cons_of_mem _ hunit)]
      cases unit.resolve env defs with
      | error e => rfl
      | ok d => cases resolveAll env defs rest <;> rfl

end CodeUnit

/-- The definitions of a renumbered module are the renumbered definitions. -/
theorem Module.find?_index_renumber {m other : Module} (hf : m.mentioned.InjOn f)
    (hunits : other.units = m.units.map (CodeUnit.renumber f)) {id : ValueId}
    (hid : id ∈ m.mentioned) :
    other.index.find? (f id) = (m.index.find? id).map (Instruction.renumber f) := by
  have hinsts : other.units.flatMap (·.instructions) =
      (m.units.flatMap (·.instructions)).map (Instruction.renumber f) := by
    rw [hunits, List.map_flatMap, List.flatMap_map]
    rfl
  rw [index, index, DefinitionIndex.find?_ofUnits, DefinitionIndex.find?_ofUnits, hinsts]
  exact Definitions.ofList_renumber hf (fun inst hinst id h => ⟨inst, hinst, h⟩) hid

/-- A module whose values are renumbered, in such a way that those that it mentions stay apart, has
the outcome of the original one, up to the value in an error. -/
theorem Module.resolve_renumber {m other : Module} (hf : m.mentioned.InjOn f)
    (hunits : other.units = m.units.map (CodeUnit.renumber f)) :
    other.resolve env = (m.resolve env).mapError (·.renumber f) := by
  have hdefs : ∀ unit ∈ m.units, ∀ inst ∈ unit.instructions, ∀ id, inst.Mentions id →
      other.index.find? (f id) = (m.index.find? id).map (Instruction.renumber f) := by
    intro unit hunit inst hinst id hid
    have hinst' : inst ∈ m.instructions := List.mem_flatMap.2 ⟨unit, hunit, hinst⟩
    exact find?_index_renumber hf hunits ⟨inst, hinst', hid⟩
  rw [resolve, resolve, resolveUnits, resolveUnits, hunits,
    CodeUnit.resolveAll_renumber hdefs]
  cases CodeUnit.resolveAll env m.index.find? m.units <;> rfl

/-- A unit resolves alike behind definitions that tell the same values as defined, and the same ones
as pointer types. -/
theorem CodeUnit.resolve_of_agree {defs others : Definitions} (h : defs.Agree others)
    (unit : CodeUnit) : unit.resolve env defs = unit.resolve env others := by
  have hsame : unit.resolve env others =
      (unit.resolve env defs).mapError fun e => { e with unit := unit.name } :=
    resolve_of_body_eq h rfl
  rw [hsame]
  cases hresolve : unit.resolve env defs with
  | ok d => rfl
  | error e =>
      -- The error names the unit anyway.
      obtain ⟨-, -, -, -, -, -, -, hunit, -⟩ := resolve_eq_error_iff.1 hresolve
      rw [Except.mapError, ← hunit]

/-- Resolving looks neither at the numbers of values nor at the bodies of definitions. A renumbering
that keeps the values of a module apart changes the number of an undefined value in the error and
nothing else. A unit resolves alike behind definitions that tell the same values as defined, and the
same ones as pointer types. -/
theorem resolve_blind_to_numbers_and_bodies (env : Environment) :
    (∀ (m other : Module) (f : ValueId → ValueId), m.mentioned.InjOn f →
        other.units = m.units.map (CodeUnit.renumber f) →
        other.resolve env = (m.resolve env).mapError (·.renumber f)) ∧
      ∀ (unit : CodeUnit) (defs others : Definitions), defs.Agree others →
        unit.resolve env defs = unit.resolve env others :=
  ⟨fun _ _ _ hf hunits => Module.resolve_renumber hf hunits,
    fun unit _ _ h => unit.resolve_of_agree h⟩

/-- A module with the load alone, whose type is not defined. -/
def Module.strayLoad : Module where
  units := [⟨"main", [.pointerLoad]⟩]

/-- The type of the load is reported. -/
theorem Module.resolve_strayLoad : strayLoad.resolve (.ofTarget .standardVulkan) =
    .error ⟨"main", 0, .load, .undefinedValue ⟨0⟩⟩ := by
  have htype : strayLoad.index.find? ⟨0⟩ = none := by
    rw [index, DefinitionIndex.find?_ofUnits]
    rfl
  have hrule : Instruction.pointerLoad.requirements (.ofTarget .standardVulkan)
      strayLoad.index.find? = .error (.undefinedValue ⟨0⟩) := by
    show Instruction.pointerLoad.variablePointerRequirements _ _ = _
    have hid : Instruction.pointerLoad.id? 1 = some ⟨0⟩ := rfl
    rw [Instruction.variablePointerRequirements, hid]
    simp only [htype]
    rfl
  have hcollect : Instruction.pointerLoad.collect (.ofTarget .standardVulkan)
      strayLoad.index.find? .empty = .error (.undefinedValue ⟨0⟩) := by
    rw [Instruction.collect, Instruction.expandedRequirements, hrule]
  refine resolve_eq_error_iff.2 ⟨0, ?_, fun v hv => absurd hv (Nat.not_lt_zero v)⟩
  refine congrArg some (CodeUnit.resolve_eq_error_iff.2
    ⟨[], .pointerLoad, [], .empty, rfl, rfl, hcollect, rfl, rfl, rfl⟩)

/-- The pointer type with another body. -/
def Definitions.otherPointerType : Definitions :=
  fun id => if id = ⟨0⟩ then some (.of .typePointer none [.imm 1]) else none

theorem Definitions.agree_otherPointerType :
    (ofList [.pointerType]).Agree otherPointerType := by
  intro id
  by_cases hid : id = ⟨0⟩
  · subst hid
    rfl
  · have hresult : Instruction.pointerType.result ≠ some id :=
      fun h => hid (Option.some.inj h).symm
    rw [ofList, List.find?_cons_of_neg (by simpa using hresult), otherPointerType, if_neg hid]
    rfl

/-- With all numbers raised by seven, the load finds the pointer type as before, and without a
pointer type the raised number is reported; behind the pointer type with another body, the load
requires the same. -/
theorem resolve_blind_to_numbers_and_bodies_pointerLoad :
    Module.resolve ⟨Module.pointerLoad.units.map (CodeUnit.renumber fun id => ⟨id.index + 7⟩), []⟩
        (.ofTarget .standardVulkan) =
      .ok ⟨[.matrix, .shader, .variablePointersStorageBuffer, .variablePointers], []⟩ ∧
    Module.resolve ⟨Module.strayLoad.units.map (CodeUnit.renumber fun id => ⟨id.index + 7⟩), []⟩
        (.ofTarget .standardVulkan) = .error ⟨"main", 0, .load, .undefinedValue ⟨7⟩⟩ ∧
    CodeUnit.resolve ⟨"main", [.pointerLoad]⟩ (.ofTarget .standardVulkan)
        Definitions.otherPointerType =
      .ok ⟨[.matrix, .shader, .variablePointersStorageBuffer, .variablePointers], []⟩ := by
  obtain ⟨hnumbers, hbodies⟩ := resolve_blind_to_numbers_and_bodies (.ofTarget .standardVulkan)
  have hinjective : Function.Injective fun id : ValueId => (⟨id.index + 7⟩ : ValueId) := by
    intro id other h
    have hindex : id.index + 7 = other.index + 7 := congrArg ValueId.index h
    exact congrArg ValueId.mk ((UInt32.add_left_inj 7).1 hindex)
  refine ⟨?_, ?_, ?_⟩
  · rw [hnumbers Module.pointerLoad _ _ hinjective.injOn rfl, Module.resolve_pointerLoad]
    rfl
  · rw [hnumbers Module.strayLoad _ _ hinjective.injOn rfl, Module.resolve_strayLoad]
    rfl
  · rw [← hbodies _ _ _ Definitions.agree_otherPointerType]
    exact CodeUnit.resolve_pointerLoad rfl

end SpirvLegality
