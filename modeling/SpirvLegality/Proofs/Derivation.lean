import SpirvLegality.Proofs.Failure
import SpirvLegality.Proofs.Widening

/-!
# When requirements can be derived

The rule of an instruction has to read some of its operands (`Instruction.reads`) and looks some of
them up (`Instruction.lookups`). The derivation fails where an operand is not as it is read, where
the target is too old for a row, or where the rule itself refuses the instruction, and each of these
is named by its own error (`Instruction.Fault`). No two of them come together, as the only rows that
a target can be too old for are those of decorations behind which nothing is read. So the error is
determined (`Instruction.requirements_eq_error_iff`).
-/

namespace SpirvLegality

/-! ## What a rule reads -/

/-- How an operand is read. -/
inductive OperandKind where
  /-- The operand only has to be there. -/
  | any
  | word
  | value
  | text
deriving DecidableEq, Repr

namespace Instruction

/-- Whether an instruction has an operand at a position, of the kind as which it is read. -/
def has (inst : Instruction) : Nat × OperandKind → Bool
  | (position, .any) => position < inst.operands.length
  | (position, .word) => (inst.imm? position).isSome
  | (position, .value) => (inst.id? position).isSome
  | (position, .text) => (inst.str? position).isSome

/-- Whether the operand at a position marks a variable as built in. -/
def namesBuiltIn (inst : Instruction) (position : Nat) : Bool :=
  inst.imm? position == some builtInDecoration

/-- The operands that the rule of an instruction has to read, in the order in which it does. -/
def reads (inst : Instruction) (env : Environment) : List (Nat × OperandKind) :=
  match Rule.of inst.opcode with
  | .operands positions => positions.map fun (position, _) => (position, .word)
  | .keyed position _ => [(position, .word)]
  | .decoration position =>
    if inst.namesBuiltIn position then [(position, .word), (position + 1, .word)]
    else [(position, .word)]
  | .image => (List.range 8).map (·, .any) ++ [7, 4, 5, 6, 2].map (·, .word)
  | .variablePointer => if env.target.isLogical then [(1, .value)] else []
  | .instructionSetImport => [(1, .text)]
  | .nothing | .always _ | .sampler | .forwardPointer | .pointerComparison => []

/-- The operands that the rule of an instruction looks up, with their families. -/
def lookups (inst : Instruction) : List (Nat × Family) :=
  match Rule.of inst.opcode with
  | .operands positions => positions
  | .decoration position =>
    if inst.namesBuiltIn position then [(position, .decoration), (position + 1, .builtIn)]
    else [(position, .decoration)]
  | .image => [(7, .imageFormat)]
  | _ => []

/-- The first of some operands that an instruction does not have as they are read. -/
def firstLacking? (inst : Instruction) (operands : List (Nat × OperandKind)) :
    Option (Nat × OperandKind) :=
  operands.find? fun operand => !inst.has operand

end Instruction

/-- Whether the target is too old for a row: its version is below the first version of the row, and
it has none of the extensions that would make up for this. -/
structure Environment.TooOld {α : Type} (env : Environment) (row : Enumerant α) : Prop where
  below : env.target.spirv.atLeast row.minVersion = false
  noEnabler : ∀ ext ∈ row.extensions, env.hasExtension ext = false

/-- `inst.Fault env defs e` says that the requirements of an instruction cannot be derived, because
of `e`. -/
inductive Instruction.Fault (env : Environment) (defs : Definitions) (inst : Instruction) :
    RequirementError → Prop where
  | missingOperand (position kind) :
      inst.firstLacking? (inst.reads env) = some (position, kind) →
      Fault env defs inst (.missingOperand inst.opcode position)
  | versionTooLow (position family word row) :
      (position, family) ∈ inst.lookups → inst.imm? position = some word →
      family.table.get? word = some row → env.TooOld row →
      Fault env defs inst (.versionTooLow row.name row.minVersion env.target.spirv)
  | undefinedValue (type) :
      Rule.of inst.opcode = .variablePointer → env.target.isLogical = true →
      inst.id? 1 = some type → defs type = none →
      Fault env defs inst (.undefinedValue type)
  | unsupportedInstruction :
      inst.opcode = .ptrEqual ∨ inst.opcode = .ptrNotEqual →
      env.target.spirv.isUnspecified = false → env.target.spirv.bits < (Version.of 1 4).bits →
      Fault env defs inst
        (.unsupportedInstruction inst.opcode "pointer comparison needs SPIR-V 1.4")
  | instructionSetUnavailable (name) :
      inst.opcode = .extInstImport → inst.str? 1 = some name →
      (∀ set, InstructionSet.ofName? name = some set → env.hasInstructionSet set = false) →
      Fault env defs inst (.instructionSetUnavailable name)

variable {env : Environment} {defs : Definitions}

/-! ## Rows that a target can be too old for -/

/-- Apart from decorations that mark nothing as built in, every operand is legal in every
version. -/
theorem Family.minVersion_eq_unspecified {family : Family} {word : UInt32}
    {row : Enumerant UInt32} (h : family.table.get? word = some row)
    (hordinary : family = .decoration → word = Instruction.builtInDecoration) :
    row.minVersion = .unspecified := by
  have hall : ∀ family : Family, ∀ row ∈ family.table.rows.toList,
      (family = .decoration → row.value = Instruction.builtInDecoration) →
        row.minVersion = .unspecified := by
    intro family
    cases family <;> decide +kernel
  obtain ⟨hrow, hnumber⟩ := EnumTable.mem_of_get? h
  refine hall family row (Array.mem_toList_iff.2 hrow) fun hdecoration => ?_
  rw [← hordinary hdecoration, ← hnumber]
  rfl

theorem Version.atLeast_unspecified (v : Version) : v.atLeast .unspecified = true := by
  simp [atLeast, unspecified]

theorem Version.atLeast_eq_false_iff {v threshold : Version} :
    v.atLeast threshold = false ↔ v.isUnspecified = false ∧ v.bits < threshold.bits := by
  simp [atLeast]

/-- The gate of a row without a last version fails where the target is too old for the row. -/
theorem Environment.gate_eq_error_iff {α : Type} {row : Enumerant α} {e : RequirementError}
    (hmax : row.maxVersion = .unspecified) : env.gate row = .error e ↔
      env.TooOld row ∧ e = .versionTooLow row.name row.minVersion env.target.spirv := by
  have hold : env.TooOld row ↔ env.target.spirv.atLeast row.minVersion = false ∧
      row.extensions.find? env.hasExtension = none := by
    rw [List.find?_eq_none]
    exact ⟨fun h => ⟨h.below, by simpa using h.noEnabler⟩,
      fun h => ⟨h.1, by simpa using h.2⟩⟩
  rw [hold, gate]
  cases hversion : env.target.spirv.atLeast row.minVersion with
  | true => simp [hmax, Version.isUnspecified, Version.unspecified]
  | false => cases row.extensions.find? env.hasExtension <;> simp [eq_comm]

namespace Family

variable {family : Family} {word : UInt32}

/-- Looking up an operand fails where the target is too old for its row. -/
theorem requirements_eq_error_iff {e : RequirementError} :
    family.requirements word env = .error e ↔
      ∃ row, family.table.get? word = some row ∧ env.TooOld row ∧
        e = .versionTooLow row.name row.minVersion env.target.spirv := by
  cases hrow : family.table.get? word with
  | none => simp [requirements, hrow]
  | some row =>
      have hgate := env.gate_eq_error_iff (e := e) (maxVersion_eq_unspecified hrow)
      simp only [requirements, hrow, Option.some.injEq, exists_eq_left', ← hgate]
      cases env.gate row with
      | error cause => simp
      | ok ext => cases ext <;> simp

/-- No target is too old for an ordinary operand. -/
theorem requirements_ne_error {e : RequirementError}
    (hordinary : family = .decoration → word = Instruction.builtInDecoration) :
    family.requirements word env ≠ .error e := by
  intro h
  obtain ⟨row, hrow, hold, -⟩ := requirements_eq_error_iff.1 h
  have hbelow := hold.below
  rw [minVersion_eq_unspecified hrow hordinary, Version.atLeast_unspecified] at hbelow
  cases hbelow

theorem exists_requirements (family : Family) (word : UInt32) (env : Environment)
    (hordinary : family = .decoration → word = Instruction.builtInDecoration) :
    ∃ reqs, family.requirements word env = .ok reqs := by
  cases h : family.requirements word env with
  | ok reqs => exact ⟨reqs, rfl⟩
  | error e => exact absurd h (requirements_ne_error hordinary)

/-- A row asks for a choice only between two capabilities or more. -/
theorem two_le_length_of_mem_choice {row : Enumerant UInt32} {candidates : List Capability}
    (h : .anyOf candidates ∈ choice row) : 2 ≤ candidates.length := by
  rw [choice] at h
  cases hcaps : row.capabilities with
  | nil => simp [hcaps, Requirement.oneOf, Requirement.isNothing] at h
  | cons first rest =>
      cases rest with
      | nil => simp [hcaps, Requirement.oneOf, Requirement.isNothing] at h
      | cons second rest =>
          have hcandidates : candidates = first :: second :: rest := by
            simpa [hcaps, Requirement.oneOf, Requirement.isNothing] using h
          simp [hcandidates]

end Family

/-- A computation in two steps fails where the first step does, or the second one behind it. -/
theorem except_bind_eq_error_iff {ε α β : Type} {x : Except ε α} {f : α → Except ε β} {e : ε} :
    (x >>= f) = .error e ↔ x = .error e ∨ ∃ a, x = .ok a ∧ f a = .error e := by
  cases x <;> simp [bind, Except.bind]

/-- What is done with a result without an error behind it makes no computation fail. -/
theorem except_bind_pure_eq_error_iff {ε α β : Type} {x : Except ε α} {f : α → β} {e : ε} :
    (x >>= fun a => pure (f a)) = .error e ↔ x = .error e := by
  cases x <;> simp

namespace Instruction

variable {inst : Instruction} {e : RequirementError}

/-! ## Reading operands -/

/-- Whether `e` names the first of some operands that an instruction does not have as they are
read. -/
def Misses (inst : Instruction) (operands : List (Nat × OperandKind)) (e : RequirementError) :
    Prop :=
  ∃ position kind, inst.firstLacking? operands = some (position, kind) ∧
    e = .missingOperand inst.opcode position

theorem not_misses_nil : ¬ inst.Misses [] e := nofun

theorem misses_cons_iff {position : Nat} {kind : OperandKind}
    {rest : List (Nat × OperandKind)} : inst.Misses ((position, kind) :: rest) e ↔
      inst.has (position, kind) = false ∧ e = .missingOperand inst.opcode position ∨
        inst.has (position, kind) = true ∧ inst.Misses rest e := by
  rw [Misses, firstLacking?, List.find?_cons]
  cases inst.has (position, kind) with
  | true => simp [Misses, firstLacking?]
  | false => simp

theorem word_eq_error_iff {position : Nat} : inst.word position = .error e ↔
    inst.has (position, .word) = false ∧ e = .missingOperand inst.opcode position := by
  rw [word, has]
  cases inst.imm? position <;> simp [eq_comm]

theorem word_eq_ok_iff {position : Nat} {word : UInt32} :
    inst.word position = .ok word ↔ inst.imm? position = some word := by
  rw [Instruction.word]
  cases inst.imm? position <;> simp

/-- Reading a word and going on fails where the word is missed, or where the rest misses one of
its own operands. -/
theorem word_bind_eq_error_iff {α : Type} {position : Nat} {rest : List (Nat × OperandKind)}
    {f : UInt32 → Except RequirementError α}
    (hf : ∀ word, inst.imm? position = some word → (f word = .error e ↔ inst.Misses rest e)) :
    (inst.word position >>= f) = .error e ↔ inst.Misses ((position, .word) :: rest) e := by
  rw [except_bind_eq_error_iff, misses_cons_iff, word_eq_error_iff]
  simp only [word_eq_ok_iff]
  cases hword : inst.imm? position with
  | none => simp [has, hword]
  | some word => simp [has, hword, hf word hword]

/-- Where the first so many operands have to be there, the one behind the last is missed, or none of
them. -/
theorem misses_any_iff {count : Nat} {rest : List (Nat × OperandKind)} :
    inst.Misses ((List.range count).map (·, .any) ++ rest) e ↔
      if inst.operands.length < count then
        e = .missingOperand inst.opcode inst.operands.length
      else inst.Misses rest e := by
  have hfirst : inst.firstLacking? ((List.range count).map (·, .any)) =
      if inst.operands.length < count then some (inst.operands.length, .any) else none := by
    induction count with
    | zero => rfl
    | succ count ih =>
        rw [firstLacking?] at ih ⊢
        rw [List.range_succ, List.map_append, List.find?_append, ih]
        rcases Nat.lt_trichotomy inst.operands.length count with h | h | h
        · simp [h, Nat.lt_succ_of_lt h]
        · simp [h, has]
        · simp [has, h, Nat.not_lt_of_gt h, Nat.not_lt.2 (Nat.succ_le_of_lt h)]
  simp only [firstLacking?] at hfirst
  rw [Misses, firstLacking?, List.find?_append, hfirst]
  split
  · simp
  · simp [Misses, firstLacking?]

/-! ## The rules -/

/-- Operands that are no decorations fail only where one of their words is missed. -/
theorem operandRequirements_eq_error_iff {positions : List (Nat × Family)}
    (hordinary : ∀ operand ∈ positions, operand.2 ≠ .decoration) :
    inst.operandRequirements env positions = .error e ↔
      inst.Misses (positions.map fun (position, _) => (position, .word)) e := by
  induction positions with
  | nil => simp [operandRequirements, not_misses_nil]
  | cons operand rest ih =>
      obtain ⟨hfirst, hrest⟩ := List.forall_mem_cons.1 hordinary
      refine word_bind_eq_error_iff fun word _ => ?_
      obtain ⟨reqs, hreqs⟩ := operand.2.exists_requirements word env fun h => absurd h hfirst
      rw [hreqs, ← ih hrest]
      exact except_bind_pure_eq_error_iff

/-- A decoration is read, and what is built in behind it; only the decoration can be too new. -/
theorem decorationRequirements_eq_error_iff {position : Nat} :
    inst.decorationRequirements env position = .error e ↔
      inst.Misses
          (if inst.namesBuiltIn position then [(position, .word), (position + 1, .word)]
          else [(position, .word)]) e ∨
        ∃ word, inst.imm? position = some word ∧
          Family.decoration.requirements word env = .error e := by
  by_cases hmark : inst.namesBuiltIn position = true
  · have hword : inst.imm? position = some builtInDecoration := by simpa [namesBuiltIn] using hmark
    rw [if_pos hmark, hword]
    simp only [Option.some.injEq, exists_eq_left', Family.requirements_ne_error fun _ => rfl,
      or_false]
    refine word_bind_eq_error_iff fun word hword' => ?_
    obtain rfl : builtInDecoration = word := Option.some.inj (hword.symm.trans hword')
    obtain ⟨own, hown⟩ := Family.decoration.exists_requirements _ env fun _ => rfl
    rw [hown]
    refine word_bind_eq_error_iff fun meaning _ => ?_
    obtain ⟨builtIn, hbuiltIn⟩ := Family.builtIn.exists_requirements meaning env nofun
    rw [hbuiltIn]
    exact iff_of_false nofun not_misses_nil
  · rw [if_neg hmark, decorationRequirements, except_bind_eq_error_iff, misses_cons_iff,
      word_eq_error_iff]
    simp only [not_misses_nil, and_false, or_false, word_eq_ok_iff]
    refine or_congr_right (exists_congr fun word => and_congr_right fun hword => ?_)
    have hword' : word ≠ builtInDecoration := fun h => hmark (by simp [namesBuiltIn, hword, h])
    simp only [if_neg hword']
    exact except_bind_pure_eq_error_iff

/-- An image type reads five words behind the check that all its operands are there. -/
theorem imageRequirements_eq_error_iff : inst.imageRequirements env = .error e ↔
    inst.Misses ((List.range 8).map (·, .any) ++ [7, 4, 5, 6, 2].map (·, .word)) e := by
  rw [misses_any_iff, imageRequirements]
  split
  · exact ⟨fun h => by cases h; rfl, fun h => by subst h; rfl⟩
  · refine word_bind_eq_error_iff fun format _ => ?_
    obtain ⟨ofFormat, hofFormat⟩ := Family.imageFormat.exists_requirements format env nofun
    rw [hofFormat]
    exact word_bind_eq_error_iff fun _ _ => word_bind_eq_error_iff fun _ _ =>
      word_bind_eq_error_iff fun _ _ => word_bind_eq_error_iff fun _ _ =>
        iff_of_false nofun not_misses_nil

/-- Under logical addressing the result type is read, and it has to be defined. -/
theorem variablePointerRequirements_eq_error_iff :
    inst.variablePointerRequirements env defs = .error e ↔
      inst.Misses (if env.target.isLogical then [(1, .value)] else []) e ∨
        env.target.isLogical = true ∧
          ∃ type, inst.id? 1 = some type ∧ defs type = none ∧ e = .undefinedValue type := by
  unfold variablePointerRequirements
  cases env.target.isLogical with
  | false => simp [not_misses_nil]
  | true =>
      simp only [if_true, misses_cons_iff, has, not_misses_nil]
      cases inst.id? 1 with
      | none => simp [eq_comm (a := e)]
      | some type =>
          cases hdef : defs type with
          | none => simp [hdef, eq_comm (a := e)]
          | some definition => by_cases hpointer : definition.opcode = .typePointer <;>
              simp [hdef, hpointer]

/-- The name of an instruction set is read, and an import of the set has to be available. -/
theorem importRequirements_eq_error_iff : inst.importRequirements env = .error e ↔
    inst.Misses [(1, .text)] e ∨ ∃ name, inst.str? 1 = some name ∧
      (∀ set, InstructionSet.ofName? name = some set → env.hasInstructionSet set = false) ∧
        e = .instructionSetUnavailable name := by
  unfold importRequirements
  simp only [misses_cons_iff, has, not_misses_nil]
  cases inst.str? 1 with
  | none => simp [eq_comm (a := e)]
  | some name =>
      cases hset : InstructionSet.ofName? name with
      | none => simp [hset, eq_comm (a := e)]
      | some set => cases hhas : env.hasInstructionSet set <;> simp [hset, hhas, eq_comm (a := e)]

/-! ## Every instruction -/

end Instruction

namespace Rule

variable {opcode : Opcode}

/-- Decorations are looked up by a rule of their own. -/
theorem ne_decoration_of_operands {positions : List (Nat × Family)}
    (h : of opcode = .operands positions) : ∀ operand ∈ positions, operand.2 ≠ .decoration := by
  cases opcode <;> cases h <;> decide

theorem of_eq_pointerComparison_iff :
    of opcode = .pointerComparison ↔ opcode = .ptrEqual ∨ opcode = .ptrNotEqual := by
  cases opcode <;> simp [of]

theorem of_eq_instructionSetImport_iff :
    of opcode = .instructionSetImport ↔ opcode = .extInstImport := by
  cases opcode <;> simp [of]

end Rule

namespace Instruction

variable {inst : Instruction} {e : RequirementError}

/-- Looking up an operand of an instruction fails only at a decoration that marks nothing as
built in. -/
theorem lookup_eq_error_iff : (∃ position family word, (position, family) ∈ inst.lookups ∧
      inst.imm? position = some word ∧ family.requirements word env = .error e) ↔
    ∃ position word, Rule.of inst.opcode = .decoration position ∧
      inst.imm? position = some word ∧ Family.decoration.requirements word env = .error e := by
  constructor
  · rintro ⟨position, family, word, hlookup, hword, herror⟩
    cases family with
    | decoration =>
        refine ⟨position, word, ?_, hword, herror⟩
        cases hrule : Rule.of inst.opcode with
        | decoration start =>
            simp only [lookups, hrule] at hlookup
            split at hlookup <;> simp_all
        | operands positions =>
            rw [lookups, hrule] at hlookup
            exact absurd rfl (Rule.ne_decoration_of_operands hrule _ hlookup)
        | _ => simp [lookups, hrule] at hlookup
    | _ => exact absurd herror (Family.requirements_ne_error nofun)
  · rintro ⟨position, word, hrule, hword, herror⟩
    refine ⟨position, .decoration, word, ?_, hword, herror⟩
    simp only [lookups, hrule]
    split <;> simp

theorem fault_iff : inst.Fault env defs e ↔
    inst.Misses (inst.reads env) e ∨
    (∃ position word, Rule.of inst.opcode = .decoration position ∧
      inst.imm? position = some word ∧ Family.decoration.requirements word env = .error e) ∨
    (Rule.of inst.opcode = .variablePointer ∧ env.target.isLogical = true ∧
      ∃ type, inst.id? 1 = some type ∧ defs type = none ∧ e = .undefinedValue type) ∨
    (Rule.of inst.opcode = .pointerComparison ∧ env.target.comparesPointers = false ∧
      e = .unsupportedInstruction inst.opcode "pointer comparison needs SPIR-V 1.4") ∨
    (Rule.of inst.opcode = .instructionSetImport ∧ ∃ name, inst.str? 1 = some name ∧
      (∀ set, InstructionSet.ofName? name = some set → env.hasInstructionSet set = false) ∧
        e = .instructionSetUnavailable name) := by
  rw [← lookup_eq_error_iff, Rule.of_eq_pointerComparison_iff, Rule.of_eq_instructionSetImport_iff,
    Target.comparesPointers, Version.atLeast_eq_false_iff]
  constructor
  · rintro (⟨position, kind, h⟩ | ⟨position, family, word, row, hlookup, hword, hrow, hold⟩ |
      ⟨type, hrule, hlogical, htype, hdef⟩ | ⟨hopcode, hpinned, hbelow⟩ |
      ⟨name, hopcode, hname, hset⟩)
    · exact Or.inl ⟨position, kind, h, rfl⟩
    · exact Or.inr (Or.inl ⟨position, family, word, hlookup, hword,
        Family.requirements_eq_error_iff.2 ⟨row, hrow, hold, rfl⟩⟩)
    · exact Or.inr (Or.inr (Or.inl ⟨hrule, hlogical, type, htype, hdef, rfl⟩))
    · exact Or.inr (Or.inr (Or.inr (Or.inl ⟨hopcode, ⟨hpinned, hbelow⟩, rfl⟩)))
    · exact Or.inr (Or.inr (Or.inr (Or.inr ⟨hopcode, name, hname, hset, rfl⟩)))
  · rintro (⟨position, kind, h, rfl⟩ | ⟨position, family, word, hlookup, hword, herror⟩ |
      ⟨hrule, hlogical, type, htype, hdef, rfl⟩ | ⟨hopcode, ⟨hpinned, hbelow⟩, rfl⟩ |
      ⟨hopcode, name, hname, hset, rfl⟩)
    · exact .missingOperand position kind h
    · obtain ⟨row, hrow, hold, rfl⟩ := Family.requirements_eq_error_iff.1 herror
      exact .versionTooLow position family word row hlookup hword hrow hold
    · exact .undefinedValue type hrule hlogical htype hdef
    · exact .unsupportedInstruction hopcode hpinned hbelow
    · exact .instructionSetUnavailable name hopcode hname hset

/-- The requirements of an instruction cannot be derived because of `e` just where `e` is the fault
of the instruction. -/
theorem requirements_eq_error_iff :
    inst.requirements env defs = .error e ↔ inst.Fault env defs e := by
  rw [fault_iff, requirements, reads]
  cases hrule : Rule.of inst.opcode with
  | nothing | always | sampler | forwardPointer => simp [not_misses_nil]
  | operands positions =>
      simpa using operandRequirements_eq_error_iff (Rule.ne_decoration_of_operands hrule)
  | keyed position cases =>
      have hnone : ∀ word, (pure ((cases.lookup word).map Requirement.capability).toList :
          Except RequirementError _) = .error e ↔ inst.Misses [] e := fun _ =>
        iff_of_false nofun not_misses_nil
      exact (word_bind_eq_error_iff fun word _ => hnone word).trans (by simp)
  | decoration position => simpa using decorationRequirements_eq_error_iff
  | image => simpa using imageRequirements_eq_error_iff
  | variablePointer => simpa using variablePointerRequirements_eq_error_iff
  | pointerComparison =>
      cases hcompares : env.target.comparesPointers <;>
        simp [not_misses_nil, eq_comm (a := e)]
  | instructionSetImport => simpa using importRequirements_eq_error_iff

/-- A choice of an instruction is that of a row, so it has two candidates at least. -/
theorem two_le_length_of_anyOf {reqs : List Requirement} (h : inst.requirements env defs = .ok reqs)
    {candidates : List Capability} (hmem : .anyOf candidates ∈ reqs) : 2 ≤ candidates.length := by
  cases origin_of_mem_requirements h _ hmem with
  | operand family word looked _ hlooked hmem =>
      cases hrow : family.table.get? word with
      | none =>
          rw [Family.requirements, hrow] at hlooked
          cases hlooked
          cases hmem
      | some row =>
          obtain ⟨ext, -, rfl⟩ := (Family.requirements_eq_ok_iff hrow).1 hlooked
          exact Family.two_le_length_of_mem_choice (by simpa using hmem)

/-- The requirements of an instruction cannot be derived just where the instruction has a fault,
and the fault is the error. An operand is reported as missing just where the rule has to read one
that the instruction does not have. No error is about a choice, a last version or the graph, and
where the requirements are derived, each choice among them has two candidates at least. -/
theorem derivation_outcome (env : Environment) (defs : Definitions) (inst : Instruction) :
    (∀ e, inst.requirements env defs = .error e ↔ inst.Fault env defs e) ∧
    ((∃ position, inst.requirements env defs = .error (.missingOperand inst.opcode position)) ↔
      ∃ operand ∈ inst.reads env, inst.has operand = false) ∧
    (∀ e, inst.requirements env defs = .error e →
      (∀ candidates, e ≠ .unsatisfiable candidates) ∧
      (∀ subject last target, e ≠ .versionTooHigh subject last target) ∧
      ∀ cause, e ≠ .graph cause) ∧
    ∀ reqs, inst.requirements env defs = .ok reqs →
      ∀ candidates, .anyOf candidates ∈ reqs → 2 ≤ candidates.length := by
  refine ⟨fun e => requirements_eq_error_iff, ?_, fun e h => ?_, fun reqs h candidates =>
    two_le_length_of_anyOf h⟩
  · simp only [requirements_eq_error_iff]
    constructor
    · rintro ⟨position, h⟩
      cases h with
      | missingOperand _ kind hfirst =>
          refine ⟨(position, kind), List.mem_of_find?_eq_some hfirst, ?_⟩
          simpa using List.find?_some hfirst
    · rintro ⟨operand, hmem, hlacking⟩
      have hsome : (inst.firstLacking? (inst.reads env)).isSome = true :=
        List.find?_isSome.2 ⟨operand, hmem, by simp [hlacking]⟩
      obtain ⟨⟨position, kind⟩, hfirst⟩ := Option.isSome_iff_exists.1 hsome
      exact ⟨position, .missingOperand position kind hfirst⟩
  · cases requirements_eq_error_iff.1 h <;> exact ⟨nofun, nofun, nofun⟩

/-- A decoration of a value as not wrapping around. -/
def noSignedWrap : Instruction := .of .decorate none [.id ⟨0⟩, .imm 4469]

/-- SPIR-V 1.0 is too old for one decoration, another one leaves a choice, and an image type without
operands misses the first of them. -/
theorem derivation_outcome_multiview :
    noSignedWrap.requirements .multiview (fun _ => none) =
      .error (.versionTooLow "NoSignedWrap" (.of 1 4) (.of 1 0)) ∧
    (∃ position, bareImage.requirements .multiview (fun _ => none) =
      .error (.missingOperand .typeImage position)) ∧
    (∀ cause, RequirementError.versionTooLow "NoSignedWrap" (.of 1 4) (.of 1 0) ≠ .graph cause) ∧
    ∀ candidates, .anyOf candidates ∈ [Requirement.anyOf [.shader, .kernel]] →
      2 ≤ candidates.length := by
  let row : Enumerant UInt32 :=
    { value := 4469, name := "NoSignedWrap", capabilities := [],
      extensions := [.khrNoIntegerWrapDecoration], minVersion := .of 1 4 }
  have hold : Environment.multiview.TooOld row := ⟨by decide, by decide +kernel⟩
  have hfault : noSignedWrap.Fault .multiview (fun _ => none)
      (.versionTooLow "NoSignedWrap" (.of 1 4) (.of 1 0)) :=
    .versionTooLow 1 .decoration 4469 row (by decide) (by decide) (by decide +kernel) hold
  have herror := ((derivation_outcome .multiview (fun _ => none) noSignedWrap).1 _).2 hfault
  have hchoice : specialization.requirements .multiview (fun _ => none) =
      .ok [.anyOf [.shader, .kernel]] :=
    show specialization.decorationRequirements .multiview 1 = _ by decide +kernel
  refine ⟨herror, ?_, ?_, ?_⟩
  · exact (derivation_outcome .multiview _ bareImage).2.1.2 ⟨(0, .any), by decide, by decide⟩
  · exact ((derivation_outcome .multiview _ noSignedWrap).2.2.1 _ herror).2.2
  · exact (derivation_outcome .multiview _ specialization).2.2.2 _ hchoice

end Instruction

end SpirvLegality
