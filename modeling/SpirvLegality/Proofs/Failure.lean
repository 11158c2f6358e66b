import SpirvLegality.Proofs.Soundness

/-!
# Where resolving fails

The instructions of a unit are collected one after the other, so the error of a unit comes from the
first instruction whose requirements cannot be added, and what follows that instruction does not
matter (`CodeUnit.resolve_eq_error_iff`). The error of a module is that of the first unit that fails
(`Module.resolve_eq_error_iff`). `failure_located` says both.
-/

namespace SpirvLegality

variable {env : Environment} {defs : Definitions}

namespace CodeUnit

/-- Where the first instructions of a list can be collected, the others are collected behind
them. -/
theorem collectFrom_append {name : String} {index : Nat} {c next : Collector}
    {before rest : List Instruction} (h : collectFrom env defs name index c before = .ok next) :
    collectFrom env defs name index c (before ++ rest) =
      collectFrom env defs name (index + before.length) next rest := by
  induction before generalizing index c with
  | nil =>
      cases h
      rfl
  | cons first before ih =>
      rw [collectFrom] at h
      rw [List.cons_append, collectFrom]
      cases hfirst : first.collect env defs c with
      | error cause =>
          rw [hfirst] at h
          cases h
      | ok middle =>
          rw [hfirst] at h
          have hrest := ih h
          rw [List.length_cons, Nat.add_comm before.length, ← Nat.add_assoc]
          exact hrest

/-- Collecting that fails does so at an instruction behind others that are collected. -/
theorem exists_failing_of_collectFrom {name : String} {index : Nat} {c : Collector}
    {insts : List Instruction} {e : ResolutionError}
    (h : collectFrom env defs name index c insts = .error e) :
    ∃ before inst rest next, insts = before ++ inst :: rest ∧
      collectFrom env defs name index c before = .ok next ∧
        inst.collect env defs next = .error e.cause ∧
          e.unit = name ∧ e.index = index + before.length ∧ e.opcode = inst.opcode := by
  induction insts generalizing index c with
  | nil => cases h
  | cons first rest ih =>
      rw [collectFrom] at h
      cases hfirst : first.collect env defs c with
      | error cause =>
          rw [hfirst] at h
          cases h
          exact ⟨[], first, rest, c, rfl, rfl, hfirst, rfl, rfl, rfl⟩
      | ok middle =>
          rw [hfirst] at h
          obtain ⟨before, inst, others, next, rfl, hbefore, hinst, hunit, hindex, hopcode⟩ := ih h
          refine ⟨first :: before, inst, others, next, rfl, ?_, hinst, hunit, ?_, hopcode⟩
          · rw [collectFrom, hfirst]
            exact hbefore
          · rw [List.length_cons]
            omega

/-- A unit resolves exactly where its instructions can be collected. -/
theorem exists_resolve_iff {unit : CodeUnit} : (∃ d, unit.resolve env defs = .ok d) ↔
    ∃ c, collectFrom env defs unit.name 0 .empty unit.instructions = .ok c := by
  unfold resolve
  cases collectFrom env defs unit.name 0 .empty unit.instructions <;> simp

/-- A unit fails at the first instruction whose requirements cannot be added. -/
theorem resolve_eq_error_iff {unit : CodeUnit} {e : ResolutionError} :
    unit.resolve env defs = .error e ↔
      ∃ before inst rest next, unit.instructions = before ++ inst :: rest ∧
        collectFrom env defs unit.name 0 .empty before = .ok next ∧
          inst.collect env defs next = .error e.cause ∧
            e.unit = unit.name ∧ e.index = before.length ∧ e.opcode = inst.opcode := by
  have hcollect : unit.resolve env defs = .error e ↔
      collectFrom env defs unit.name 0 .empty unit.instructions = .error e := by
    unfold resolve
    cases collectFrom env defs unit.name 0 .empty unit.instructions <;> simp
  rw [hcollect]
  constructor
  · intro h
    simpa only [Nat.zero_add] using exists_failing_of_collectFrom h
  · intro h
    obtain ⟨before, inst, rest, next, hsplit, hbefore, hinst, hunit, hindex, hopcode⟩ := h
    rw [hsplit, collectFrom_append hbefore, collectFrom, hinst, Nat.zero_add, ← hunit, ← hindex,
      ← hopcode]

/-- Several units fail with the error of the first that fails. -/
theorem resolveAll_eq_error_iff {units : List CodeUnit} {e : ResolutionError} :
    resolveAll env defs units = .error e ↔
      ∃ u : Nat, (units.map fun unit => unit.resolve env defs)[u]? = some (.error e) ∧
        ∀ v < u, ∃ d, (units.map fun unit => unit.resolve env defs)[v]? = some (.ok d) := by
  induction units with
  | nil => simp [resolveAll]
  | cons unit rest ih =>
      have hcons : resolveAll env defs (unit :: rest) = .error e ↔
          unit.resolve env defs = .error e ∨
            (∃ d, unit.resolve env defs = .ok d) ∧ resolveAll env defs rest = .error e := by
        rw [resolveAll]
        cases unit.resolve env defs with
        | error cause => simp [bind, Except.bind]
        | ok d => cases resolveAll env defs rest <;> simp [bind, Except.bind, pure, Except.pure]
      rw [hcons, ih]
      constructor
      · intro h
        rcases h with hunit | ⟨⟨d, hunit⟩, u, hfails, hearlier⟩
        · exact ⟨0, by simp [hunit], fun v hv => absurd hv (Nat.not_lt_zero v)⟩
        · refine ⟨u + 1, by simpa using hfails, fun v hv => ?_⟩
          cases v with
          | zero => exact ⟨d, by simp [hunit]⟩
          | succ v => simpa using hearlier v (by omega)
      · intro h
        obtain ⟨u, hfails, hearlier⟩ := h
        cases u with
        | zero => exact Or.inl (by simpa using hfails)
        | succ u =>
            obtain ⟨d, hunit⟩ := hearlier 0 (by omega)
            refine Or.inr ⟨⟨d, by simpa using hunit⟩, u, by simpa using hfails, fun v hv => ?_⟩
            simpa using hearlier (v + 1) (by omega)

end CodeUnit

namespace Module

/-- What each unit of a module has to declare, or why it fails. -/
def outcomes (m : Module) (env : Environment) : List (Except ResolutionError Declarations) :=
  m.units.map fun unit => unit.resolve env m.index.find?

/-- The unit at a position fails with an error, and all units before it resolve. -/
structure FailsAt (m : Module) (env : Environment) (u : Nat) (e : ResolutionError) : Prop where
  fails : (m.outcomes env)[u]? = some (.error e)
  earlier : ∀ v < u, ∃ d, (m.outcomes env)[v]? = some (.ok d)

/-- A module fails with the error of its first failing unit. -/
theorem resolve_eq_error_iff {m : Module} {e : ResolutionError} :
    m.resolve env = .error e ↔ ∃ u, m.FailsAt env u e := by
  have hunits : m.resolve env = .error e ↔
      CodeUnit.resolveAll env m.index.find? m.units = .error e := by
    simp only [resolve, resolveUnits]
    cases CodeUnit.resolveAll env m.index.find? m.units <;> simp [Except.map]
  rw [hunits, CodeUnit.resolveAll_eq_error_iff]
  constructor
  · intro h
    obtain ⟨u, hfails, hearlier⟩ := h
    exact ⟨u, hfails, hearlier⟩
  · intro h
    obtain ⟨u, hfails, hearlier⟩ := h
    exact ⟨u, hfails, hearlier⟩

/-- A module resolves exactly where each of its units does. -/
theorem exists_resolve_iff {m : Module} :
    (∃ d, m.resolve env = .ok d) ↔
      ∀ unit ∈ m.units, ∃ d, unit.resolve env m.index.find? = .ok d := by
  constructor
  · intro h unit hunit
    obtain ⟨d, h⟩ := h
    exact exists_resolve_unit h hunit
  · intro h
    cases hresolve : m.resolve env with
    | ok d => exact ⟨d, rfl⟩
    | error e =>
        obtain ⟨u, hfails, -⟩ := resolve_eq_error_iff.1 hresolve
        obtain ⟨unit, hunit, herror⟩ := List.mem_map.1 (List.mem_of_getElem? hfails)
        obtain ⟨d, hd⟩ := h unit hunit
        rw [hd] at herror
        cases herror

end Module

/-- A unit that fails does so at an instruction of its own, up to which it resolves and behind which
nothing matters: every unit of its name that begins with the same instructions up to this one fails
with the same error. A module resolves exactly where each of its units does, and otherwise fails
with the error of the first unit that fails. -/
theorem failure_located (env : Environment) (m : Module) :
    (∀ (unit : CodeUnit) (defs : Definitions) (e : ResolutionError),
        unit.resolve env defs = .error e →
          (∃ inst, unit.instructions[e.index]? = some inst ∧ e.opcode = inst.opcode) ∧
            (∃ d, CodeUnit.resolve ⟨unit.name, unit.instructions.take e.index⟩ env defs = .ok d) ∧
              ∀ other : CodeUnit, other.name = unit.name →
                other.instructions.take (e.index + 1) = unit.instructions.take (e.index + 1) →
                  other.resolve env defs = .error e) ∧
      ((∃ d, m.resolve env = .ok d) ↔
        ∀ unit ∈ m.units, ∃ d, unit.resolve env m.index.find? = .ok d) ∧
      ∀ e, m.resolve env = .error e ↔ ∃ u, m.FailsAt env u e := by
  refine ⟨?_, Module.exists_resolve_iff, fun e => Module.resolve_eq_error_iff⟩
  intro unit defs e h
  obtain ⟨before, inst, rest, next, hsplit, hbefore, hinst, hunit, hindex, hopcode⟩ :=
    CodeUnit.resolve_eq_error_iff.1 h
  have htake : unit.instructions.take (e.index + 1) = before ++ [inst] := by
    rw [hsplit, hindex, List.append_cons]
    exact List.take_left' (by simp)
  refine ⟨⟨inst, by simp [hsplit, hindex], hopcode⟩, ?_, ?_⟩
  · refine CodeUnit.exists_resolve_iff.2 ⟨next, ?_⟩
    show CodeUnit.collectFrom env defs unit.name 0 .empty (unit.instructions.take e.index) = _
    rw [hsplit, hindex, List.take_left]
    exact hbefore
  · intro other hname hother
    -- The other unit goes on with instructions of its own behind the failing one.
    have hsplit' : other.instructions =
        before ++ inst :: other.instructions.drop (e.index + 1) := by
      rw [List.append_cons, ← htake, ← hother, List.take_append_drop]
    refine CodeUnit.resolve_eq_error_iff.2 ⟨before, inst, _, next, hsplit', ?_, hinst, ?_, hindex,
      hopcode⟩
    · rw [hname]
      exact hbefore
    · rw [hname]
      exact hunit

/-- An image type without operands. -/
def Instruction.bareImage : Instruction := .of .typeImage none []

/-- The error of an image type without operands at a position of the unit `main`. -/
def ResolutionError.bareImage (index : Nat) : ResolutionError :=
  ⟨"main", index, .typeImage, .missingOperand .typeImage 0⟩

/-- An image type without operands fails behind instructions that resolve. -/
theorem CodeUnit.resolve_bareImage {before : List Instruction} {defs : Definitions}
    {d : Declarations} (h : resolve ⟨"main", before⟩ env defs = .ok d) (rest : List Instruction) :
    resolve ⟨"main", before ++ .bareImage :: rest⟩ env defs =
      .error (.bareImage before.length) := by
  obtain ⟨next, hnext⟩ := exists_resolve_iff.1 ⟨d, h⟩
  exact resolve_eq_error_iff.2 ⟨before, .bareImage, rest, next, rfl, hnext, rfl, rfl, rfl, rfl⟩

/-- A view index and an image type without operands. -/
def Module.bareImage : Module where
  units := [⟨"<module>", [.specialization]⟩, ⟨"main", [.viewIndex, .bareImage]⟩]

/-- The second unit fails at its second instruction, up to which it resolves, and so does a unit
with one instruction more; the module fails with it, because the first unit resolves. -/
theorem failure_located_bareImage :
    CodeUnit.resolve ⟨"main", [.viewIndex, .bareImage]⟩ .multiview (fun _ => none) =
        .error (.bareImage 1) ∧
      (∃ d, CodeUnit.resolve ⟨"main", [.viewIndex]⟩ .multiview (fun _ => none) = .ok d) ∧
        CodeUnit.resolve ⟨"main", [.viewIndex, .bareImage, .specialization]⟩ .multiview
            (fun _ => none) = .error (.bareImage 1) ∧
          Module.bareImage.FailsAt .multiview 1 (.bareImage 1) ∧
            Module.bareImage.resolve .multiview = .error (.bareImage 1) := by
  have hunit (defs : Definitions) :
      CodeUnit.resolve ⟨"main", [.viewIndex, .bareImage]⟩ .multiview defs =
        .error (.bareImage 1) :=
    CodeUnit.resolve_bareImage (CodeUnit.resolve_viewIndex "main" defs) []
  have hfails : Module.bareImage.FailsAt .multiview 1 (.bareImage 1) := by
    constructor
    · show some (CodeUnit.resolve ⟨"main", [.viewIndex, .bareImage]⟩ .multiview _) = _
      rw [hunit]
    · intro v hv
      cases v with
      | zero =>
          exact ⟨_, congrArg some (CodeUnit.resolve_specialization "<module>" _)⟩
      | succ v => omega
  obtain ⟨hlocated, -, hmodule⟩ := failure_located .multiview Module.bareImage
  obtain ⟨-, hbefore, hother⟩ := hlocated _ _ _ (hunit fun _ => none)
  exact ⟨hunit _, hbefore, hother ⟨"main", [.viewIndex, .bareImage, .specialization]⟩ rfl rfl,
    hfails, (hmodule _).2 ⟨1, hfails⟩⟩

end SpirvLegality
