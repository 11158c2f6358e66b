import SpirvLegality.Proofs.Choices
import SpirvLegality.Proofs.Resolution
import SpirvLegality.Proofs.TableSearch

/-!
# Wider environments

An environment that has all that another one has (`Environment.Within`) resolves every unit that the
other one resolves (`CodeUnit.exists_resolve_of_within`). An instruction asks both for the same
capabilities and the same choices. The extensions that it asks for may differ, as a newer version
needs none of them, but an extension is always granted (`Collector.exists_run_of_alike`). A row with
a last version would break this; the tables have none.
-/

namespace SpirvLegality

/-! ## Rows without a last version -/

/-- No operand has a last version. -/
theorem Family.maxVersion_eq_unspecified {family : Family} {word : UInt32}
    {row : Enumerant UInt32} (h : family.table.get? word = some row) :
    row.maxVersion = .unspecified := by
  have hall : ∀ family : Family, ∀ row ∈ family.table.rows.toList,
      row.maxVersion = .unspecified := by
    intro family
    cases family <;> decide +kernel
  exact hall family row (Array.mem_toList_iff.2 (EnumTable.mem_of_get? h).1)

namespace Environment

/-- The one environment has all that the other one has, over the same graph and for the same kind of
modules. -/
structure Within (env wider : Environment) : Prop where
  graph : wider.graph = env.graph
  isLogical : wider.target.isLogical = env.target.isLogical
  isKernel : wider.target.isKernel = env.target.isKernel
  atLeast : ∀ v, env.target.spirv.atLeast v = true → wider.target.spirv.atLeast v = true
  hasCapability : ∀ cap, env.hasCapability cap = true → wider.hasCapability cap = true
  hasExtension : ∀ ext, env.hasExtension ext = true → wider.hasExtension ext = true
  hasInstructionSet : ∀ set, env.hasInstructionSet set = true → wider.hasInstructionSet set = true

variable {env wider : Environment}

theorem Within.refl (env : Environment) : env.Within env :=
  ⟨rfl, rfl, rfl, fun _ h => h, fun _ h => h, fun _ h => h, fun _ h => h⟩

/-- A row without a last version is legal from its first version on, or with an extension. -/
theorem exists_gate_iff {α : Type} {row : Enumerant α} (hmax : row.maxVersion = .unspecified) :
    (∃ ext, env.gate row = .ok ext) ↔
      env.target.spirv.atLeast row.minVersion = true ∨
        ∃ ext ∈ row.extensions, env.hasExtension ext = true := by
  by_cases hversion : env.target.spirv.atLeast row.minVersion = true
  · simp [gate, hmax, hversion, Version.isUnspecified, Version.unspecified]
  · simp only [gate, hversion, Bool.false_eq_true, if_false, false_or]
    cases hfind : row.extensions.find? env.hasExtension with
    | none => simpa using hfind
    | some ext =>
        simp only [Except.ok.injEq, exists_eq', true_iff]
        exact ⟨ext, List.mem_of_find?_eq_some hfind, List.find?_some hfind⟩

/-- A row that is legal stays so in a wider environment, although the extension may differ. -/
theorem Within.exists_gate (h : env.Within wider) {α : Type} {row : Enumerant α}
    (hmax : row.maxVersion = .unspecified) (hgate : ∃ ext, env.gate row = .ok ext) :
    ∃ ext, wider.gate row = .ok ext := by
  rw [exists_gate_iff hmax] at hgate ⊢
  rcases hgate with hversion | ⟨ext, hmem, hext⟩
  · exact Or.inl (h.atLeast _ hversion)
  · exact Or.inr ⟨ext, hmem, h.hasExtension ext hext⟩

/-- A choice that can be made can be made in a wider environment, although the pick may differ. -/
theorem Within.offers (h : env.Within wider) {candidates : List Capability}
    (hoffers : env.Offers candidates) : wider.Offers candidates := by
  obtain ⟨cap, hmem, husable⟩ := hoffers
  obtain ⟨ext, husable⟩ := Option.isSome_iff_exists.1 husable
  obtain ⟨havailable, hgate⟩ := usable?_eq_some_iff.1 husable
  obtain ⟨ext', hgate'⟩ := h.exists_gate rfl ⟨ext, hgate⟩
  exact ⟨cap, hmem, by simp [usable?_eq_some_iff.2 ⟨h.hasCapability cap havailable, hgate'⟩]⟩

end Environment

/-! ## Requirements that differ in their extensions -/

namespace Requirement

/-- Whether a requirement is an extension. -/
def isExtension : Requirement → Bool
  | .extension _ => true
  | _ => false

/-- The requirements that are no extensions. -/
def withoutExtensions (reqs : List Requirement) : List Requirement :=
  reqs.filter fun req => !req.isExtension

/-- Whether two lists of requirements differ in nothing but their extensions. -/
def Alike (reqs others : List Requirement) : Prop :=
  withoutExtensions reqs = withoutExtensions others

theorem Alike.refl (reqs : List Requirement) : Alike reqs reqs := rfl

theorem withoutExtensions_append (reqs others : List Requirement) :
    withoutExtensions (reqs ++ others) = withoutExtensions reqs ++ withoutExtensions others :=
  List.filter_append _ _

theorem Alike.append {reqs others reqs' others' : List Requirement} (h : Alike reqs others)
    (h' : Alike reqs' others') : Alike (reqs ++ reqs') (others ++ others') := by
  rw [Alike, withoutExtensions_append, withoutExtensions_append, h, h']

/-- Lists of nothing but extensions are alike. -/
theorem alike_extensions (exts others : List Extension) :
    Alike (exts.map .extension) (others.map .extension) := by
  have hnone (l : List Extension) : withoutExtensions (l.map .extension) = [] := by
    simp [withoutExtensions, List.filter_eq_nil_iff, isExtension]
  rw [Alike, hnone, hnone]

/-- Only an extension expands to an extension. -/
theorem withoutExtensions_expand {g : PrerequisiteGraph} {req : Requirement}
    {all : List Requirement} (hreq : req.isExtension = false) (h : req.expand g = .ok all) :
    withoutExtensions all = all := by
  rcases expand_cases h with ⟨cap, caps, -, -, rfl⟩ | ⟨-, rfl⟩
  · simp [withoutExtensions, isExtension]
  · simp [withoutExtensions, hreq]

/-- Extensions have no prerequisites, so leaving them out commutes with the expansion. -/
theorem expandAll_withoutExtensions (g : PrerequisiteGraph) (reqs : List Requirement) :
    expandAll g (withoutExtensions reqs) = (expandAll g reqs).map withoutExtensions := by
  induction reqs with
  | nil => rfl
  | cons req rest ih =>
      cases hreq : req.isExtension with
      | true =>
          cases req with
          | extension ext =>
              have hdropped : withoutExtensions (.extension ext :: rest) =
                  withoutExtensions rest := rfl
              rw [hdropped, ih, expandAll]
              cases expandAll g rest <;> rfl
          | capability | anyOf | nothing => cases hreq
      | false =>
          have hkept : withoutExtensions (req :: rest) = req :: withoutExtensions rest := by
            simp [withoutExtensions, hreq]
          rw [hkept, expandAll, expandAll, ih]
          cases hexpand : req.expand g with
          | error e => rfl
          | ok first =>
              cases expandAll g rest with
              | error e => rfl
              | ok others =>
                  simp only [Except.map]
                  rw [withoutExtensions_append, withoutExtensions_expand hreq hexpand]

/-- Requirements that differ in nothing but their extensions are expanded alike. -/
theorem Alike.expandAll {g : PrerequisiteGraph} {reqs others all : List Requirement}
    (h : Alike reqs others) (hall : Requirement.expandAll g reqs = .ok all) :
    ∃ all', Requirement.expandAll g others = .ok all' ∧ Alike all all' := by
  have hothers := expandAll_withoutExtensions g others
  rw [← h, expandAll_withoutExtensions, hall] at hothers
  cases hexpand : Requirement.expandAll g others with
  | error e =>
      rw [hexpand] at hothers
      cases hothers
  | ok all' =>
      rw [hexpand] at hothers
      exact ⟨all', rfl, Except.ok.inj hothers⟩

end Requirement

open Requirement (Alike)

/-! ## The rules -/

variable {env wider : Environment}

/-- An operand asks a wider environment for the same, apart from extensions. -/
theorem Family.exists_requirements_of_within (h : env.Within wider) {family : Family}
    {word : UInt32} {reqs : List Requirement} (hreqs : family.requirements word env = .ok reqs) :
    ∃ others, family.requirements word wider = .ok others ∧ Alike reqs others := by
  cases hrow : family.table.get? word with
  | none =>
      rw [requirements, hrow] at hreqs ⊢
      exact ⟨reqs, hreqs, .refl reqs⟩
  | some row =>
      obtain ⟨ext, hgate, rfl⟩ := (requirements_eq_ok_iff hrow).1 hreqs
      obtain ⟨ext', hgate'⟩ := h.exists_gate (maxVersion_eq_unspecified hrow) ⟨ext, hgate⟩
      exact ⟨_, (requirements_eq_ok_iff hrow).2 ⟨ext', hgate', rfl⟩,
        (Alike.refl _).append (Requirement.alike_extensions _ _)⟩

namespace Instruction

variable {inst : Instruction} {reqs : List Requirement}

theorem exists_operandRequirements_of_within (h : env.Within wider)
    {positions : List (Nat × Family)} (hreqs : inst.operandRequirements env positions = .ok reqs) :
    ∃ others, inst.operandRequirements wider positions = .ok others ∧ Alike reqs others := by
  induction positions generalizing reqs with
  | nil => exact ⟨reqs, hreqs, .refl reqs⟩
  | cons operand rest ih =>
      simp only [operandRequirements, except_bind_eq_ok_iff] at hreqs ⊢
      obtain ⟨word, hword, first, hfirst, others, hothers, hreqs⟩ := hreqs
      cases hreqs
      obtain ⟨first', hfirst', halike⟩ := Family.exists_requirements_of_within h hfirst
      obtain ⟨others', hothers', halike'⟩ := ih hothers
      exact ⟨_, ⟨word, hword, first', hfirst', others', hothers', rfl⟩, halike.append halike'⟩

theorem exists_decorationRequirements_of_within (h : env.Within wider) {position : Nat}
    (hreqs : inst.decorationRequirements env position = .ok reqs) :
    ∃ others, inst.decorationRequirements wider position = .ok others ∧ Alike reqs others := by
  simp only [decorationRequirements, except_bind_eq_ok_iff] at hreqs ⊢
  obtain ⟨decoration, hdecoration, own, hown, hreqs⟩ := hreqs
  obtain ⟨own', hown', halike⟩ := Family.exists_requirements_of_within h hown
  split at hreqs
  · next hmark =>
      simp only [except_bind_eq_ok_iff] at hreqs
      obtain ⟨meaning, hmeaning, builtIn, hbuiltIn, hreqs⟩ := hreqs
      cases hreqs
      obtain ⟨builtIn', hbuiltIn', halike'⟩ := Family.exists_requirements_of_within h hbuiltIn
      refine ⟨own' ++ builtIn', ⟨decoration, hdecoration, own', hown', ?_⟩, halike.append halike'⟩
      simp only [if_pos hmark, except_bind_eq_ok_iff]
      exact ⟨meaning, hmeaning, builtIn', hbuiltIn', rfl⟩
  · cases hreqs
    refine ⟨own', ⟨decoration, hdecoration, own', hown', ?_⟩, halike⟩
    rw [if_neg ‹_›]
    rfl

theorem exists_imageRequirements_of_within (h : env.Within wider)
    (hreqs : inst.imageRequirements env = .ok reqs) :
    ∃ others, inst.imageRequirements wider = .ok others ∧ Alike reqs others := by
  have haccess : inst.accessCapabilities wider = inst.accessCapabilities env := by
    rw [accessCapabilities, accessCapabilities, h.isKernel]
  unfold imageRequirements at hreqs ⊢
  split at hreqs
  · cases hreqs
  · simp only [except_bind_eq_ok_iff] at hreqs
    obtain ⟨format, hformat, ofFormat, hofFormat, arrayed, harrayed, multisampled, hmultisampled,
      sampled, hsampled, dimension, hdimension, hreqs⟩ := hreqs
    cases hreqs
    obtain ⟨ofFormat', hofFormat', halike⟩ := Family.exists_requirements_of_within h hofFormat
    simp only [if_neg ‹_›, except_bind_eq_ok_iff]
    exact ⟨_, ⟨format, hformat, ofFormat', hofFormat', arrayed, harrayed, multisampled,
      hmultisampled, sampled, hsampled, dimension, hdimension, rfl⟩,
      haccess ▸ halike.append (.refl _)⟩

/-- An import that a target allows is allowed in a wider environment. -/
theorem importRequirements_of_within (h : env.Within wider)
    (hreqs : inst.importRequirements env = .ok reqs) :
    inst.importRequirements wider = .ok reqs := by
  unfold importRequirements at hreqs ⊢
  split at hreqs
  · cases hreqs
  · split at hreqs
    · cases hreqs
    · next set _ =>
        split at hreqs
        · next havailable =>
            rw [if_pos (h.hasInstructionSet set havailable)]
            exact hreqs
        · cases hreqs

/-- An instruction asks a wider environment for the same, apart from extensions. -/
theorem exists_requirements_of_within (h : env.Within wider) {defs : Definitions}
    (hreqs : inst.requirements env defs = .ok reqs) :
    ∃ others, inst.requirements wider defs = .ok others ∧ Alike reqs others := by
  unfold requirements at hreqs ⊢
  split at hreqs
  · exact ⟨reqs, hreqs, .refl reqs⟩
  · exact ⟨reqs, hreqs, .refl reqs⟩
  · exact exists_operandRequirements_of_within h hreqs
  · exact ⟨reqs, hreqs, .refl reqs⟩
  · exact exists_decorationRequirements_of_within h hreqs
  · exact exists_imageRequirements_of_within h hreqs
  · simp only [h.isKernel]
    exact ⟨reqs, hreqs, .refl reqs⟩
  · simp only [h.isKernel]
    exact ⟨reqs, hreqs, .refl reqs⟩
  · simp only [variablePointerRequirements, h.isLogical]
    exact ⟨reqs, hreqs, .refl reqs⟩
  · split at hreqs
    · next hcompares =>
        simp only [if_pos (show wider.target.comparesPointers = true from h.atLeast _ hcompares)]
        exact ⟨reqs, hreqs, .refl reqs⟩
    · cases hreqs
  · exact ⟨reqs, importRequirements_of_within h hreqs, .refl reqs⟩

/-- The expanded requirements are the same as well, apart from extensions. -/
theorem exists_expandedRequirements_of_within (h : env.Within wider) {defs : Definitions}
    {all : List Requirement} (hall : inst.expandedRequirements env defs = .ok all) :
    ∃ others, inst.expandedRequirements wider defs = .ok others ∧ Alike all others := by
  obtain ⟨direct, hdirect, hexpand⟩ := expandedRequirements_eq_ok_iff.1 hall
  obtain ⟨direct', hdirect', halike⟩ := exists_requirements_of_within h hdirect
  obtain ⟨others, hothers, halike'⟩ := halike.expandAll hexpand
  refine ⟨others, expandedRequirements_eq_ok_iff.2 ⟨direct', hdirect', ?_⟩, halike'⟩
  rw [h.graph]
  exact hothers

/-- Instructions that can be derived leave streams that are alike. -/
theorem alike_stream (h : env.Within wider) {defs : Definitions} {insts : List Instruction}
    (hinsts : ∀ inst ∈ insts, ∃ all, inst.expandedRequirements env defs = .ok all) :
    Alike (stream env defs insts) (stream wider defs insts) := by
  induction insts with
  | nil => exact .refl _
  | cons inst rest ih =>
      obtain ⟨⟨all, hall⟩, hrest⟩ := List.forall_mem_cons.1 hinsts
      obtain ⟨others, hothers, halike⟩ := exists_expandedRequirements_of_within h hall
      rw [stream, stream, List.flatMap_cons, List.flatMap_cons, demands_of_eq_ok hall,
        demands_of_eq_ok hothers]
      exact halike.append (ih hrest)

end Instruction

/-! ## Streams -/

namespace Collector

/-- What a collector takes is taken in a wider environment when no less is declared. -/
theorem Grants.of_within (h : env.Within wider) {c c' : Collector} {req : Requirement}
    (hcaps : ∀ cap ∈ c.declared.capabilities, cap ∈ c'.declared.capabilities)
    (hgrants : c.Grants env req) : c'.Grants wider req := by
  cases req with
  | capability cap =>
      rw [grants_capability_iff] at hgrants ⊢
      exact hgrants.imp (hcaps cap) (h.exists_gate rfl)
  | anyOf candidates =>
      rw [grants_anyOf_iff] at hgrants ⊢
      exact hgrants.imp (fun ⟨cap, hmem, hcap⟩ => ⟨cap, hmem, hcaps cap hcap⟩) h.offers
  | extension ext => exact ⟨_, .extension ext⟩
  | nothing => exact ⟨_, .nothing⟩

/-- A stream that runs also runs in a wider environment, from no fewer declared capabilities. -/
theorem Run.exists_of_within (h : env.Within wider) {c c' : Collector} {reqs : List Requirement}
    (hrun : Run env c reqs c') {start : Collector}
    (hcaps : ∀ cap ∈ c.declared.capabilities, cap ∈ start.declared.capabilities) :
    ∃ finish, Run wider start reqs finish := by
  induction hrun generalizing start with
  | nil => exact ⟨start, .nil start⟩
  | cons c req next rest c' hstep _ ih =>
      obtain ⟨mid, hmid⟩ := Grants.of_within h hcaps ⟨next, hstep⟩
      -- Both steps add the same capability, so the inclusion is kept.
      have hkept : ∀ cap ∈ next.declared.capabilities, cap ∈ mid.declared.capabilities := by
        intro cap hcap
        rw [hstep.mem_capabilities_iff] at hcap
        rw [hmid.mem_capabilities_iff]
        exact hcap.imp_left (hcaps cap)
      obtain ⟨finish, hfinish⟩ := ih hkept
      exact ⟨finish, .cons _ _ _ _ _ hmid hfinish⟩

theorem exists_run_cons_iff {c : Collector} {req : Requirement} {rest : List Requirement} :
    (∃ c', Run env c (req :: rest) c') ↔
      ∃ next, Step env c req next ∧ ∃ c', Run env next rest c' := by
  constructor
  · rintro ⟨c', hrun⟩
    cases hrun with
    | cons _ _ next _ _ hstep hrest => exact ⟨next, hstep, c', hrest⟩
  · rintro ⟨next, hstep, c', hrest⟩
    exact ⟨c', .cons _ _ _ _ _ hstep hrest⟩

/-- A stream runs where it does without its extensions, as these are always granted and grant
nothing else. -/
theorem exists_run_withoutExtensions_iff {c : Collector} {reqs : List Requirement} :
    (∃ c', Run env c (Requirement.withoutExtensions reqs) c') ↔ ∃ c', Run env c reqs c' := by
  induction reqs generalizing c with
  | nil => exact Iff.rfl
  | cons req rest ih =>
      cases req with
      | extension ext =>
          have hdropped : Requirement.withoutExtensions (.extension ext :: rest) =
              Requirement.withoutExtensions rest := rfl
          rw [hdropped, ih, exists_run_cons_iff]
          constructor
          · rintro ⟨c', hrun⟩
            exact ⟨_, .extension ext, hrun.exists_of_within (.refl env) fun _ h => h⟩
          · rintro ⟨next, hstep, c', hrun⟩
            cases hstep
            exact hrun.exists_of_within (.refl env) fun _ h => h
      | capability | anyOf | nothing =>
          rw [exists_run_cons_iff]
          simp only [← ih]
          exact exists_run_cons_iff

/-- Of two streams that differ in nothing but their extensions, either both run or none does. -/
theorem exists_run_of_alike {c : Collector} {reqs others : List Requirement}
    (h : Alike reqs others) (hrun : ∃ c', Run env c reqs c') : ∃ c', Run env c others c' := by
  rw [← exists_run_withoutExtensions_iff] at hrun ⊢
  rwa [← h]

end Collector

/-- A unit that resolves also resolves in a wider environment. -/
theorem CodeUnit.exists_resolve_of_within (h : env.Within wider) {unit : CodeUnit}
    {defs : Definitions} {d : Declarations} (hd : unit.resolve env defs = .ok d) :
    ∃ d', unit.resolve wider defs = .ok d' := by
  obtain ⟨hderived, c, hrun, -⟩ := resolve_eq_ok_iff.1 hd
  have hderived' : ∀ inst ∈ unit.instructions,
      ∃ all, inst.expandedRequirements wider defs = .ok all := by
    intro inst hinst
    obtain ⟨all, hall⟩ := hderived inst hinst
    obtain ⟨others, hothers, -⟩ := Instruction.exists_expandedRequirements_of_within h hall
    exact ⟨others, hothers⟩
  -- The stream runs in the wider environment, and so does the one that this environment derives.
  obtain ⟨c', hrun'⟩ := Collector.exists_run_of_alike (Instruction.alike_stream h hderived)
    (hrun.exists_of_within h fun _ h => h)
  exact ⟨_, resolve_eq_ok_iff.2 ⟨hderived', c', hrun', rfl⟩⟩

end SpirvLegality
