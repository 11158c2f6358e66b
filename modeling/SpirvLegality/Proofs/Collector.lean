import SpirvLegality.Collector
import SpirvLegality.Proofs.Declarations

/-!
# Collecting as a relation

Relational reading of `Collector.add` and `Collector.addAll`: `Collector.Step env c req c'` says
that adding `req` to `c` succeeds with `c'`, with one rule for each way in which this happens, and
`Collector.Run` chains such steps along a stream. `Collector.Refuses` says in the same way that
adding fails. `add_eq_ok_iff`, `add_eq_error_iff` and `addAll_eq_ok_iff` show that the functions
succeed and fail exactly where the relations hold. What a step keeps, a run keeps
(`Run.invariant`).
-/

namespace SpirvLegality

/-- Whether the target can use one of some candidates. -/
def Environment.Offers (env : Environment) (candidates : List Capability) : Prop :=
  ∃ cap ∈ candidates, (env.usable? cap).isSome = true

namespace Declarations

/-- Every declared capability is legal in the target's version, and where this takes an extension,
the extension is declared. -/
def Gated (env : Environment) (d : Declarations) : Prop :=
  ∀ cap ∈ d.capabilities, ∃ ext, env.gate cap.row = .ok ext ∧ ∀ e, ext = some e → e ∈ d.extensions

variable {env : Environment}

theorem gated_empty : empty.Gated env := nofun

theorem Gated.addExtension {d : Declarations} (h : d.Gated env) (ext : Extension) :
    (d.addExtension ext).Gated env := by
  intro cap hcap
  obtain ⟨gate, hgate, hmem⟩ := h cap hcap
  exact ⟨gate, hgate, fun e he => (within_addExtension d ext).extensions e (hmem e he)⟩

/-- Declaring a capability with the extension that its gate names keeps all of them gated. -/
theorem Gated.declare {d : Declarations} {cap : Capability} {ext : Option Extension}
    (h : d.Gated env) (hgate : env.gate cap.row = .ok ext) : (d.declare cap ext).Gated env := by
  intro c hc
  rw [capabilities_declare, mem_appendNew] at hc
  rcases hc with hc | rfl
  · obtain ⟨gate, hcgate, hmem⟩ := h c hc
    exact ⟨gate, hcgate, fun e he => (within_declare d cap ext).extensions e (hmem e he)⟩
  · exact ⟨ext, hgate, fun e he => mem_extensions_declare.2 (Or.inr he)⟩

end Declarations

namespace Requirement

/-- The capability of a plain requirement. -/
def plain? : Requirement → Option Capability
  | .capability cap => some cap
  | _ => none

/-- The capabilities that a stream asks for plainly, in order. -/
def plain (reqs : List Requirement) : List Capability := reqs.filterMap plain?

@[simp] theorem mem_plain {reqs : List Requirement} {cap : Capability} :
    cap ∈ plain reqs ↔ .capability cap ∈ reqs := by
  have hiff (req : Requirement) : req.plain? = some cap ↔ req = .capability cap := by
    cases req <;> simp [plain?]
  simp [plain, hiff]

@[simp] theorem plain_append (first second : List Requirement) :
    plain (first ++ second) = plain first ++ plain second :=
  List.filterMap_append

end Requirement

namespace Collector

variable {env : Environment}

/-- `Step env c req c'` says that adding `req` to the collector `c` succeeds with `c'`. -/
inductive Step (env : Environment) (c : Collector) : Requirement → Collector → Prop where
  | known (cap) : cap ∈ c.declared.capabilities → Step env c (.capability cap) c
  | declare (cap ext) :
      cap ∉ c.declared.capabilities → env.gate cap.row = .ok ext →
      Step env c (.capability cap) { c with declared := c.declared.declare cap ext }
  | settled (candidates) : c.declared.Settles candidates → Step env c (.anyOf candidates) c
  | postpone (candidates) :
      ¬ c.declared.Settles candidates → env.Offers candidates →
      Step env c (.anyOf candidates) { c with choices := candidates :: c.choices }
  | extension (ext) : Step env c (.extension ext) (c.addExtension ext)
  | nothing : Step env c .nothing c

/-- `Refuses env c req e` says that adding `req` to the collector `c` fails with `e`. -/
inductive Refuses (env : Environment) (c : Collector) : Requirement → RequirementError → Prop where
  | barred (cap e) :
      cap ∉ c.declared.capabilities → env.gate cap.row = .error e →
      Refuses env c (.capability cap) e
  | unsatisfiable (candidates) :
      ¬ c.declared.Settles candidates → ¬ env.Offers candidates →
      Refuses env c (.anyOf candidates) (.unsatisfiable candidates)

/-- `Run env c reqs c'` says that adding `reqs` in turn to the collector `c` succeeds with `c'`. -/
inductive Run (env : Environment) : Collector → List Requirement → Collector → Prop where
  | nil (c) : Run env c [] c
  | cons (c req next rest c') :
      Step env c req next → Run env next rest c' → Run env c (req :: rest) c'

/-! ## The relations and the functions -/

theorem declares_eq_true_iff {c : Collector} {cap : Capability} :
    c.declares cap = true ↔ cap ∈ c.declared.capabilities := by
  simp [declares]

theorem any_declares_iff {c : Collector} {candidates : List Capability} :
    candidates.any c.declares = true ↔ c.declared.Settles candidates :=
  Declarations.any_contains_iff

theorem any_usable_iff {candidates : List Capability} :
    (candidates.any fun cap => (env.usable? cap).isSome) = true ↔ env.Offers candidates := by
  simp [Environment.Offers]

/-- `add` succeeds exactly where there is a step. -/
theorem add_eq_ok_iff {c c' : Collector} {req : Requirement} :
    c.add env req = .ok c' ↔ Step env c req c' := by
  constructor
  · intro h
    cases req with
    | capability cap =>
        simp only [add, addCapability, declares_eq_true_iff] at h
        split at h
        · cases h
          exact .known _ ‹_›
        · split at h
          · cases h
          · cases h
            exact .declare _ _ ‹_› ‹_›
    | anyOf candidates =>
        simp only [add, addChoice, any_declares_iff] at h
        split at h
        · cases h
          exact .settled _ ‹_›
        · split at h
          · cases h
            exact .postpone _ ‹_› (any_usable_iff.1 ‹_›)
          · cases h
    | extension ext =>
        cases h
        exact .extension _
    | nothing =>
        cases h
        exact .nothing
  · intro h
    cases h with
    | known cap hcap => simp [add, addCapability, declares_eq_true_iff, hcap]
    | declare cap ext hcap hgate => simp [add, addCapability, declares_eq_true_iff, hcap, hgate]
    | settled candidates h => rw [add, addChoice, if_pos (any_declares_iff.2 h)]
    | postpone candidates h hoffers =>
        rw [add, addChoice, if_neg (mt any_declares_iff.1 h), if_pos (any_usable_iff.2 hoffers)]
    | extension => rfl
    | nothing => rfl

/-- `add` fails exactly where the requirement is refused. -/
theorem add_eq_error_iff {c : Collector} {req : Requirement} {e : RequirementError} :
    c.add env req = .error e ↔ Refuses env c req e := by
  constructor
  · intro h
    cases req with
    | capability cap =>
        simp only [add, addCapability, declares_eq_true_iff] at h
        split at h
        · cases h
        · split at h
          · cases h
            exact .barred _ _ ‹_› ‹_›
          · cases h
    | anyOf candidates =>
        simp only [add, addChoice, any_declares_iff] at h
        split at h
        · cases h
        · split at h
          · cases h
          · cases h
            exact .unsatisfiable _ ‹_› (mt any_usable_iff.2 ‹_›)
    | extension | nothing => cases h
  · intro h
    cases h with
    | barred cap e hcap hgate => simp [add, addCapability, declares_eq_true_iff, hcap, hgate]
    | unsatisfiable candidates h hoffers =>
        rw [add, addChoice, if_neg (mt any_declares_iff.1 h), if_neg (mt any_usable_iff.1 hoffers)]

/-- `addAll` succeeds exactly where there is a run. -/
theorem addAll_eq_ok_iff {c c' : Collector} {reqs : List Requirement} :
    c.addAll env reqs = .ok c' ↔ Run env c reqs c' := by
  constructor
  · intro h
    induction reqs generalizing c with
    | nil =>
        cases h
        exact .nil _
    | cons req rest ih =>
        rw [addAll] at h
        split at h
        · cases h
        · exact .cons _ _ _ _ _ (add_eq_ok_iff.1 ‹_›) (ih h)
  · intro h
    induction h with
    | nil => rfl
    | cons c req next rest c' hstep _ ih => simpa only [addAll, add_eq_ok_iff.2 hstep] using ih

/-- Adding some requirements fails where one of them is refused. -/
theorem refuses_of_addAll {c : Collector} {reqs : List Requirement} {e : RequirementError}
    (h : c.addAll env reqs = .error e) : ∃ next req, Refuses env next req e := by
  induction reqs generalizing c with
  | nil => cases h
  | cons req rest ih =>
      rw [addAll] at h
      cases hadd : c.add env req with
      | ok next =>
          rw [hadd] at h
          exact ih h
      | error e' =>
          rw [hadd] at h
          cases h
          exact ⟨c, req, add_eq_error_iff.1 hadd⟩

/-! ## What steps and runs keep -/

/-- What every step of a stream keeps, a run along the stream keeps. -/
theorem Run.invariant {P : Collector → Prop} {c c' : Collector} {reqs : List Requirement}
    (hrun : Run env c reqs c')
    (hstep : ∀ req ∈ reqs, ∀ c c', Step env c req c' → P c → P c') (hc : P c) : P c' := by
  induction hrun with
  | nil => exact hc
  | cons c req next rest c' hfirst _ ih =>
      exact ih (fun r hr => hstep r (by simp [hr])) (hstep req (by simp) _ _ hfirst hc)

/-- A step drops no declaration. -/
theorem Step.within {c c' : Collector} {req : Requirement} (h : Step env c req c') :
    c.declared.Within c'.declared := by
  cases h with
  | known | settled | postpone | nothing => exact .refl _
  | declare cap ext => exact c.declared.within_declare cap ext
  | extension ext => exact c.declared.within_addExtension ext

/-- A run drops no declaration. -/
theorem Run.within {c c' : Collector} {reqs : List Requirement} (h : Run env c reqs c') :
    c.declared.Within c'.declared :=
  h.invariant (P := fun next => c.declared.Within next.declared)
    (fun _ _ _ _ hstep hc => hc.trans hstep.within) (.refl _)

/-- A step keeps every declared capability gated. -/
theorem Step.gated {c c' : Collector} {req : Requirement} (h : Step env c req c')
    (hc : c.declared.Gated env) : c'.declared.Gated env := by
  cases h with
  | known | settled | postpone | nothing => exact hc
  | declare cap ext _ hgate => exact hc.declare hgate
  | extension ext => exact hc.addExtension ext

/-- A run keeps every declared capability gated. -/
theorem Run.gated {c c' : Collector} {reqs : List Requirement} (h : Run env c reqs c')
    (hc : c.declared.Gated env) : c'.declared.Gated env :=
  h.invariant (P := fun next => next.declared.Gated env) (fun _ _ _ _ hstep => hstep.gated) hc

/-- A step lists no entry twice. -/
theorem Step.distinct {c c' : Collector} {req : Requirement} (h : Step env c req c')
    (hc : c.declared.Distinct) : c'.declared.Distinct := by
  cases h with
  | known | settled | postpone | nothing => exact hc
  | declare cap ext => exact hc.declare cap ext
  | extension ext => exact hc.addExtension ext

/-- A run lists no entry twice. -/
theorem Run.distinct {c c' : Collector} {reqs : List Requirement} (h : Run env c reqs c')
    (hc : c.declared.Distinct) : c'.declared.Distinct :=
  h.invariant (P := fun next => next.declared.Distinct) (fun _ _ _ _ hstep => hstep.distinct) hc

/-- A step lists the capability that it is asked for behind the others, unless it is listed. -/
theorem Step.capabilities_eq {c c' : Collector} {req : Requirement} (h : Step env c req c') :
    c'.declared.capabilities = req.plain?.toList.foldl appendNew c.declared.capabilities := by
  cases h with
  | known cap hcap => simp [Requirement.plain?, appendNew, hcap]
  | declare cap ext => simp [Requirement.plain?]
  | settled | postpone | extension | nothing => rfl

/-- A run lists the capabilities that its stream asks for plainly, each where it comes first. -/
theorem Run.capabilities_eq {c c' : Collector} {reqs : List Requirement}
    (h : Run env c reqs c') : c'.declared.capabilities =
      (Requirement.plain reqs).foldl appendNew c.declared.capabilities := by
  induction h with
  | nil => rfl
  | cons c req next rest c' hstep _ ih =>
      have hplain : Requirement.plain (req :: rest) =
          req.plain?.toList ++ Requirement.plain rest := by
        cases req <;> rfl
      rw [ih, hstep.capabilities_eq, hplain, List.foldl_append]

/-- A step adds the capability that it is asked for and no other. -/
theorem Step.mem_capabilities_iff {c c' : Collector} {req : Requirement} (h : Step env c req c')
    {cap : Capability} : cap ∈ c'.declared.capabilities ↔
      cap ∈ c.declared.capabilities ∨ req = .capability cap := by
  cases h with
  | known known hknown =>
      constructor
      · exact Or.inl
      · intro h
        rcases h with h | h
        · exact h
        · cases h
          exact hknown
  | declare new ext _ _ => simp [eq_comm]
  | settled | postpone | nothing => simp
  | extension ext => simp [addExtension]

/-- A run adds the capabilities that its stream asks for plainly and no others. -/
theorem Run.mem_capabilities_iff {c c' : Collector} {reqs : List Requirement}
    (h : Run env c reqs c') {cap : Capability} : cap ∈ c'.declared.capabilities ↔
      cap ∈ c.declared.capabilities ∨ .capability cap ∈ reqs := by
  induction h with
  | nil => simp
  | cons c req next rest c' hstep _ ih =>
      rw [ih, hstep.mem_capabilities_iff, List.mem_cons, or_assoc, eq_comm (a := req)]

/-- A step from gated declarations adds the extension that it is asked for, or the one that the
capability that it is asked for needs, and no other. -/
theorem Step.mem_extensions_iff {c c' : Collector} {req : Requirement} (h : Step env c req c')
    (hc : c.declared.Gated env) {ext : Extension} : ext ∈ c'.declared.extensions ↔
      ext ∈ c.declared.extensions ∨ req = .extension ext ∨
        ∃ cap, req = .capability cap ∧ env.gate cap.row = .ok (some ext) := by
  cases h with
  | known cap hcap =>
      -- The capability was declared before, and its extension with it.
      constructor
      · exact Or.inl
      · intro h
        rcases h with h | h | ⟨_, h, hgate⟩
        · exact h
        · cases h
        · cases h
          obtain ⟨gate, hgate', hmem⟩ := hc cap hcap
          rw [hgate] at hgate'
          cases hgate'
          exact hmem ext rfl
  | declare cap gate _ hgate => simp [hgate]
  | settled | postpone | nothing => simp
  | extension new => simp [addExtension, eq_comm]

/-- A run from gated declarations adds the extensions that its stream asks for, those that its
plain capabilities need, and no others. -/
theorem Run.mem_extensions_iff {c c' : Collector} {reqs : List Requirement}
    (h : Run env c reqs c') (hc : c.declared.Gated env) {ext : Extension} :
    ext ∈ c'.declared.extensions ↔
      ext ∈ c.declared.extensions ∨ .extension ext ∈ reqs ∨
        ∃ cap, .capability cap ∈ reqs ∧ env.gate cap.row = .ok (some ext) := by
  induction h with
  | nil => simp
  | cons c req next rest c' hstep _ ih =>
      rw [ih (hstep.gated hc), hstep.mem_extensions_iff hc]
      simp only [List.mem_cons, or_and_right, exists_or, eq_comm (a := req), or_assoc,
        or_left_comm]

/-! ## Which requirements are granted -/

/-- Whether a collector takes a requirement. -/
def Grants (env : Environment) (c : Collector) (req : Requirement) : Prop :=
  ∃ c', Step env c req c'

theorem grants_capability_iff {c : Collector} {cap : Capability} :
    c.Grants env (.capability cap) ↔
      cap ∈ c.declared.capabilities ∨ ∃ ext, env.gate cap.row = .ok ext := by
  constructor
  · intro h
    obtain ⟨c', h⟩ := h
    cases h with
    | known _ hcap => exact Or.inl hcap
    | declare _ ext _ hgate => exact Or.inr ⟨ext, hgate⟩
  · intro h
    by_cases hcap : cap ∈ c.declared.capabilities
    · exact ⟨c, .known _ hcap⟩
    · obtain ⟨ext, hgate⟩ := h.resolve_left hcap
      exact ⟨_, .declare _ ext hcap hgate⟩

theorem grants_anyOf_iff {c : Collector} {candidates : List Capability} :
    c.Grants env (.anyOf candidates) ↔ c.declared.Settles candidates ∨ env.Offers candidates := by
  constructor
  · intro h
    obtain ⟨c', h⟩ := h
    cases h with
    | settled _ h => exact Or.inl h
    | postpone _ _ hoffers => exact Or.inr hoffers
  · intro h
    by_cases hsettled : c.declared.Settles candidates
    · exact ⟨c, .settled _ hsettled⟩
    · exact ⟨_, .postpone _ hsettled (h.resolve_left hsettled)⟩

/-- A requirement that is granted is granted when more is declared. -/
theorem Grants.mono {c c' : Collector} {req : Requirement} (h : c.Grants env req)
    (hwithin : c.declared.Within c'.declared) : c'.Grants env req := by
  cases req with
  | capability cap =>
      rw [grants_capability_iff] at h ⊢
      exact h.imp_left (hwithin.capabilities cap)
  | anyOf candidates =>
      rw [grants_anyOf_iff] at h ⊢
      exact h.imp_left fun hsettled => hsettled.mono hwithin
  | extension ext => exact ⟨_, .extension ext⟩
  | nothing => exact ⟨_, .nothing⟩

/-- A stream of which each requirement is granted from the start runs. -/
theorem exists_run {c : Collector} {reqs : List Requirement}
    (h : ∀ req ∈ reqs, c.Grants env req) : ∃ c', Run env c reqs c' := by
  induction reqs generalizing c with
  | nil => exact ⟨c, .nil c⟩
  | cons req rest ih =>
      obtain ⟨next, hstep⟩ := h req (by simp)
      -- The step drops no declaration, so the rest is still granted after it.
      obtain ⟨c', hrun⟩ := ih fun r hr => (h r (by simp [hr])).mono hstep.within
      exact ⟨c', .cons _ _ _ _ _ hstep hrun⟩

/-- After a run, each requirement of its stream is granted. -/
theorem Run.grants {c c' : Collector} {reqs : List Requirement} (h : Run env c reqs c') :
    ∀ req ∈ reqs, c'.Grants env req := by
  induction h with
  | nil => simp
  | cons c req next rest c' hstep hrun ih =>
      intro r hr
      rcases List.mem_cons.1 hr with rfl | hr
      · exact Grants.mono ⟨next, hstep⟩ (hstep.within.trans hrun.within)
      · exact ih r hr

/-- A stream put together from two runs along the first and then along the second. -/
theorem run_append_iff {c c' : Collector} {first second : List Requirement} :
    Run env c (first ++ second) c' ↔ ∃ next, Run env c first next ∧ Run env next second c' := by
  constructor
  · intro h
    induction first generalizing c with
    | nil => exact ⟨c, .nil c, h⟩
    | cons req rest ih =>
        cases h with
        | cons _ _ mid _ _ hstep hrun =>
            obtain ⟨next, hfirst, hsecond⟩ := ih hrun
            exact ⟨next, .cons _ _ _ _ _ hstep hfirst, hsecond⟩
  · intro h
    obtain ⟨next, hfirst, hsecond⟩ := h
    induction hfirst with
    | nil => exact hsecond
    | cons c req mid rest next hstep _ ih => exact .cons _ _ _ _ _ hstep (ih hsecond)

end Collector

end SpirvLegality
