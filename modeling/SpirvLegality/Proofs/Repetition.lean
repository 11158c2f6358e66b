import SpirvLegality.Proofs.Soundness
import Mathlib.Data.List.Dedup

/-!
# Repeated requirements

A requirement that comes again changes nothing (`outcome_repeated`). A capability or an extension is
declared by then. A choice may be settled by then, and is dropped; otherwise it is recorded a second
time, and the collector is not the same any more. But `Collector.finish` sees only which choices are
open, not how often each was recorded (`Resembles.finish_eq`), and what happens in between does not
depend on the open choices at all (`Resembles.step`, `Resembles.refuses`).
-/

namespace SpirvLegality.Collector

variable {env : Environment}

/-! ## Where a stream is refused -/

/-- Adds some requirements in turn, up to the first error. The error comes with the stream from the
refused requirement on. -/
def addLocated (env : Environment) (c : Collector) :
    List Requirement → Except (List Requirement × RequirementError) Collector
  | [] => .ok c
  | req :: rest =>
    match c.add env req with
    | .error e => .error (req :: rest, e)
    | .ok c => addLocated env c rest

/-- What a stream leads to: the declarations at its end, or an error together with the stream from
the refused requirement on. -/
def outcome (env : Environment) (reqs : List Requirement) :
    Except (List Requirement × RequirementError) Declarations :=
  (empty.addLocated env reqs).map (finish env)

theorem addLocated_cons_of_ok {c next : Collector} {req : Requirement} {rest : List Requirement}
    (h : c.add env req = .ok next) : c.addLocated env (req :: rest) = next.addLocated env rest := by
  rw [addLocated, h]

theorem addLocated_cons_of_error {c : Collector} {req : Requirement} {rest : List Requirement}
    {e : RequirementError} (h : c.add env req = .error e) :
    c.addLocated env (req :: rest) = .error (req :: rest, e) := by
  rw [addLocated, h]

/-- `addAll` adds in the same way and reports the error alone. -/
theorem mapError_addLocated (c : Collector) (reqs : List Requirement) :
    (c.addLocated env reqs).mapError Prod.snd = c.addAll env reqs := by
  induction reqs generalizing c with
  | nil => rfl
  | cons req rest ih =>
      cases h : c.add env req with
      | error e =>
          rw [addLocated_cons_of_error h, addAll, h]
          rfl
      | ok next =>
          rw [addLocated_cons_of_ok h, addAll, h]
          exact ih next

/-- With the error alone, the outcome of a stream is what adding it all and finishing leads to. -/
theorem mapError_outcome (reqs : List Requirement) :
    (outcome env reqs).mapError Prod.snd = (empty.addAll env reqs).map (finish env) := by
  rw [outcome, ← mapError_addLocated]
  cases empty.addLocated env reqs <;> rfl

/-- Behind a stream that is accepted, adding goes on with the collector that has seen it. -/
theorem addLocated_append {c next : Collector} {first : List Requirement}
    (h : c.addAll env first = .ok next) (second : List Requirement) :
    c.addLocated env (first ++ second) = next.addLocated env second := by
  rw [addAll_eq_ok_iff] at h
  induction h with
  | nil => rfl
  | cons c req mid rest next hstep _ ih =>
      rw [List.cons_append, addLocated_cons_of_ok (add_eq_ok_iff.2 hstep), ih]

/-- An error is reported with the refused requirement and what comes behind it; what comes before
it is accepted. -/
theorem addLocated_eq_error_iff {c : Collector} {reqs left : List Requirement}
    {e : RequirementError} : c.addLocated env reqs = .error (left, e) ↔
      ∃ before req rest mid, reqs = before ++ left ∧ left = req :: rest ∧
        c.addAll env before = .ok mid ∧ mid.add env req = .error e := by
  constructor
  · intro h
    induction reqs generalizing c with
    | nil => cases h
    | cons req rest ih =>
        cases hadd : c.add env req with
        | error e' =>
            rw [addLocated_cons_of_error hadd] at h
            cases h
            exact ⟨[], req, rest, c, rfl, rfl, rfl, hadd⟩
        | ok next =>
            rw [addLocated_cons_of_ok hadd] at h
            obtain ⟨before, req', rest', mid, rfl, hleft, hbefore, herror⟩ := ih h
            exact ⟨req :: before, req', rest', mid, rfl, hleft, by rw [addAll, hadd]; exact hbefore,
              herror⟩
  · intro h
    obtain ⟨before, req, rest, mid, rfl, rfl, hbefore, herror⟩ := h
    rw [addLocated_append hbefore, addLocated_cons_of_error herror]

/-! ## Choices that were recorded more than once -/

/-- In sorted choices, those that were recorded again may be left out. -/
theorem foldl_choose_dedup {choices : List (List Capability)}
    (hsorted : choices.Pairwise fun a b => precedes a b = true) (d : Declarations) :
    choices.dedup.foldl (choose env) d = choices.foldl (choose env) d := by
  induction choices generalizing d with
  | nil => rfl
  | cons first rest ih =>
      obtain ⟨hfirst, hrest⟩ := List.pairwise_cons.1 hsorted
      by_cases hmem : first ∈ rest
      · rw [List.dedup_cons_of_mem hmem, ih hrest]
        cases rest with
        | nil => cases hmem
        | cons second others =>
            -- The list is sorted, so the choice stands right behind itself.
            have hsecond : precedes second first = true := by
              rcases List.mem_cons.1 hmem with rfl | hothers
              · exact hfirst _ List.mem_cons_self
              · exact List.rel_of_pairwise_cons hrest hothers
            obtain rfl := precedes_antisymm (hfirst second List.mem_cons_self) hsecond
            rw [List.foldl_cons, List.foldl_cons, List.foldl_cons, choose_choose]
      · rw [List.dedup_cons_of_notMem hmem, List.foldl_cons, List.foldl_cons, ih hrest]

/-- Which declarations the choices lead to depends on which choices they are, not on how often each
was recorded. -/
theorem foldl_choose_mergeSort_eq_of_mem_iff {choices others : List (List Capability)}
    (h : ∀ candidates, candidates ∈ choices ↔ candidates ∈ others) (d : Declarations) :
    (choices.mergeSort precedes).foldl (choose env) d =
      (others.mergeSort precedes).foldl (choose env) d := by
  have hsorted (l : List (List Capability)) :
      (l.mergeSort precedes).Pairwise fun a b => precedes a b = true :=
    List.pairwise_mergeSort precedes_trans precedes_total l
  have hperm : (choices.mergeSort precedes).dedup.Perm (others.mergeSort precedes).dedup := by
    refine (List.perm_ext_iff_of_nodup (List.nodup_dedup _) (List.nodup_dedup _)).2 fun a => ?_
    rw [List.mem_dedup, List.mem_dedup, List.mem_mergeSort, List.mem_mergeSort, h a]
  have heq : (choices.mergeSort precedes).dedup = (others.mergeSort precedes).dedup :=
    eq_of_perm_of_precedes hperm ((hsorted choices).sublist (List.dedup_sublist _))
      ((hsorted others).sublist (List.dedup_sublist _))
  rw [← foldl_choose_dedup (hsorted choices), heq, foldl_choose_dedup (hsorted others)]

/-! ## Collectors with the same open choices -/

/-- Two collectors have declared the same and have the same choices open. In which order these were
recorded, and how often, is left open. -/
structure Resembles (c c' : Collector) : Prop where
  declared : c.declared = c'.declared
  mem_choices : ∀ candidates, candidates ∈ c.choices ↔ candidates ∈ c'.choices

theorem Resembles.refl (c : Collector) : c.Resembles c := ⟨rfl, fun _ => .rfl⟩

/-- Collectors that resemble each other finish with the same declarations. -/
theorem Resembles.finish_eq {c c' : Collector} (h : c.Resembles c') :
    c.finish env = c'.finish env := by
  rw [finish_eq_foldl, finish_eq_foldl, h.declared, foldl_choose_mergeSort_eq_of_mem_iff h.mem_choices]

/-- A step from one of two collectors that resemble each other is a step from the other one as
well, and they resemble each other behind it. -/
theorem Resembles.step {c c' next : Collector} {req : Requirement} (h : c.Resembles c')
    (hstep : Step env c req next) : ∃ next', Step env c' req next' ∧ next.Resembles next' := by
  cases hstep with
  | known cap hcap => exact ⟨c', .known cap (h.declared ▸ hcap), h⟩
  | declare cap ext hcap hgate =>
      exact ⟨_, .declare cap ext (h.declared ▸ hcap) hgate, by rw [h.declared], h.mem_choices⟩
  | settled candidates hsettled => exact ⟨c', .settled candidates (h.declared ▸ hsettled), h⟩
  | postpone candidates hopen hoffers =>
      refine ⟨_, .postpone candidates (h.declared ▸ hopen) hoffers, h.declared, fun a => ?_⟩
      rw [List.mem_cons, List.mem_cons, h.mem_choices]
  | extension ext =>
      exact ⟨_, .extension ext, by rw [addExtension, addExtension, h.declared], h.mem_choices⟩
  | nothing => exact ⟨c', .nothing, h⟩

/-- What one of two collectors that resemble each other refuses, the other one refuses as well, with
the same error. -/
theorem Resembles.refuses {c c' : Collector} {req : Requirement} {e : RequirementError}
    (h : c.Resembles c') (hrefuses : Refuses env c req e) : Refuses env c' req e := by
  cases hrefuses with
  | barred cap e hcap hgate => exact .barred cap e (h.declared ▸ hcap) hgate
  | unsatisfiable candidates hopen hoffers =>
      exact .unsatisfiable candidates (h.declared ▸ hopen) hoffers

/-- A stream has the same outcome behind collectors that resemble each other. -/
theorem Resembles.addLocated_finish {c c' : Collector} (h : c.Resembles c')
    (reqs : List Requirement) :
    (c.addLocated env reqs).map (finish env) = (c'.addLocated env reqs).map (finish env) := by
  induction reqs generalizing c c' with
  | nil => exact congrArg Except.ok h.finish_eq
  | cons req rest ih =>
      cases hadd : c.add env req with
      | error e =>
          have hadd' : c'.add env req = .error e :=
            add_eq_error_iff.2 (h.refuses (add_eq_error_iff.1 hadd))
          rw [addLocated_cons_of_error hadd, addLocated_cons_of_error hadd']
      | ok next =>
          obtain ⟨next', hstep', hnext⟩ := h.step (add_eq_ok_iff.1 hadd)
          rw [addLocated_cons_of_ok hadd, addLocated_cons_of_ok (add_eq_ok_iff.2 hstep'), ih hnext]

/-! ## The requirement that comes again -/

/-- A choice that is open at the end of a run was recorded by it. -/
theorem Run.mem_choices_of_open {c : Collector} {reqs : List Requirement}
    {candidates : List Capability} (h : Run env empty reqs c) (hmem : .anyOf candidates ∈ reqs)
    (hopen : ¬ c.declared.Settles candidates) : candidates ∈ c.choices := by
  have hasked : candidates ∈ c.declared.unsettled (Requirement.choices reqs) :=
    List.mem_filter.2 ⟨Requirement.mem_choices.2 hmem, by simpa using hopen⟩
  have hrecorded := (h.unsettled_choices (.refl _)).mem_iff.2 (List.mem_append_left _ hasked)
  exact (List.mem_filter.1 hrecorded).1

/-- A requirement that comes again is granted, and the collector behind it resembles the one before
it. -/
theorem Run.step_repeated {c : Collector} {reqs : List Requirement} {req : Requirement}
    (h : Run env empty reqs c) (hreq : req ∈ reqs) :
    ∃ next, Step env c req next ∧ c.Resembles next := by
  cases req with
  | capability cap => exact ⟨c, .known cap (h.mem_capabilities_iff.2 (Or.inr hreq)), .refl c⟩
  | anyOf candidates =>
      by_cases hsettled : c.declared.Settles candidates
      · exact ⟨c, .settled candidates hsettled, .refl c⟩
      · have hoffers := (grants_anyOf_iff.1 (h.grants _ hreq)).resolve_left hsettled
        refine ⟨_, .postpone candidates hsettled hoffers, rfl, fun a => ?_⟩
        rw [List.mem_cons, or_iff_right_of_imp]
        rintro rfl
        exact h.mem_choices_of_open hreq hsettled
  | extension ext =>
      have hext : ext ∈ c.declared.extensions :=
        (h.mem_extensions_iff Declarations.gated_empty).2 (Or.inr (Or.inl hreq))
      have hsame : c.addExtension ext = c := by
        rw [addExtension, Declarations.addExtension, appendNew, if_pos hext]
      exact ⟨c.addExtension ext, .extension ext, by rw [hsame]; exact .refl c⟩
  | nothing => exact ⟨c, .nothing, .refl c⟩

/-- Behind a stream that is accepted, a requirement that occurs in it changes nothing: the rest is
refused at the same call with the same error, or the declarations at the end are the same, in the
same order. So adding it all and finishing leads to the same. -/
theorem outcome_repeated {env : Environment} {before : List Requirement} {req : Requirement}
    {c : Collector} (hreq : req ∈ before) (hbefore : empty.addAll env before = .ok c)
    (after : List Requirement) :
    outcome env (before ++ [req] ++ after) = outcome env (before ++ after) ∧
      (∀ left e, outcome env (before ++ after) = .error (left, e) → left <:+ after) ∧
      (empty.addAll env (before ++ [req] ++ after)).map (finish env) =
        (empty.addAll env (before ++ after)).map (finish env) := by
  obtain ⟨next, hstep, hresembles⟩ := (addAll_eq_ok_iff.1 hbefore).step_repeated hreq
  have hsame : outcome env (before ++ [req] ++ after) = outcome env (before ++ after) := by
    rw [outcome, outcome, List.append_assoc, addLocated_append hbefore, addLocated_append hbefore,
      List.singleton_append, addLocated_cons_of_ok (add_eq_ok_iff.2 hstep),
      hresembles.addLocated_finish after]
  refine ⟨hsame, fun left e h => ?_, by rw [← mapError_outcome, hsame, mapError_outcome]⟩
  rw [outcome, addLocated_append hbefore] at h
  cases hafter : c.addLocated env after with
  | ok last =>
      rw [hafter] at h
      cases h
  | error refused =>
      rw [hafter] at h
      cases h
      obtain ⟨granted, -, -, -, rfl, -, -, -⟩ := addLocated_eq_error_iff.1 hafter
      exact List.suffix_append granted left

/-- A choice that stays open is recorded twice; behind it a capability that comes too late for the
target is refused, as it is without the repetition. -/
theorem outcome_repeated_choice :
    Requirement.anyOf [.shader, .kernel] ∈ [Requirement.anyOf [.shader, .kernel]] ∧
      empty.addAll .multiview [.anyOf [.shader, .kernel]] = .ok ⟨{}, [[.shader, .kernel]]⟩ ∧
      outcome .multiview ([.anyOf [.shader, .kernel]] ++ [.anyOf [.shader, .kernel]] ++
          [.capability .matrix, .capability .groupNonUniform]) =
        .error ([.capability .groupNonUniform],
          .versionTooLow "GroupNonUniform" (.of 1 3) (.of 1 0)) ∧
      [Requirement.capability .groupNonUniform] <:+
        [.capability .matrix, .capability .groupNonUniform] := by
  have hmem : Requirement.anyOf [.shader, .kernel] ∈ [Requirement.anyOf [.shader, .kernel]] := by
    decide
  have hbefore : empty.addAll .multiview [.anyOf [.shader, .kernel]] =
      .ok ⟨{}, [[.shader, .kernel]]⟩ := by
    rw [addAll_eq_ok_iff]
    exact .cons _ _ _ _ _ (.postpone _ (by decide) Environment.offers_shader_multiview) (.nil _)
  have houtcome : outcome .multiview ([.anyOf [.shader, .kernel]] ++
      [.capability .matrix, .capability .groupNonUniform]) =
        .error ([.capability .groupNonUniform],
          .versionTooLow "GroupNonUniform" (.of 1 3) (.of 1 0)) := by
    rw [outcome, addLocated_append hbefore]
    rfl
  obtain ⟨hsame, hsuffix, -⟩ :=
    outcome_repeated hmem hbefore [.capability .matrix, .capability .groupNonUniform]
  exact ⟨hmem, hbefore, hsame.trans houtcome, hsuffix _ _ houtcome⟩

end SpirvLegality.Collector
