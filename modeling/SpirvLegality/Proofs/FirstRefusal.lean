import SpirvLegality.Proofs.Order
import SpirvLegality.Proofs.Refusal
import SpirvLegality.Proofs.Repetition

/-!
# The first requirement that is refused

Where collecting a stream ends can be read off the stream. It ends at the first requirement that is
refused behind those before it (`Requirement.RefusedBehind`): a capability that is not legal in the
target's version, or a choice that the target cannot make and of which no candidate was asked for
plainly before. Extensions, open choices and what comes behind have no say in it
(`Collector.first_refused_iff`). So a stream of which some order is accepted is accepted with its
plain capabilities in front.
-/

namespace SpirvLegality

variable {env : Environment}

namespace Requirement

/-- `RefusedBehind env before req e` says that the target grants no `req` behind the requirements
`before`, because of `e`. -/
inductive RefusedBehind (env : Environment) (before : List Requirement) :
    Requirement → RequirementError → Prop where
  | barred (cap e) : env.gate cap.row = .error e → RefusedBehind env before (.capability cap) e
  | unsatisfiable (candidates) :
      ¬ env.Offers candidates → (∀ cap ∈ candidates, .capability cap ∉ before) →
      RefusedBehind env before (.anyOf candidates) (.unsatisfiable candidates)

/-- `RefusedAt env reqs i e` says that the requirement at the position `i` of a stream is refused
with `e` behind those before it. -/
def RefusedAt (env : Environment) (reqs : List Requirement) (i : Nat) (e : RequirementError) :
    Prop :=
  ∃ req, reqs[i]? = some req ∧ req.RefusedBehind env (reqs.take i) e

theorem refusedAt_iff {reqs : List Requirement} {req : Requirement} {i : Nat}
    {e : RequirementError} (h : reqs[i]? = some req) :
    RefusedAt env reqs i e ↔ req.RefusedBehind env (reqs.take i) e := by
  rw [RefusedAt, h]
  simp only [Option.some.injEq, exists_eq_left']

/-- Behind the end of a stream nothing is refused. -/
theorem not_refusedAt_of_none {reqs : List Requirement} {i : Nat} {e : RequirementError}
    (h : reqs[i]? = none) : ¬ RefusedAt env reqs i e := by
  rintro ⟨req, hreq, -⟩
  rw [h] at hreq
  cases hreq

end Requirement

namespace Collector

open Requirement (RefusedAt refusedAt_iff not_refusedAt_of_none)

/-- What a collector refuses behind a run is what is refused behind its stream: nothing but the
plain capabilities of the stream is declared, and these are legal. -/
theorem Run.refuses_iff {c : Collector} {before : List Requirement} (h : Run env empty before c)
    {req : Requirement} {e : RequirementError} :
    Refuses env c req e ↔ req.RefusedBehind env before e := by
  constructor
  · intro hrefuses
    cases hrefuses with
    | barred cap e _ hgate => exact .barred cap e hgate
    | unsatisfiable candidates hopen hoffers =>
        refine .unsatisfiable candidates hoffers fun cap hcap hplain => hopen ?_
        exact ⟨cap, hcap, h.mem_capabilities_iff.2 (Or.inr hplain)⟩
  · intro hrefused
    cases hrefused with
    | barred cap e hgate =>
        have hnew : cap ∉ c.declared.capabilities := by
          intro hcap
          obtain ⟨gate, hpassed, -⟩ := h.gated Declarations.gated_empty cap hcap
          rw [hgate] at hpassed
          cases hpassed
        exact .barred cap e hnew hgate
    | unsatisfiable candidates hoffers habsent =>
        have hopen : ¬ c.declared.Settles candidates := by
          intro hsettled
          obtain ⟨cap, hcap, hdeclared⟩ := hsettled
          exact habsent cap hcap ((h.mem_capabilities_iff.1 hdeclared).resolve_left nofun)
        exact .unsatisfiable candidates hopen hoffers

/-- A call that goes on behind errors fails where its requirement is refused behind those that were
granted. -/
theorem answer_eq_error_iff {before : List Requirement} {req : Requirement}
    {e : RequirementError} : ((empty.offerEach env before).1.offer env req).2 = .error e ↔
      req.RefusedBehind env (empty.granted env before) e := by
  have hrun : Run env empty (empty.granted env before) (empty.offerEach env before).1 :=
    addAll_eq_ok_iff.1 (addAll_granted before)
  rw [← hrun.refuses_iff, ← add_eq_error_iff]
  cases hadd : (empty.offerEach env before).1.add env req with
  | ok next => simp [offer_of_add_eq_ok hadd]
  | error cause => simp [offer_of_add_eq_error hadd]

/-- One requirement more is accepted unless it is refused behind the others. -/
theorem accepts_concat_iff {before : List Requirement} {req : Requirement} :
    Accepts env (before ++ [req]) ↔
      Accepts env before ∧ ∀ e, ¬ req.RefusedBehind env before e := by
  constructor
  · intro h
    obtain ⟨last, hrun⟩ := accepts_iff_run.1 h
    obtain ⟨c, hbefore, hreq⟩ := run_append_iff.1 hrun
    refine ⟨accepts_iff_run.2 ⟨c, hbefore⟩, fun e hrefused => ?_⟩
    cases hreq with
    | cons _ _ next _ _ hstep _ =>
        have hadd := add_eq_error_iff.2 (hbefore.refuses_iff.2 hrefused)
        rw [add_eq_ok_iff.2 hstep] at hadd
        cases hadd
  · intro h
    obtain ⟨hbefore, hgranted⟩ := h
    obtain ⟨c, hrun⟩ := accepts_iff_run.1 hbefore
    cases hadd : c.add env req with
    | ok next =>
        have hlast : Run env c [req] next := .cons _ _ _ _ _ (add_eq_ok_iff.1 hadd) (.nil next)
        exact accepts_iff_run.2 ⟨next, run_append_iff.2 ⟨c, hrun, hlast⟩⟩
    | error e => exact absurd (hrun.refuses_iff.1 (add_eq_error_iff.1 hadd)) (hgranted e)

/-- A stream is accepted up to a position where no position before that one is refused. -/
theorem accepts_take_iff {reqs : List Requirement} {i : Nat} :
    Accepts env (reqs.take i) ↔ ∀ j < i, ∀ e, ¬ RefusedAt env reqs j e := by
  induction i with
  | zero => exact iff_of_true ⟨empty, rfl⟩ nofun
  | succ i ih =>
      rw [Nat.forall_lt_succ_right, List.take_add_one]
      cases hreq : reqs[i]? with
      | none =>
          rw [Option.toList_none, List.append_nil, ih,
            and_iff_left fun e => not_refusedAt_of_none hreq]
      | some req => simp only [Option.toList_some, accepts_concat_iff, ih, refusedAt_iff hreq]

/-- A stream is accepted where no position of it is refused. -/
theorem accepts_iff_not_refusedAt {reqs : List Requirement} :
    Accepts env reqs ↔ ∀ i e, ¬ RefusedAt env reqs i e := by
  rw [← List.take_length (l := reqs), accepts_take_iff, List.take_length]
  refine forall_congr' fun i => ⟨fun h e hrefused => ?_, fun h _ => h⟩
  obtain ⟨req, hreq, -⟩ := id hrefused
  exact h (List.getElem?_eq_some_iff.1 hreq).1 e hrefused

/-- Collecting ends at a position that is refused, if what comes before it is accepted. -/
theorem addLocated_drop_iff {reqs : List Requirement} {i : Nat} {e : RequirementError} :
    empty.addLocated env reqs = .error (reqs.drop i, e) ↔
      RefusedAt env reqs i e ∧ Accepts env (reqs.take i) := by
  have hsplit : reqs.take i ++ reqs.drop i = reqs := List.take_append_drop i reqs
  rw [addLocated_eq_error_iff]
  constructor
  · rintro ⟨before, req, rest, mid, hreqs, hleft, hbefore, hadd⟩
    obtain rfl : before = reqs.take i := List.append_cancel_right (hreqs.symm.trans hsplit.symm)
    have hreq : reqs[i]? = some req := by
      rw [← List.head?_drop, hleft, List.head?_cons]
    refine ⟨(refusedAt_iff hreq).2 ?_, mid, hbefore⟩
    exact (addAll_eq_ok_iff.1 hbefore).refuses_iff.1 (add_eq_error_iff.1 hadd)
  · rintro ⟨⟨req, hreq, hrefused⟩, mid, hbefore⟩
    obtain ⟨hi, rfl⟩ := List.getElem?_eq_some_iff.1 hreq
    have hadd := add_eq_error_iff.2 ((addAll_eq_ok_iff.1 hbefore).refuses_iff.2 hrefused)
    exact ⟨reqs.take i, reqs[i], reqs.drop (i + 1), mid, hsplit.symm,
      List.drop_eq_getElem_cons hi, hbefore, hadd⟩

/-- Where an order of a stream is accepted, every order with the plain capabilities in front is. -/
theorem accepts_of_capabilities_first {other lead rest : List Requirement}
    (h : Accepts env other) (hperm : other.Perm (lead ++ rest))
    (hlead : ∀ req ∈ lead, req.isCapability = true)
    (hrest : ∀ req ∈ rest, req.isCapability = false) : Accepts env (lead ++ rest) := by
  have hgranted : ∀ req ∈ lead ++ rest, ¬ req.Hopeless env (lead ++ rest) := by
    intro req hreq hhopeless
    exact not_accepts_of_hopeless (hperm.mem_iff.2 hreq)
      ((Requirement.hopeless_congr hperm).2 hhopeless) h
  have hfirst := accepts_capabilities_first hgranted
  have hlead' : lead.filter (!·.isCapability) = [] := by simpa using hlead
  have hrest' : rest.filter (·.isCapability) = [] := by simpa using hrest
  rwa [List.filter_append, List.filter_append, List.filter_eq_self.2 hlead, hlead', hrest',
    List.filter_eq_self.2 (by simpa using hrest), List.append_nil, List.nil_append] at hfirst

/-- Collecting a stream ends at the first of its positions that is refused behind what comes before
it, with the error of that refusal, and succeeds where there is none. Calls that go on behind errors
fail in the same way, but count on the granted requirements only. A choice without candidates is
refused at every position. Where an order of the stream is accepted, every order with the plain
capabilities in front is. -/
theorem first_refused_iff (env : Environment) (reqs : List Requirement) :
    (∀ i e, empty.addLocated env reqs = .error (reqs.drop i, e) ↔
        RefusedAt env reqs i e ∧ ∀ j < i, ∀ e', ¬ RefusedAt env reqs j e') ∧
      (Accepts env reqs ↔ ∀ i e, ¬ RefusedAt env reqs i e) ∧
      (∀ req e, ((empty.offerEach env reqs).1.offer env req).2 = .error e ↔
        req.RefusedBehind env (empty.granted env reqs) e) ∧
      (∀ i : Nat, reqs[i]? = some (.anyOf []) → RefusedAt env reqs i (.unsatisfiable [])) ∧
      ((∃ other, reqs.Perm other ∧ Accepts env other) →
        ∀ lead rest, reqs.Perm (lead ++ rest) → (∀ req ∈ lead, req.isCapability = true) →
          (∀ req ∈ rest, req.isCapability = false) → Accepts env (lead ++ rest)) := by
  refine ⟨fun i e => ?_, accepts_iff_not_refusedAt, fun req e => answer_eq_error_iff,
    fun i hi => ⟨_, hi, .unsatisfiable [] nofun nofun⟩, ?_⟩
  · rw [addLocated_drop_iff, accepts_take_iff]
  · rintro ⟨other, hother, haccepts⟩ lead rest hperm
    exact accepts_of_capabilities_first haccepts (hother.symm.trans hperm)

/-- On Vulkan a choice of kernels is settled behind a plain requirement of kernels. In front of that
requirement it is refused, and the stream ends at its second position. -/
theorem first_refused_iff_standardVulkan :
    empty.addLocated (.ofTarget .standardVulkan)
        [.extension .khrMultiview, .anyOf [.kernel, .addresses], .capability .kernel] =
          .error ([.anyOf [.kernel, .addresses], .capability .kernel],
            .unsatisfiable [.kernel, .addresses]) ∧
      Accepts (.ofTarget .standardVulkan)
        [.extension .khrMultiview, .capability .kernel, .anyOf [.kernel, .addresses]] ∧
      Accepts (.ofTarget .standardVulkan)
        ([.capability .kernel] ++ [.anyOf [.kernel, .addresses], .extension .khrMultiview]) := by
  obtain ⟨herror, -, -, -, hfirst⟩ := first_refused_iff (.ofTarget .standardVulkan)
    [.extension .khrMultiview, .anyOf [.kernel, .addresses], .capability .kernel]
  have hrefused : RefusedAt (.ofTarget .standardVulkan)
      [.extension .khrMultiview, .anyOf [.kernel, .addresses], .capability .kernel] 1
      (.unsatisfiable [.kernel, .addresses]) :=
    ⟨_, rfl, .unsatisfiable _ Environment.not_offers_kernel_standardVulkan (by decide)⟩
  have hgranted : ∀ j < 1, ∀ e, ¬ RefusedAt (.ofTarget .standardVulkan)
      [.extension .khrMultiview, .anyOf [.kernel, .addresses], .capability .kernel] j e := by
    rintro j hj e ⟨req, hreq, hrefused⟩
    obtain rfl := Nat.lt_one_iff.1 hj
    cases hreq
    cases hrefused
  have haccepts : Accepts (.ofTarget .standardVulkan)
      [.extension .khrMultiview, .capability .kernel, .anyOf [.kernel, .addresses]] := by
    rw [accepts_iff_run]
    exact ⟨_, .cons _ _ _ _ _ (.extension _)
      (.cons _ _ _ _ _ (.declare _ none nofun rfl)
        (.cons _ _ _ _ _ (.settled _ ⟨.kernel, by simp, by simp⟩) (.nil _)))⟩
  exact ⟨(herror 1 _).2 ⟨hrefused, hgranted⟩, haccepts,
    hfirst ⟨_, by decide, haccepts⟩ _ _ (by decide) (by decide) (by decide)⟩

end Collector

end SpirvLegality
