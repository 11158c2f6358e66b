import SpirvLegality.Proofs.Collector
import Mathlib.Data.List.Sort

/-!
# Making the open choices

What `Collector.finish` does with the choices that a run left open. They are sorted, so the order in
which they were recorded is forgotten (`mergeSort_precedes_eq_of_perm`). A choice that is settled
already changes nothing. So it makes no difference that a choice which was recorded several times is
made once (`finish_eq_foldl`), and the choices that the run dropped may be put back in: after a run
the result is the one of making *all* choices of the stream (`Run.finish_eq`).
-/

namespace SpirvLegality

/-- Two capabilities of one number are the same capability. -/
theorem Capability.number_injective : Function.Injective Capability.number := by
  have hnodup : (values.map number).Nodup :=
    List.pairwise_map.2 (values_increasing.imp fun h => UInt32.ne_of_lt h)
  intro c d h
  exact List.inj_on_of_nodup_map hnodup (mem_values c) (mem_values d) h

namespace Requirement

/-- The candidates of a choice. -/
def choice? : Requirement → Option (List Capability)
  | .anyOf candidates => some candidates
  | _ => none

/-- The candidate lists of all choices of a stream, in order. -/
def choices (reqs : List Requirement) : List (List Capability) := reqs.filterMap choice?

theorem choice?_eq_some_iff {req : Requirement} {candidates : List Capability} :
    req.choice? = some candidates ↔ req = .anyOf candidates := by
  cases req <;> simp [choice?]

@[simp] theorem mem_choices {reqs : List Requirement} {candidates : List Capability} :
    candidates ∈ choices reqs ↔ .anyOf candidates ∈ reqs := by
  simp [choices, choice?_eq_some_iff]

end Requirement

namespace Environment

variable {env : Environment}

theorem usable?_eq_some_iff {cap : Capability} {ext : Option Extension} :
    env.usable? cap = some ext ↔ env.hasCapability cap = true ∧ env.gate cap.row = .ok ext := by
  unfold usable?
  cases env.hasCapability cap <;> cases env.gate cap.row <;> simp

/-- What is picked is a candidate that can be used. -/
theorem pick?_eq_some {candidates : List Capability} {cap : Capability} {ext : Option Extension}
    (h : env.pick? candidates = some (cap, ext)) :
    cap ∈ candidates ∧ env.usable? cap = some ext := by
  obtain ⟨c, hmem, hc⟩ := List.exists_of_findSome?_eq_some h
  obtain ⟨gate, husable, heq⟩ := Option.map_eq_some_iff.1 hc
  cases heq
  exact ⟨hmem, husable⟩

/-- What is picked is the first candidate that can be used. -/
theorem find?_usable_of_pick? {candidates : List Capability} {cap : Capability}
    {ext : Option Extension} (h : env.pick? candidates = some (cap, ext)) :
    candidates.find? (fun c => (env.usable? c).isSome) = some cap := by
  obtain ⟨before, c, after, rfl, hc, hbefore⟩ := List.findSome?_eq_some_iff.1 h
  obtain ⟨gate, husable, heq⟩ := Option.map_eq_some_iff.1 hc
  cases heq
  refine List.find?_eq_some_iff_append.2 ⟨by simp [husable], before, after, rfl, fun a ha => ?_⟩
  simpa using hbefore a ha

/-- Something is picked wherever a candidate can be used. -/
theorem pick?_eq_none_iff {candidates : List Capability} :
    env.pick? candidates = none ↔ ¬ env.Offers candidates := by
  simp [pick?, Offers]

end Environment

namespace Collector

/-! ## The order of the choices -/

theorem precedes_cons_iff {c d : Capability} {rest others : List Capability} :
    precedes (c :: rest) (d :: others) = true ↔
      c.number < d.number ∨ c = d ∧ precedes rest others = true := by
  simp [precedes]

/-- Of two candidate lists, one stands before the other. -/
theorem precedes_total (a b : List Capability) : (precedes a b || precedes b a) = true := by
  induction a generalizing b with
  | nil => rfl
  | cons c rest ih =>
      cases b with
      | nil => rfl
      | cons d others =>
          rw [Bool.or_eq_true, precedes_cons_iff, precedes_cons_iff]
          have htail := ih others
          rw [Bool.or_eq_true] at htail
          by_cases heq : c = d
          · subst heq
            exact htail.imp (fun h => Or.inr ⟨rfl, h⟩) fun h => Or.inr ⟨rfl, h⟩
          · have hnumber : c.number ≠ d.number := fun h => heq (Capability.number_injective h)
            rcases UInt32.lt_or_lt_of_ne hnumber with h | h
            · exact Or.inl (Or.inl h)
            · exact Or.inr (Or.inl h)

theorem precedes_trans (a b c : List Capability) (hab : precedes a b = true)
    (hbc : precedes b c = true) : precedes a c = true := by
  induction a generalizing b c with
  | nil => rfl
  | cons x xs ih =>
      cases b with
      | nil => cases hab
      | cons y ys =>
          cases c with
          | nil => cases hbc
          | cons z zs =>
              rw [precedes_cons_iff] at hab hbc ⊢
              rcases hab with hxy | ⟨rfl, hab⟩
              · -- The first entries decide.
                rcases hbc with hyz | ⟨rfl, -⟩
                · exact Or.inl (UInt32.lt_trans hxy hyz)
                · exact Or.inl hxy
              · exact hbc.imp_right fun h => ⟨h.1, ih ys zs hab h.2⟩

/-- Lists that stand before each other are equal, as capabilities have different numbers. -/
theorem precedes_antisymm {a b : List Capability} (hab : precedes a b = true)
    (hba : precedes b a = true) : a = b := by
  induction a generalizing b with
  | nil =>
      cases b with
      | nil => rfl
      | cons d others => cases hba
  | cons c rest ih =>
      cases b with
      | nil => cases hab
      | cons d others =>
          rw [precedes_cons_iff] at hab hba
          rcases hab with hlt | ⟨rfl, hab⟩
          · exfalso
            rcases hba with hgt | ⟨rfl, -⟩
            · exact UInt32.lt_asymm hlt hgt
            · exact UInt32.lt_irrefl _ hlt
          · have htail := (hba.resolve_left (UInt32.lt_irrefl _)).2
            rw [ih hab htail]

/-- Sorted choices are determined by which choices they are. -/
theorem eq_of_perm_of_precedes {choices others : List (List Capability)}
    (hperm : choices.Perm others) (hsorted : choices.Pairwise fun a b => precedes a b = true)
    (hsorted' : others.Pairwise fun a b => precedes a b = true) : choices = others :=
  hperm.eq_of_pairwise (fun _ _ _ _ hab hba => precedes_antisymm hab hba) hsorted hsorted'

/-- Sorting forgets the order in which the choices came. -/
theorem mergeSort_precedes_eq_of_perm {choices others : List (List Capability)}
    (h : choices.Perm others) : choices.mergeSort precedes = others.mergeSort precedes := by
  have hperm : (choices.mergeSort precedes).Perm (others.mergeSort precedes) :=
    (List.mergeSort_perm _ _).trans (h.trans (List.mergeSort_perm _ _).symm)
  exact eq_of_perm_of_precedes hperm (List.pairwise_mergeSort precedes_trans precedes_total _)
    (List.pairwise_mergeSort precedes_trans precedes_total _)

/-! ## Making one choice -/

variable {env : Environment}

/-- A choice of which one candidate is declared changes nothing. -/
theorem choose_of_settles {d : Declarations} {candidates : List Capability}
    (h : d.Settles candidates) : choose env d candidates = d := by
  rw [choose, if_pos (Declarations.any_contains_iff.2 h)]

/-- A choice of which no candidate is declared declares what is picked. -/
theorem choose_of_pick? {d : Declarations} {candidates : List Capability} {cap : Capability}
    {ext : Option Extension} (h : ¬ d.Settles candidates)
    (hpick : env.pick? candidates = some (cap, ext)) :
    choose env d candidates = d.declare cap ext := by
  rw [choose, if_neg (mt Declarations.any_contains_iff.1 h), hpick]

/-- A choice either changes nothing, as it is settled or cannot be made, or it declares the
candidate that the target picks. -/
theorem choose_cases (env : Environment) (d : Declarations) (candidates : List Capability) :
    (choose env d candidates = d ∧ (d.Settles candidates ∨ ¬ env.Offers candidates)) ∨
      ∃ cap ext, ¬ d.Settles candidates ∧ env.pick? candidates = some (cap, ext) ∧
        choose env d candidates = d.declare cap ext := by
  by_cases hsettled : d.Settles candidates
  · exact Or.inl ⟨choose_of_settles hsettled, Or.inl hsettled⟩
  · cases hpick : env.pick? candidates with
    | none =>
        rw [choose, if_neg (mt Declarations.any_contains_iff.1 hsettled), hpick]
        exact Or.inl ⟨rfl, Or.inr (Environment.pick?_eq_none_iff.1 hpick)⟩
    | some picked =>
        exact Or.inr ⟨picked.1, picked.2, hsettled, rfl, choose_of_pick? hsettled hpick⟩

/-- A choice drops no declaration. -/
theorem within_choose (d : Declarations) (candidates : List Capability) :
    d.Within (choose env d candidates) := by
  rcases choose_cases env d candidates with ⟨heq, -⟩ | ⟨cap, ext, -, -, heq⟩
  · rw [heq]
    exact .refl d
  · rw [heq]
    exact d.within_declare cap ext

/-- A choice that is settled already or can be made is settled afterwards. -/
theorem settles_choose {d : Declarations} {candidates : List Capability}
    (h : d.Settles candidates ∨ env.Offers candidates) :
    (choose env d candidates).Settles candidates := by
  rcases choose_cases env d candidates with ⟨heq, hcase⟩ | ⟨cap, ext, -, hpick, heq⟩
  · rw [heq]
    tauto
  · rw [heq]
    exact ⟨cap, (Environment.pick?_eq_some hpick).1, by simp⟩

/-- To make a choice again changes nothing: it is settled by now, or the target cannot make it. -/
theorem choose_choose (d : Declarations) (candidates : List Capability) :
    choose env (choose env d candidates) candidates = choose env d candidates := by
  rcases choose_cases env d candidates with ⟨heq, -⟩ | ⟨cap, ext, -, hpick, heq⟩
  · rw [heq, heq]
  · have hsettled : (d.declare cap ext).Settles candidates :=
      ⟨cap, (Environment.pick?_eq_some hpick).1, by simp⟩
    rw [heq, choose_of_settles hsettled]

/-- A choice keeps every declared capability gated. -/
theorem gated_choose {d : Declarations} (h : d.Gated env) (candidates : List Capability) :
    (choose env d candidates).Gated env := by
  rcases choose_cases env d candidates with ⟨heq, -⟩ | ⟨cap, ext, -, hpick, heq⟩
  · rw [heq]
    exact h
  · obtain ⟨-, husable⟩ := Environment.pick?_eq_some hpick
    rw [heq]
    exact h.declare (Environment.usable?_eq_some_iff.1 husable).2

/-- A choice depends on which capabilities are declared, not on their order. -/
theorem sameMembers_choose {d e : Declarations} (h : d.SameMembers e)
    (candidates : List Capability) :
    (choose env d candidates).SameMembers (choose env e candidates) := by
  rcases choose_cases env d candidates with ⟨hd, hcase⟩ | ⟨cap, ext, hsettled, hpick, hd⟩
  · rcases choose_cases env e candidates with ⟨he, -⟩ | ⟨c, x, hopen, hpick, -⟩
    · rw [hd, he]
      exact h
    · rw [h.settles_iff] at hcase
      have hoffers : env.Offers candidates := by
        by_contra hnot
        rw [Environment.pick?_eq_none_iff.2 hnot] at hpick
        cases hpick
      tauto
  · rcases choose_cases env e candidates with ⟨-, hcase⟩ | ⟨c, x, -, hpick', he⟩
    · rw [← h.settles_iff, ← Environment.pick?_eq_none_iff, hpick] at hcase
      simp [hsettled] at hcase
    · rw [hpick] at hpick'
      cases hpick'
      rw [hd, he]
      exact h.declare cap ext

/-! ## Making several choices in turn -/

/-- Choices drop no declaration. -/
theorem within_foldl_choose (choices : List (List Capability)) (d : Declarations) :
    d.Within (choices.foldl (choose env) d) :=
  List.foldlRecOn choices (choose env) (.refl d) fun _ h candidates _ =>
    h.trans (within_choose _ candidates)

/-- Choices keep every declared capability gated. -/
theorem gated_foldl_choose {d : Declarations} (h : d.Gated env)
    (choices : List (List Capability)) : (choices.foldl (choose env) d).Gated env :=
  List.foldlRecOn choices (choose env) h fun _ h candidates _ => gated_choose h candidates

/-- Where a step that is repeated at once changes nothing, it need not be repeated. -/
theorem foldl_eraseReps {α β : Type} [BEq α] [LawfulBEq α] {f : β → α → β}
    (hf : ∀ b a, f (f b a) a = f b a) (l : List α) (b : β) :
    l.eraseReps.foldl f b = l.foldl f b := by
  -- The loop holds back the last entry and collects those before it in the opposite order.
  have hloop (rest : List α) (last : α) (earlier : List α) :
      (List.eraseRepsBy.loop (· == ·) last rest earlier).foldl f b =
        rest.foldl f (f (earlier.reverse.foldl f b) last) := by
    induction rest generalizing last earlier with
    | nil => simp [List.eraseRepsBy.loop]
    | cons a rest ih =>
        rw [List.eraseRepsBy.loop]
        cases hsame : last == a with
        | true =>
            obtain rfl := eq_of_beq hsame
            rw [ih, List.foldl_cons, hf]
        | false =>
            rw [ih, List.foldl_cons, List.reverse_cons, List.foldl_append, List.foldl_cons,
              List.foldl_nil]
  cases l with
  | nil => rfl
  | cons first rest => exact hloop rest first []

/-- The open choices are made in their order; it does not matter how often each was recorded. -/
theorem finish_eq_foldl (c : Collector) :
    c.finish env = (c.choices.mergeSort precedes).foldl (choose env) c.declared :=
  foldl_eraseReps choose_choose _ _

/-- Among the choices made, each that was settled or could be made is settled at the end. -/
theorem settles_foldl_choose {choices : List (List Capability)} {d : Declarations}
    {candidates : List Capability} (hmem : candidates ∈ choices)
    (h : d.Settles candidates ∨ env.Offers candidates) :
    (choices.foldl (choose env) d).Settles candidates := by
  induction choices generalizing d with
  | nil => cases hmem
  | cons first rest ih =>
      rcases List.mem_cons.1 hmem with rfl | hmem
      · exact (settles_choose h).mono (within_foldl_choose rest _)
      · exact ih hmem (h.imp_left fun hsettled => hsettled.mono (within_choose d first))

/-- Choices depend on which capabilities are declared at the start, not on their order. -/
theorem sameMembers_foldl_choose {d e : Declarations} (h : d.SameMembers e)
    (choices : List (List Capability)) :
    (choices.foldl (choose env) d).SameMembers (choices.foldl (choose env) e) := by
  induction choices generalizing d e with
  | nil => exact h
  | cons first rest ih => exact ih (sameMembers_choose h first)

/-- Choices that are settled at the start may be left out. -/
theorem foldl_choose_unsettled {d e : Declarations} (h : d.Within e)
    (choices : List (List Capability)) :
    (d.unsettled choices).foldl (choose env) e = choices.foldl (choose env) e := by
  induction choices generalizing e with
  | nil => rfl
  | cons first rest ih =>
      by_cases hsettled : d.Settles first
      · have hleft : d.unsettled (first :: rest) = d.unsettled rest := by
          simp [Declarations.unsettled, hsettled]
        rw [hleft, ih h, List.foldl_cons, choose_of_settles (hsettled.mono h)]
      · -- Both folds make this choice, which drops no declaration of `d`.
        have hkept : d.unsettled (first :: rest) = first :: d.unsettled rest := by
          simp [Declarations.unsettled, hsettled]
        rw [hkept, List.foldl_cons, List.foldl_cons, ih (h.trans (within_choose e first))]

/-- Which choices are made depends only on those that are open at the start. -/
theorem foldl_choose_mergeSort_eq {d : Declarations} {choices others : List (List Capability)}
    (h : (d.unsettled choices).Perm (d.unsettled others)) :
    (choices.mergeSort precedes).foldl (choose env) d =
      (others.mergeSort precedes).foldl (choose env) d := by
  have hsorted (l : List (List Capability)) :
      (d.unsettled (l.mergeSort precedes)).Pairwise fun a b => precedes a b = true :=
    (List.pairwise_mergeSort precedes_trans precedes_total l).filter _
  have hperm : (d.unsettled (choices.mergeSort precedes)).Perm
      (d.unsettled (others.mergeSort precedes)) :=
    ((List.mergeSort_perm choices _).filter _).trans
      (h.trans ((List.mergeSort_perm others _).filter _).symm)
  -- Dropping the settled choices leaves the rest sorted.
  have heq := eq_of_perm_of_precedes hperm (hsorted choices) (hsorted others)
  rw [← foldl_choose_unsettled (.refl d), heq, foldl_choose_unsettled (.refl d)]

/-! ## The choices of a stream -/

/-- Of the choices of a stream, a run drops only some that are settled at its end. -/
theorem Run.unsettled_choices {c c' : Collector} {reqs : List Requirement}
    (h : Run env c reqs c') {d : Declarations} (hd : c'.declared.Within d) :
    (d.unsettled c'.choices).Perm
      (d.unsettled (Requirement.choices reqs) ++ d.unsettled c.choices) := by
  induction h with
  | nil => exact .refl _
  | cons c req next rest c' hstep hrest ih =>
      refine (ih hd).trans ?_
      cases hstep with
      | known | declare | extension | nothing => exact .refl _
      | settled candidates hsettled =>
          -- What settles the choice now is still declared at the end.
          have hleft : d.Settles candidates := hsettled.mono (hrest.within.trans hd)
          simp [Requirement.choices, Requirement.choice?, Declarations.unsettled, hleft]
      | postpone candidates _ _ =>
          simp only [Requirement.choices, Requirement.choice?, Declarations.unsettled,
            List.filterMap_cons, List.filter_cons]
          split
          · exact List.perm_middle
          · exact .refl _

/-- After a run, the result is that of making all choices of the stream. -/
theorem Run.finish_eq {c : Collector} {reqs : List Requirement} (h : Run env empty reqs c) :
    c.finish env =
      ((Requirement.choices reqs).mergeSort precedes).foldl (choose env) c.declared := by
  have hopen := h.unsettled_choices (.refl _)
  have hempty : c.declared.unsettled empty.choices = [] := rfl
  rw [hempty, List.append_nil] at hopen
  rw [finish_eq_foldl, foldl_choose_mergeSort_eq hopen]

end Collector

end SpirvLegality
