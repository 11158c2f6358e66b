import SpirvLegality.Proofs.Soundness

/-!
# Merging declarations

Merging leaves the first lists as they are and puts behind them what the second ones add, in their
order. It is associative (`Declarations.merge_assoc`), and declaring nothing is neutral, so that
merging several declarations may be done group by group (`Declarations.mergeAll_flatten`). What a
module has to declare does not depend on how its units are grouped for that, nor does the error
where a unit fails (`CodeUnit.mapM_hoist`).
-/

namespace SpirvLegality

section AppendNew

variable {α : Type} [DecidableEq α]

/-- Appending the new ones of entries that are listed once each puts those behind the list that it
does not have, in their order. -/
theorem foldl_appendNew_eq_append_filter {entries news : List α} (h : news.Nodup) :
    news.foldl appendNew entries = entries ++ news.filter (· ∉ entries) := by
  induction news generalizing entries with
  | nil => simp
  | cons entry rest ih =>
      obtain ⟨hentry, hrest⟩ := List.nodup_cons.1 h
      rw [List.foldl_cons, ih hrest]
      by_cases hmem : entry ∈ entries
      · rw [appendNew_of_mem hmem, List.filter_cons_of_neg (by simpa using hmem)]
      · -- The entry does not come again, so what is new behind it is what was new before.
        have hsame : rest.filter (· ∉ entries ++ [entry]) = rest.filter (· ∉ entries) := by
          refine List.filter_congr fun a ha => ?_
          have hne : a ≠ entry := fun heq => hentry (heq ▸ ha)
          simp [hne]
        rw [appendNew_of_not_mem hmem, hsame, List.filter_cons_of_pos (by simpa using hmem),
          List.append_assoc, List.singleton_append]

/-- An entry that may be new among the news may as well be appended last. -/
theorem foldl_appendNew_appendNew (entries news : List α) (entry : α) :
    (appendNew news entry).foldl appendNew entries =
      appendNew (news.foldl appendNew entries) entry := by
  by_cases h : entry ∈ news
  · rw [appendNew_of_mem h, appendNew_of_mem (mem_foldl_appendNew.2 (Or.inr h))]
  · rw [appendNew_of_not_mem h, List.foldl_append, List.foldl_cons, List.foldl_nil]

/-- Appending what is new in two lists may be done one list after the other. -/
theorem foldl_appendNew_assoc (entries news others : List α) :
    (others.foldl appendNew news).foldl appendNew entries =
      others.foldl appendNew (news.foldl appendNew entries) := by
  induction others generalizing news with
  | nil => rfl
  | cons entry rest ih =>
      rw [List.foldl_cons, ih, foldl_appendNew_appendNew, List.foldl_cons]

end AppendNew

namespace Declarations

theorem merge_assoc (a b c : Declarations) : (a.merge b).merge c = a.merge (b.merge c) := by
  simp only [merge, foldl_appendNew_assoc]

@[simp] theorem merge_empty (d : Declarations) : d.merge empty = d := rfl

/-- Merging appends what is new, in order. -/
theorem merge_eq {a b : Declarations} (hb : b.Distinct) :
    a.merge b = ⟨a.capabilities ++ b.capabilities.filter (· ∉ a.capabilities),
      a.extensions ++ b.extensions.filter (· ∉ a.extensions)⟩ := by
  rw [merge, foldl_appendNew_eq_append_filter hb.capabilities,
    foldl_appendNew_eq_append_filter hb.extensions]

theorem empty_merge {d : Declarations} (h : d.Distinct) : empty.merge d = d := by
  simp [merge_eq h, empty]

/-- Merging what is declared already changes nothing. -/
theorem merge_of_within {a b : Declarations} (h : b.Within a) : a.merge b = a := by
  rw [merge, foldl_appendNew_of_subset h.capabilities, foldl_appendNew_of_subset h.extensions]

theorem within_merge (a b : Declarations) : b.Within (a.merge b) :=
  ⟨fun _ h => mem_capabilities_merge.2 (Or.inr h), fun _ h => mem_extensions_merge.2 (Or.inr h)⟩

theorem merge_comm_members (a b : Declarations) : (a.merge b).SameMembers (b.merge a) :=
  ⟨fun cap => by simp [or_comm], fun ext => by simp [or_comm]⟩

/-- Merging some declarations and then others is merging what both come to. -/
theorem mergeAll_append (units others : List Declarations) :
    mergeAll (units ++ others) = (mergeAll units).merge (mergeAll others) := by
  induction others using List.reverseRecOn with
  | nil =>
      rw [List.append_nil]
      rfl
  | append_singleton init last ih =>
      have hlast (l : List Declarations) : mergeAll (l ++ [last]) = (mergeAll l).merge last := by
        rw [mergeAll, List.foldl_append]
        rfl
      rw [← List.append_assoc, hlast, hlast, ih, merge_assoc]

/-- What some declarations come to stands for them in front of others. -/
theorem mergeAll_cons_mergeAll (units others : List Declarations) :
    mergeAll (mergeAll units :: others) = (mergeAll units).merge (mergeAll others) := by
  rw [← List.singleton_append, mergeAll_append]
  exact congrArg (merge · _) (empty_merge (distinct_mergeAll units))

/-- Merging group by group and then the groups comes to the same as merging all at once. -/
theorem mergeAll_flatten (groups : List (List Declarations)) :
    mergeAll (groups.map mergeAll) = mergeAll groups.flatten := by
  induction groups with
  | nil => rfl
  | cons group rest ih =>
      rw [List.map_cons, mergeAll_cons_mergeAll, ih, List.flatten_cons, mergeAll_append]

end Declarations

namespace CodeUnit

variable {env : Environment} {defs : Definitions}

/-- What some units have to declare together, or the error of the first that fails. -/
def hoist (env : Environment) (defs : Definitions) (units : List CodeUnit) :
    Except ResolutionError Declarations :=
  (resolveAll env defs units).map Declarations.mergeAll

/-- Several units resolve like the first ones and, unless these fail, like the others. -/
theorem resolveAll_append (units others : List CodeUnit) :
    resolveAll env defs (units ++ others) = do
      let first ← resolveAll env defs units
      let second ← resolveAll env defs others
      return first ++ second := by
  induction units with
  | nil =>
      show _ = (resolveAll env defs others >>= pure)
      rw [bind_pure]
      rfl
  | cons unit rest ih => simp [resolveAll, ih]

/-- Several units resolve like groups of them, one group after the other. -/
theorem resolveAll_flatten (groups : List (List CodeUnit)) :
    resolveAll env defs groups.flatten =
      (groups.mapM (resolveAll env defs)).map List.flatten := by
  induction groups with
  | nil => rfl
  | cons group rest ih =>
      rw [List.flatten_cons, resolveAll_append, ih, List.mapM_cons]
      cases resolveAll env defs group with
      | error e => rfl
      | ok results => cases rest.mapM (resolveAll env defs) <;> rfl

theorem mapM_hoist_eq (groups : List (List CodeUnit)) :
    groups.mapM (hoist env defs) =
      (groups.mapM (resolveAll env defs)).map (List.map Declarations.mergeAll) := by
  induction groups with
  | nil => rfl
  | cons group rest ih =>
      rw [List.mapM_cons, List.mapM_cons, ih, hoist]
      cases resolveAll env defs group with
      | error e => rfl
      | ok results => cases rest.mapM (resolveAll env defs) <;> rfl

/-- Resolving group by group and merging what the groups have to declare is resolving all units. -/
theorem mapM_hoist (groups : List (List CodeUnit)) :
    (groups.mapM (hoist env defs)).map Declarations.mergeAll = hoist env defs groups.flatten := by
  rw [hoist, resolveAll_flatten, mapM_hoist_eq]
  cases groups.mapM (resolveAll env defs) with
  | error e => rfl
  | ok results => exact congrArg Except.ok (Declarations.mergeAll_flatten results)

end CodeUnit

/-- Merging declarations that list nothing twice appends what is new, in order, and lists nothing
twice. It is associative, declaring nothing is neutral on both sides, merging again changes nothing,
and the order does not matter to the members. So what a module has to declare, or the error that it
fails with, is the same however consecutive units are grouped. -/
theorem Declarations.merge_ordered_union {a b : Declarations} (ha : a.Distinct)
    (hb : b.Distinct) :
    a.merge b = ⟨a.capabilities ++ b.capabilities.filter (· ∉ a.capabilities),
        a.extensions ++ b.extensions.filter (· ∉ a.extensions)⟩ ∧
      (a.merge b).Distinct ∧
      (∀ c, (a.merge b).merge c = a.merge (b.merge c)) ∧
      (empty.merge a = a ∧ a.merge empty = a) ∧
      ((a.merge b).merge b = a.merge b ∧ a.merge a = a) ∧
      (a.merge b).SameMembers (b.merge a) ∧
      ∀ (env : Environment) (m : Module) (groups : List (List CodeUnit)),
        groups.flatten = m.units →
          (groups.mapM (CodeUnit.hoist env m.index.find?)).map mergeAll = m.resolve env := by
  refine ⟨merge_eq hb, ha.merge b, merge_assoc a b, ⟨empty_merge ha, merge_empty a⟩,
    ⟨merge_of_within (within_merge a b), merge_of_within (.refl a)⟩, merge_comm_members a b, ?_⟩
  intro env m groups hunits
  rw [CodeUnit.mapM_hoist, hunits]
  rfl

/-- The declarations of a view index followed by those of a kernel that overlap with them, and the
module of a view index and a specialization constant, its units each in a group of their own. -/
theorem Declarations.merge_ordered_union_multiview :
    Distinct ⟨[.matrix, .shader, .multiView], [.khrMultiview]⟩ ∧
      Distinct ⟨[.kernel, .shader, .vector16], [.khrMultiview, .khrShaderBallot]⟩ ∧
      merge ⟨[.matrix, .shader, .multiView], [.khrMultiview]⟩
          ⟨[.kernel, .shader, .vector16], [.khrMultiview, .khrShaderBallot]⟩ =
        ⟨[.matrix, .shader, .multiView, .kernel, .vector16], [.khrMultiview, .khrShaderBallot]⟩ ∧
      [[⟨"<module>", [.viewIndex]⟩], [⟨"main", [.specialization]⟩]].flatten =
        Module.multiview.units ∧
      ([[⟨"<module>", [.viewIndex]⟩], [⟨"main", [.specialization]⟩]].mapM
          (CodeUnit.hoist .multiview Module.multiview.index.find?)).map mergeAll =
        .ok ⟨[.matrix, .shader, .multiView], [.khrMultiview]⟩ := by
  have hfirst : Distinct ⟨[.matrix, .shader, .multiView], [.khrMultiview]⟩ :=
    ⟨by decide, by decide⟩
  have hsecond : Distinct ⟨[.kernel, .shader, .vector16], [.khrMultiview, .khrShaderBallot]⟩ :=
    ⟨by decide, by decide⟩
  obtain ⟨hmerge, -, -, -, -, -, hgroups⟩ := merge_ordered_union hfirst hsecond
  exact ⟨hfirst, hsecond, hmerge.trans (by decide), rfl,
    (hgroups .multiview .multiview _ rfl).trans Module.resolve_multiview⟩

end SpirvLegality
