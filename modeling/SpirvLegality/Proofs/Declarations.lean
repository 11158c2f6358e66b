import Mathlib.Data.List.Induction
import SpirvLegality.Declarations
import SpirvLegality.Requirement

/-!
# Declarations and the requirements that they satisfy

What the operations on declarations do to the two lists, read as sets: each adds what it is given
and drops nothing. None of them lists an entry twice (`Distinct`). `Requirement.SatisfiedBy` says
when declarations meet a requirement; more declarations never break one that is met
(`Requirement.SatisfiedBy.mono`).
-/

namespace SpirvLegality

section AppendNew

variable {α : Type} [DecidableEq α]

/-- Appending an entry that may be new adds that entry and keeps the others. -/
@[simp] theorem mem_appendNew {entries : List α} {entry a : α} :
    a ∈ appendNew entries entry ↔ a ∈ entries ∨ a = entry := by
  unfold appendNew
  split
  · constructor
    · exact Or.inl
    · intro h
      rcases h with h | rfl
      · exact h
      · assumption
  · simp

/-- Appending the new ones of some entries adds them and keeps the others. -/
@[simp] theorem mem_foldl_appendNew {entries news : List α} {a : α} :
    a ∈ news.foldl appendNew entries ↔ a ∈ entries ∨ a ∈ news := by
  induction news generalizing entries with
  | nil => simp
  | cons entry rest ih => simp [ih, or_assoc]

/-- Appending an entry that may be new lists no entry twice. -/
theorem nodup_appendNew {entries : List α} (h : entries.Nodup) (entry : α) :
    (appendNew entries entry).Nodup := by
  unfold appendNew
  split
  · exact h
  · next hnew =>
      have hcons : ([entry] ++ entries).Nodup := List.nodup_cons.2 ⟨hnew, h⟩
      exact List.perm_append_comm.nodup hcons

/-- Appending the new ones of some entries lists no entry twice. -/
theorem nodup_foldl_appendNew {entries : List α} (h : entries.Nodup) (news : List α) :
    (news.foldl appendNew entries).Nodup :=
  List.foldlRecOn news appendNew h fun _ h entry _ => nodup_appendNew h entry

/-- Appending an entry that is listed already changes nothing. -/
theorem appendNew_of_mem {entries : List α} {entry : α} (h : entry ∈ entries) :
    appendNew entries entry = entries :=
  if_pos h

/-- Appending an entry that is not listed yet puts it at the end. -/
theorem appendNew_of_not_mem {entries : List α} {entry : α} (h : entry ∉ entries) :
    appendNew entries entry = entries ++ [entry] :=
  if_neg h

/-- Appending the new ones of some entries leaves the old ones in front. -/
theorem prefix_foldl_appendNew (entries news : List α) :
    entries <+: news.foldl appendNew entries := by
  induction news generalizing entries with
  | nil => exact List.prefix_refl entries
  | cons entry rest ih =>
      refine List.IsPrefix.trans ?_ (ih (appendNew entries entry))
      by_cases h : entry ∈ entries
      · exact (appendNew_of_mem h).symm ▸ List.prefix_refl entries
      · exact (appendNew_of_not_mem h).symm ▸ List.prefix_append entries [entry]

/-- Appending entries that are all listed already changes nothing. -/
theorem foldl_appendNew_of_subset {entries news : List α} (h : ∀ a ∈ news, a ∈ entries) :
    news.foldl appendNew entries = entries := by
  induction news with
  | nil => rfl
  | cons entry rest ih =>
      rw [List.foldl_cons, appendNew_of_mem (h entry List.mem_cons_self)]
      exact ih fun a ha => h a (List.mem_cons_of_mem _ ha)

/-- Appending the new ones of some entries to nothing keeps where each of them comes first. -/
theorem foldl_appendNew_nil (news : List α) : news.foldl appendNew [] = news.eraseDups := by
  induction news using List.reverseRecOn with
  | nil => rfl
  | append_singleton init last ih =>
      rw [List.foldl_append, ih, List.eraseDups_append, List.foldl_cons, List.foldl_nil]
      by_cases h : last ∈ init
      · simp [appendNew, List.removeAll, h]
      · simp [appendNew, List.removeAll, h, List.eraseDups_cons]

end AppendNew

namespace Declarations

/-- Every entry of the one is an entry of the other. -/
structure Within (d e : Declarations) : Prop where
  capabilities : ∀ cap ∈ d.capabilities, cap ∈ e.capabilities
  extensions : ∀ ext ∈ d.extensions, ext ∈ e.extensions

/-- The same capabilities and the same extensions, in whatever order. -/
structure SameMembers (d e : Declarations) : Prop where
  capabilities : ∀ cap, cap ∈ d.capabilities ↔ cap ∈ e.capabilities
  extensions : ∀ ext, ext ∈ d.extensions ↔ ext ∈ e.extensions

/-- Whether one of some candidates is declared. -/
def Settles (d : Declarations) (candidates : List Capability) : Prop :=
  ∃ cap ∈ candidates, cap ∈ d.capabilities

instance (d : Declarations) (candidates : List Capability) : Decidable (d.Settles candidates) :=
  inferInstanceAs (Decidable (∃ cap ∈ candidates, cap ∈ d.capabilities))

theorem any_contains_iff {d : Declarations} {candidates : List Capability} :
    (candidates.any fun cap => d.capabilities.contains cap) = true ↔ d.Settles candidates := by
  simp [Settles]

/-- The candidate lists of which no candidate is declared. -/
def unsettled (d : Declarations) (choices : List (List Capability)) : List (List Capability) :=
  choices.filter fun candidates => ¬ d.Settles candidates

theorem Within.refl (d : Declarations) : d.Within d := ⟨fun _ h => h, fun _ h => h⟩

theorem Within.trans {d e f : Declarations} (h : d.Within e) (h' : e.Within f) : d.Within f :=
  ⟨fun cap hcap => h'.capabilities cap (h.capabilities cap hcap),
    fun ext hext => h'.extensions ext (h.extensions ext hext)⟩

/-- A candidate that is declared stays declared. -/
theorem Settles.mono {d e : Declarations} {candidates : List Capability}
    (h : d.Settles candidates) (hde : d.Within e) : e.Settles candidates := by
  obtain ⟨cap, hmem, hcap⟩ := h
  exact ⟨cap, hmem, hde.capabilities cap hcap⟩

/-- Only which capabilities are declared decides which candidate lists are settled. -/
theorem SameMembers.settles_iff {d e : Declarations} (h : d.SameMembers e)
    {candidates : List Capability} : d.Settles candidates ↔ e.Settles candidates := by
  simp only [Settles, h.capabilities]

@[simp] theorem mem_capabilities_addExtension {d : Declarations} {cap : Capability}
    {ext : Extension} : cap ∈ (d.addExtension ext).capabilities ↔ cap ∈ d.capabilities := Iff.rfl

@[simp] theorem mem_extensions_addExtension {d : Declarations} {ext e : Extension} :
    e ∈ (d.addExtension ext).extensions ↔ e ∈ d.extensions ∨ e = ext := by
  simp [addExtension]

@[simp] theorem capabilities_declare {d : Declarations} {cap : Capability}
    {ext : Option Extension} :
    (d.declare cap ext).capabilities = appendNew d.capabilities cap := by
  cases ext <;> rfl

@[simp] theorem mem_extensions_declare {d : Declarations} {cap : Capability}
    {ext : Option Extension} {e : Extension} :
    e ∈ (d.declare cap ext).extensions ↔ e ∈ d.extensions ∨ ext = some e := by
  cases ext with
  | none => simp [declare, addCapability]
  | some ext => simp [declare, addCapability, eq_comm]

theorem within_addExtension (d : Declarations) (ext : Extension) :
    d.Within (d.addExtension ext) :=
  ⟨fun _ h => h, fun _ h => mem_extensions_addExtension.2 (Or.inl h)⟩

theorem within_declare (d : Declarations) (cap : Capability) (ext : Option Extension) :
    d.Within (d.declare cap ext) :=
  ⟨fun c h => by simp [h], fun e h => mem_extensions_declare.2 (Or.inl h)⟩

/-- Declaring the same capability keeps the members the same. -/
theorem SameMembers.declare {d e : Declarations} (h : d.SameMembers e) (cap : Capability)
    (ext : Option Extension) : (d.declare cap ext).SameMembers (e.declare cap ext) :=
  ⟨fun c => by simp [h.capabilities], fun x => by simp [h.extensions]⟩

@[simp] theorem mem_capabilities_merge {d e : Declarations} {cap : Capability} :
    cap ∈ (d.merge e).capabilities ↔ cap ∈ d.capabilities ∨ cap ∈ e.capabilities :=
  mem_foldl_appendNew

@[simp] theorem mem_extensions_merge {d e : Declarations} {ext : Extension} :
    ext ∈ (d.merge e).extensions ↔ ext ∈ d.extensions ∨ ext ∈ e.extensions :=
  mem_foldl_appendNew

/-- Merging several declarations in turn collects the capabilities of all of them. -/
theorem mem_capabilities_foldl_merge {units : List Declarations} {d : Declarations}
    {cap : Capability} :
    cap ∈ (units.foldl merge d).capabilities ↔
      cap ∈ d.capabilities ∨ ∃ unit ∈ units, cap ∈ unit.capabilities := by
  induction units generalizing d with
  | nil => simp
  | cons unit rest ih => simp [ih, or_assoc]

/-- Merging several declarations in turn collects the extensions of all of them. -/
theorem mem_extensions_foldl_merge {units : List Declarations} {d : Declarations}
    {ext : Extension} :
    ext ∈ (units.foldl merge d).extensions ↔
      ext ∈ d.extensions ∨ ∃ unit ∈ units, ext ∈ unit.extensions := by
  induction units generalizing d with
  | nil => simp
  | cons unit rest ih => simp [ih, or_assoc]

@[simp] theorem mem_capabilities_mergeAll {units : List Declarations} {cap : Capability} :
    cap ∈ (mergeAll units).capabilities ↔ ∃ unit ∈ units, cap ∈ unit.capabilities := by
  simp [mergeAll, mem_capabilities_foldl_merge, empty]

@[simp] theorem mem_extensions_mergeAll {units : List Declarations} {ext : Extension} :
    ext ∈ (mergeAll units).extensions ↔ ∃ unit ∈ units, ext ∈ unit.extensions := by
  simp [mergeAll, mem_extensions_foldl_merge, empty]

end Declarations

/-! ## Entries are listed once -/

namespace Declarations

/-- No capability and no extension is listed twice. -/
structure Distinct (d : Declarations) : Prop where
  capabilities : d.capabilities.Nodup
  extensions : d.extensions.Nodup

theorem distinct_empty : empty.Distinct := ⟨.nil, .nil⟩

theorem Distinct.addExtension {d : Declarations} (h : d.Distinct) (ext : Extension) :
    (d.addExtension ext).Distinct :=
  ⟨h.capabilities, nodup_appendNew h.extensions ext⟩

theorem Distinct.declare {d : Declarations} (h : d.Distinct) (cap : Capability)
    (ext : Option Extension) : (d.declare cap ext).Distinct := by
  have hcap : (d.addCapability cap).Distinct :=
    ⟨nodup_appendNew h.capabilities cap, h.extensions⟩
  cases ext with
  | none => exact hcap
  | some ext => exact hcap.addExtension ext

theorem Distinct.merge {d : Declarations} (h : d.Distinct) (other : Declarations) :
    (d.merge other).Distinct :=
  ⟨nodup_foldl_appendNew h.capabilities _, nodup_foldl_appendNew h.extensions _⟩

/-- Merging lists no entry twice, whatever is merged. -/
theorem distinct_mergeAll (units : List Declarations) : (mergeAll units).Distinct :=
  List.foldlRecOn units Declarations.merge distinct_empty fun _ h other _ => h.merge other

end Declarations

namespace Requirement

/-- Whether declarations meet a requirement. -/
def SatisfiedBy (d : Declarations) : Requirement → Prop
  | .capability cap => cap ∈ d.capabilities
  | .anyOf candidates => ∃ cap ∈ candidates, cap ∈ d.capabilities
  | .extension ext => ext ∈ d.extensions
  | .nothing => True

/-- A requirement that is met stays met when more is declared. -/
theorem SatisfiedBy.mono {d e : Declarations} {req : Requirement} (h : req.SatisfiedBy d)
    (hde : d.Within e) : req.SatisfiedBy e := by
  cases req with
  | capability cap => exact hde.capabilities cap h
  | anyOf candidates => exact Declarations.Settles.mono h hde
  | extension ext => exact hde.extensions ext h
  | nothing => trivial

end Requirement

end SpirvLegality
