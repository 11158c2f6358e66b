import Mathlib.Data.List.Chain
import Mathlib.Logic.Function.Iterate
import SpirvLegality.Environment.Worklist
import SpirvLegality.Proofs.Cycles
import SpirvLegality.Proofs.Reachability

/-!
# The effect of enabling a capability

The loop that enables a capability ends, over any graph and from any state. Each pass either drops
an entry of the worklist or replaces one by the prerequisites of a capability that was not
available, and such a capability becomes available once. So the length of the list together with the
prerequisites that can still be put onto it (`PrerequisiteGraph.demand`) falls by one in each pass
(`Worklist.size_pass`), while no pass changes what the loop comes to (`Worklist.outcome_pass`). What
the work leads to lies on paths of prerequisites that avoid the available capabilities
(`PrerequisiteGraph.leadsTo_iff_exists_path`). `Environment.enable_effect` puts both together.
-/

namespace SpirvLegality

namespace PrerequisiteGraph

variable {g : PrerequisiteGraph} {barred : EnumSet Capability} {first last : Capability}

/-! ## Paths of prerequisites -/

/-- A path from one capability to another: each capability on it presupposes the next one, and none
is barred. -/
structure PathOutside (g : PrerequisiteGraph) (barred : EnumSet Capability)
    (first last : Capability) (path : List Capability) : Prop where
  first_eq : path.head? = some first
  last_eq : path.getLast? = some last
  presupposes : path.IsChain fun cap p => p ∈ g.prerequisites cap
  outside : ∀ cap ∈ path, cap ∉ barred

/-- What a prerequisite leads to, the capability leads to. -/
theorem LeadsTo.of_prerequisite {p : Capability} (hfirst : first ∉ barred)
    (hp : p ∈ g.prerequisites first) (h : g.LeadsTo barred [p] last) :
    g.LeadsTo barred [first] last := by
  induction h with
  | work hcap houtside =>
      rw [List.mem_singleton.1 hcap] at houtside ⊢
      exact .prerequisite (.work (List.mem_singleton_self first) hfirst) hp houtside
  | prerequisite _ hp houtside ih => exact .prerequisite ih hp houtside

/-- A path can be prolonged by a prerequisite of its last capability. -/
theorem PathOutside.concat {path : List Capability} (h : g.PathOutside barred first last path)
    {p : Capability} (hp : p ∈ g.prerequisites last) (houtside : p ∉ barred) :
    g.PathOutside barred first p (path ++ [p]) where
  first_eq := by rw [List.head?_append, h.first_eq, Option.some_or]
  last_eq := List.getLast?_concat
  presupposes := by
    refine h.presupposes.append (.singleton p) fun cap hcap c hc => ?_
    cases h.last_eq.symm.trans hcap
    cases hc
    exact hp
  outside cap hcap := by
    rcases List.mem_append.1 hcap with hcap | hcap
    · exact h.outside cap hcap
    · rwa [List.mem_singleton.1 hcap]

/-- A capability leads to another one just where a path does. -/
theorem leadsTo_iff_exists_path :
    g.LeadsTo barred [first] last ↔ ∃ path, g.PathOutside barred first last path := by
  constructor
  · intro h
    induction h with
    | @work cap hcap houtside =>
        rw [List.mem_singleton.1 hcap] at houtside ⊢
        exact ⟨[first], rfl, rfl, .singleton first, by simpa using houtside⟩
    | prerequisite _ hp houtside ih =>
        obtain ⟨path, hpath⟩ := ih
        exact ⟨_, hpath.concat hp houtside⟩
  · rintro ⟨path, hfirst, hlast, hchain, houtside⟩
    induction path generalizing first with
    | nil => cases hfirst
    | cons cap rest ih =>
        cases hfirst
        obtain ⟨hcap, hrest⟩ := List.forall_mem_cons.1 houtside
        cases rest with
        | nil =>
            cases hlast
            exact .work (List.mem_singleton_self _) hcap
        | cons p rest =>
            obtain ⟨hp, hchain⟩ := List.isChain_cons_cons.1 hchain
            exact .of_prerequisite hcap hp (ih rfl hlast hchain hrest)

/-- The walk from a capability meets what paths lead to and, beyond that, the barred capabilities
that a path runs into: its start, if this is barred, and the prerequisites of its last capability. -/
theorem meets_singleton_iff {cap : Capability} : g.Meets barred [first] cap ↔
    (∃ path, g.PathOutside barred first cap path) ∨
      (cap ∈ barred ∧ (cap = first ∨ ∃ last path,
        g.PathOutside barred first last path ∧ cap ∈ g.prerequisites last)) := by
  constructor
  · intro h
    by_cases hbarred : cap ∈ barred
    · refine Or.inr ⟨hbarred, h.imp List.mem_singleton.1 ?_⟩
      rintro ⟨last, hlast, hcap⟩
      obtain ⟨path, hpath⟩ := leadsTo_iff_exists_path.1 hlast
      exact ⟨last, path, hpath, hcap⟩
    · exact Or.inl (leadsTo_iff_exists_path.1 (leadsTo_iff_meets.2 ⟨h, hbarred⟩))
  · rintro (hpath | ⟨-, rfl | ⟨last, path, hpath, hcap⟩⟩)
    · exact (leadsTo_iff_meets.1 (leadsTo_iff_exists_path.2 hpath)).1
    · exact Or.inl (List.mem_singleton_self cap)
    · exact Or.inr ⟨last, leadsTo_iff_exists_path.2 ⟨path, hpath⟩, hcap⟩

/-! ## What can still become work -/

/-- The number of prerequisites of all capabilities outside a set, where a prerequisite of several
of them counts several times. -/
def demand (g : PrerequisiteGraph) (available : EnumSet Capability) : Nat :=
  ((Capability.values.filter (· ∉ available)).flatMap g.prerequisites).length

/-- A capability that joins the set takes its own prerequisites off the demand. -/
theorem demand_insert (g : PrerequisiteGraph) {available : EnumSet Capability} {cap : Capability}
    (h : cap ∉ available) :
    (g.prerequisites cap).length + g.demand (available.insert cap) = g.demand available := by
  have hmem : cap ∈ Capability.values.filter (· ∉ available) :=
    List.mem_filter.2 ⟨Capability.mem_values cap, decide_eq_true h⟩
  have herase : (Capability.values.filter (· ∉ available)).erase cap =
      Capability.values.filter (· ∉ available.insert cap) := by
    rw [(Capability.nodup_values.filter _).erase_eq_filter, List.filter_filter]
    refine List.filter_congr fun c _ => Bool.eq_iff_iff.2 ?_
    simp [not_or]
  have hperm := (List.perm_cons_erase hmem).flatMap_right g.prerequisites
  rw [herase, List.flatMap_cons] at hperm
  rw [demand, demand, hperm.length_eq, List.length_append]

end PrerequisiteGraph

/-! ## Pass by pass -/

namespace Worklist

open Availability (enableAll)

variable {g : PrerequisiteGraph}

/-- The state that the loop comes to. -/
def outcome (g : PrerequisiteGraph) (list : Worklist) : Availability :=
  enableAll g list.state list.work

/-- The entries of the list and those that can still be put onto it. -/
def size (g : PrerequisiteGraph) (list : Worklist) : Nat :=
  list.work.length + g.demand list.state.available

/-- A pass over an available capability flags it and drops it. -/
theorem pass_of_mem {s : Availability} {cap : Capability} (h : cap ∈ s.available)
    (rest : List Capability) : pass g ⟨s, cap :: rest⟩ = ⟨s.raise cap, rest⟩ := by
  simp only [pass, if_pos h, EnumSet.insert_of_mem h, Availability.raise]

/-- A pass over another capability makes it available and puts its prerequisites onto the list. -/
theorem pass_of_not_mem {s : Availability} {cap : Capability} (h : cap ∉ s.available)
    (rest : List Capability) : pass g ⟨s, cap :: rest⟩ =
      ⟨⟨s.flagged.insert cap, s.available.insert cap⟩, g.prerequisites cap ++ rest⟩ := by
  simp only [pass, if_neg h]

/-- A pass does not change what the loop comes to. -/
theorem outcome_pass (g : PrerequisiteGraph) (list : Worklist) :
    (list.pass g).outcome g = list.outcome g := by
  obtain ⟨s, work⟩ := list
  cases work with
  | nil => rfl
  | cons cap rest =>
      by_cases h : cap ∈ s.available
      · rw [pass_of_mem h, outcome, outcome, enableAll, if_pos h]
      · rw [pass_of_not_mem h, outcome, outcome, enableAll, if_neg h]

/-- Each pass takes one off the size, whether the list becomes shorter or longer. -/
theorem size_pass {list : Worklist} (h : list.work ≠ []) :
    (list.pass g).size g + 1 = list.size g := by
  obtain ⟨s, work⟩ := list
  cases work with
  | nil => exact absurd rfl h
  | cons cap rest =>
      by_cases hcap : cap ∈ s.available
      · simp only [pass_of_mem hcap, size, Availability.raise, List.length_cons]
        omega
      · have hdemand := g.demand_insert hcap
        simp only [pass_of_not_mem hcap, size, List.length_append, List.length_cons]
        omega

/-- The loop ends: after as many passes as the size falls by, and not before, the list is empty. By
then the state is the outcome. -/
theorem ends (g : PrerequisiteGraph) (list : Worklist) :
    ∃ passes, passes + g.demand (list.outcome g).available = list.size g ∧
      (∀ n < passes, ((pass g)^[n] list).work ≠ []) ∧
      (pass g)^[passes] list = ⟨list.outcome g, []⟩ := by
  by_cases hwork : list.work = []
  · obtain ⟨s, work⟩ := list
    cases hwork
    exact ⟨0, by simp [size, outcome, enableAll], by simp, by simp [outcome, enableAll]⟩
  · have hsize := size_pass (g := g) hwork
    obtain ⟨passes, hpasses, hbusy, hend⟩ := ends g (list.pass g)
    rw [outcome_pass] at hpasses hend
    refine ⟨passes + 1, by omega, fun n hn => ?_, hend⟩
    cases n with
    | zero => exact hwork
    | succ n => exact hbusy n (Nat.lt_of_succ_lt_succ hn)
termination_by list.size g

end Worklist

namespace Environment

/-- Enabling a capability ends, over any graph and from any state: after one pass for the capability
and one for each prerequisite of what becomes available, the worklist is empty for the first time.
Then those capabilities have become available to which a path leads from the one that is enabled
past what was available before. Their flags are raised, and so are the flags of the available
capabilities that such a path runs into, be it at its start. Nothing else changes. -/
theorem enable_effect (env : Environment) (cap : Capability) :
    (∃ passes, passes + env.graph.demand (env.enable cap).state.available =
          1 + env.graph.demand env.state.available ∧
        (∀ n < passes, ((Worklist.pass env.graph)^[n] ⟨env.state, [cap]⟩).work ≠ []) ∧
        (Worklist.pass env.graph)^[passes] ⟨env.state, [cap]⟩ =
          ⟨(env.enable cap).state, []⟩) ∧
      (∀ c, (env.enable cap).hasCapability c = true ↔ env.hasCapability c = true ∨
        ∃ path, env.graph.PathOutside env.state.available cap c path) ∧
      (∀ c, c ∈ (env.enable cap).state.flagged ↔ c ∈ env.state.flagged ∨
        (∃ path, env.graph.PathOutside env.state.available cap c path) ∨
        (env.hasCapability c = true ∧ (c = cap ∨ ∃ last path,
          env.graph.PathOutside env.state.available cap last path ∧
            c ∈ env.graph.prerequisites last))) ∧
      (env.enable cap).extensions = env.extensions ∧
      (env.enable cap).instructionSets = env.instructionSets ∧
      (env.enable cap).target = env.target ∧ (env.enable cap).graph = env.graph := by
  refine ⟨Worklist.ends env.graph ⟨env.state, [cap]⟩, fun c => ?_, fun c => ?_, rfl, rfl, rfl, rfl⟩
  · rw [← PrerequisiteGraph.leadsTo_iff_exists_path]
    exact Availability.mem_available_enableAll_iff
  · exact Availability.mem_flagged_enableAll_iff.trans
      (or_congr_right PrerequisiteGraph.meets_singleton_iff)

/-- An environment over a table with cycles, in which one capability is available without its
prerequisites and none is flagged. -/
def geometryOnly : Environment where
  target := .standard
  graph := ⟨EnumTable.tangled⟩
  state := ⟨.empty, EnumSet.empty.insert .geometry⟩
  extensions := .empty
  instructionSets := .empty

/-- To enable tessellation goes round the cycle of addresses and linkage, which become available. It
flags the geometry, which it runs into, and leaves alone what lies behind that. -/
theorem enable_effect_geometryOnly :
    (geometryOnly.enable .tessellation).hasCapability .linkage = true ∧
      .linkage ∈ (geometryOnly.enable .tessellation).state.flagged ∧
      .geometry ∈ (geometryOnly.enable .tessellation).state.flagged ∧
      .shader ∉ (geometryOnly.enable .tessellation).state.flagged ∧
      ¬ (geometryOnly.enable .tessellation).hasCapability .shader = true := by
  obtain ⟨-, havailable, hflagged, -⟩ := enable_effect geometryOnly .tessellation
  obtain ⟨-, -, -, -, htessellation, haddresses, hlinkage⟩ := EnumTable.prerequisites_tangled
  have hround : geometryOnly.graph.PathOutside geometryOnly.state.available .tessellation .linkage
      [.tessellation, .addresses, .linkage] :=
    ⟨rfl, rfl, by simp [geometryOnly, htessellation, haddresses], by decide⟩
  have hstart : geometryOnly.graph.PathOutside geometryOnly.state.available .tessellation
      .tessellation [.tessellation] := ⟨rfl, rfl, .singleton _, by decide⟩
  have hgeometry : .geometry ∈ geometryOnly.graph.prerequisites .tessellation := by
    simp [geometryOnly, htessellation]
  -- No path leaves the three capabilities, because the geometry is available.
  have hnext : ∀ cap ∈ [Capability.tessellation, .addresses, .linkage],
      ∀ p ∈ geometryOnly.graph.prerequisites cap,
        p ∈ geometryOnly.state.available ∨ p ∈ [Capability.tessellation, .addresses, .linkage] := by
    simp [geometryOnly, htessellation, haddresses, hlinkage]
  have hreached {c : Capability} (hpath : ∃ path, geometryOnly.graph.PathOutside
      geometryOnly.state.available .tessellation c path) :
      c ∈ [Capability.tessellation, .addresses, .linkage] := by
    rw [← PrerequisiteGraph.leadsTo_iff_exists_path] at hpath
    induction hpath with
    | work hcap _ => exact List.mem_cons.2 (Or.inl (List.mem_singleton.1 hcap))
    | prerequisite _ hp houtside ih => exact (hnext _ ih _ hp).resolve_left houtside
  have hshader : ¬ ∃ path, geometryOnly.graph.PathOutside geometryOnly.state.available
      .tessellation .shader path := fun hpath => absurd (hreached hpath) (by decide)
  refine ⟨(havailable _).2 (Or.inr ⟨_, hround⟩), (hflagged _).2 (Or.inr (Or.inl ⟨_, hround⟩)),
    (hflagged _).2 (Or.inr (Or.inr ⟨by decide, Or.inr ⟨_, _, hstart, hgeometry⟩⟩)), ?_, ?_⟩
  · rw [hflagged]
    rintro (hbefore | hpath | ⟨hbefore, -⟩)
    · exact absurd hbefore (by decide)
    · exact hshader hpath
    · exact absurd hbefore (by decide)
  · rw [havailable]
    rintro (hbefore | hpath)
    · exact absurd hbefore (by decide)
    · exact hshader hpath

end Environment

end SpirvLegality
