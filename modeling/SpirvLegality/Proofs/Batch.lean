import SpirvLegality.Proofs.Recording
import SpirvLegality.Proofs.Repetition
import SpirvLegality.Proofs.Traceability

/-!
# Collecting all requirements at once

What a collector does step by step, said of the stream as a whole. `Environment.scan` goes through
candidate lists and picks from each its first usable candidate, unless one of its candidates is
listed by then. `Requirement.batch` lists the plain capabilities of a stream and behind them what a
scan of all its choices picks, and next to them the extensions that the stream and the picks take.
A run that succeeds ends with just these declarations, in this order (`Collector.finish_eq_batch`),
although it drops choices that are settled when they come, and whether it looks up the usable
candidates when a choice comes or at the end.
-/

namespace SpirvLegality

variable {env : Environment}

namespace Environment

/-- The extension that a capability needs on this target, if it is legal there and needs one. -/
def enabler? (env : Environment) (cap : Capability) : Option Extension :=
  match env.gate cap.row with
  | .error _ => none
  | .ok ext => ext

/-- Declares some capabilities in turn, each with the extension that it needs. -/
def declareAll (env : Environment) (d : Declarations) (caps : List Capability) : Declarations :=
  caps.foldl (fun d cap => d.declare cap (env.enabler? cap)) d

/-- What is picked from some candidate lists in turn, next to the capabilities that are listed: the
first usable candidate of each list of which no candidate is listed or picked by then. -/
def scan (env : Environment) (listed : List Capability) : List (List Capability) → List Capability
  | [] => []
  | candidates :: rest =>
    if ∃ cap ∈ candidates, cap ∈ listed then scan env listed rest
    else
      match candidates.find? fun cap => (env.usable? cap).isSome with
      | some cap => cap :: scan env (listed ++ [cap]) rest
      | none => scan env listed rest

end Environment

namespace Requirement

/-- The candidate lists of all choices of a stream, each once, in the lexicographic order of the
numbers of their candidates. -/
def sortedChoices (reqs : List Requirement) : List (List Capability) :=
  ((choices reqs).mergeSort fun a b => a.map Capability.number ≤ b.map Capability.number).dedup

/-- The extensions that a stream takes next to the capabilities that are listed, in order: those it
asks for, and those that its plain capabilities need, where they are not listed yet. -/
def takenExtensions (env : Environment) (listed : List Capability) :
    List Requirement → List Extension
  | [] => []
  | .capability cap :: rest =>
    if cap ∈ listed then takenExtensions env listed rest
    else (env.enabler? cap).toList ++ takenExtensions env (listed ++ [cap]) rest
  | .extension ext :: rest => ext :: takenExtensions env listed rest
  | .anyOf _ :: rest | .nothing :: rest => takenExtensions env listed rest

/-- What a scan of all choices of a stream picks next to its plain capabilities. -/
def picks (env : Environment) (reqs : List Requirement) : List Capability :=
  env.scan (plain reqs).eraseDups (sortedChoices reqs)

/-- The declarations of a stream that is known as a whole. -/
def batch (env : Environment) (reqs : List Requirement) : Declarations where
  capabilities := (plain reqs).eraseDups ++ picks env reqs
  extensions :=
    (takenExtensions env [] reqs ++ (picks env reqs).filterMap env.enabler?).eraseDups

end Requirement

/-- Declaring a capability takes the extension that it needs. -/
theorem Declarations.extensions_declare {d : Declarations} {cap : Capability}
    {ext : Option Extension} :
    (d.declare cap ext).extensions = ext.toList.foldl appendNew d.extensions := by
  cases ext <;> rfl

namespace Environment

theorem enabler?_of_gate {cap : Capability} {ext : Option Extension}
    (h : env.gate cap.row = .ok ext) : env.enabler? cap = ext := by
  rw [enabler?, h]

/-- A list of which a candidate is listed is passed over. -/
theorem scan_cons_of_listed {listed candidates : List Capability} {rest : List (List Capability)}
    (h : ∃ cap ∈ candidates, cap ∈ listed) :
    env.scan listed (candidates :: rest) = env.scan listed rest := by
  rw [scan, if_pos h]

/-- A list without a usable candidate is passed over. -/
theorem scan_cons_of_not_offers {listed candidates : List Capability}
    {rest : List (List Capability)} (h : ¬ env.Offers candidates) :
    env.scan listed (candidates :: rest) = env.scan listed rest := by
  have hnone : candidates.find? (fun cap => (env.usable? cap).isSome) = none :=
    List.find?_eq_none.2 fun cap hcap husable => h ⟨cap, hcap, husable⟩
  rw [scan, hnone]
  split <;> rfl

/-- From any other list the first usable candidate is picked. -/
theorem scan_cons_of_pick? {listed candidates : List Capability} {rest : List (List Capability)}
    {cap : Capability} {ext : Option Extension} (h : ¬ ∃ c ∈ candidates, c ∈ listed)
    (hpick : env.pick? candidates = some (cap, ext)) :
    env.scan listed (candidates :: rest) = cap :: env.scan (listed ++ [cap]) rest := by
  rw [scan, if_neg h, find?_usable_of_pick? hpick]

/-- What is picked is new, so that listing it appends it. -/
theorem foldl_appendNew_scan (listed : List Capability) (choices : List (List Capability)) :
    (env.scan listed choices).foldl appendNew listed = listed ++ env.scan listed choices := by
  fun_induction env.scan listed choices with
  | case1 listed => exact (List.append_nil listed).symm
  | case2 listed candidates rest hlisted ih => exact ih
  | case3 listed candidates rest hopen cap hfirst ih =>
      have hnew : cap ∉ listed := fun hcap => hopen ⟨cap, List.mem_of_find?_eq_some hfirst, hcap⟩
      rw [List.foldl_cons, appendNew_of_not_mem hnew, ih, List.append_assoc, List.singleton_append]
  | case4 listed candidates rest hopen hnone ih => exact ih

theorem declareAll_cons (d : Declarations) (cap : Capability) (caps : List Capability) :
    env.declareAll d (cap :: caps) = env.declareAll (d.declare cap (env.enabler? cap)) caps := rfl

theorem capabilities_declareAll (d : Declarations) (caps : List Capability) :
    (env.declareAll d caps).capabilities = caps.foldl appendNew d.capabilities := by
  induction caps generalizing d with
  | nil => rfl
  | cons cap rest ih => rw [declareAll_cons, ih, Declarations.capabilities_declare, List.foldl_cons]

theorem extensions_declareAll (d : Declarations) (caps : List Capability) :
    (env.declareAll d caps).extensions =
      (caps.filterMap env.enabler?).foldl appendNew d.extensions := by
  induction caps generalizing d with
  | nil => rfl
  | cons cap rest ih =>
      rw [declareAll_cons, ih, Declarations.extensions_declare, List.filterMap_cons]
      cases env.enabler? cap <;> rfl

end Environment

namespace Collector

/-! ## The order of the choices -/

/-- One candidate list stands before another where its numbers do, in the lexicographic order. -/
theorem precedes_eq_decide_le (a b : List Capability) :
    precedes a b = decide (a.map Capability.number ≤ b.map Capability.number) := by
  rw [Bool.eq_iff_iff, decide_eq_true_iff]
  induction a generalizing b with
  | nil => simp [precedes]
  | cons c rest ih =>
      cases b with
      | nil => simp [precedes]
      | cons d others =>
          rw [precedes_cons_iff, List.map_cons, List.map_cons, List.cons_le_cons_iff, ih,
            Capability.number_injective.eq_iff]

/-- After a run, the result is that of making each choice of the stream once, in the lexicographic
order. -/
theorem Run.finish_eq_sortedChoices {c : Collector} {reqs : List Requirement}
    (h : Run env empty reqs c) :
    c.finish env = (Requirement.sortedChoices reqs).foldl (choose env) c.declared := by
  have hle : precedes =
      fun a b => decide (a.map Capability.number ≤ b.map Capability.number) := by
    funext a b
    exact precedes_eq_decide_le a b
  have hsorted : ((Requirement.choices reqs).mergeSort precedes).Pairwise
      fun a b => precedes a b = true :=
    List.pairwise_mergeSort precedes_trans precedes_total _
  rw [h.finish_eq, Requirement.sortedChoices, ← hle, foldl_choose_dedup hsorted]

/-! ## Picks -/

/-- Choices declare what a scan of them picks. -/
theorem foldl_choose_eq_declareAll (d : Declarations) (choices : List (List Capability)) :
    choices.foldl (choose env) d = env.declareAll d (env.scan d.capabilities choices) := by
  induction choices generalizing d with
  | nil => rfl
  | cons candidates rest ih =>
      rw [List.foldl_cons, ih]
      rcases choose_cases env d candidates with ⟨heq, hcase⟩ | ⟨cap, ext, hopen, hpick, heq⟩
      · rw [heq]
        rcases hcase with hsettled | hoffers
        · rw [Environment.scan_cons_of_listed hsettled]
        · rw [Environment.scan_cons_of_not_offers hoffers]
      · obtain ⟨hmem, husable⟩ := Environment.pick?_eq_some hpick
        have hnew : cap ∉ d.capabilities := fun hcap => hopen ⟨cap, hmem, hcap⟩
        have hgate := (Environment.usable?_eq_some_iff.1 husable).2
        rw [heq, Environment.scan_cons_of_pick? hopen hpick, Environment.declareAll_cons,
          Environment.enabler?_of_gate hgate, Declarations.capabilities_declare,
          appendNew_of_not_mem hnew]

/-! ## Runs -/

/-- A run takes the extensions of its stream in order. -/
theorem Run.extensions_eq {c c' : Collector} {reqs : List Requirement} (h : Run env c reqs c') :
    c'.declared.extensions =
      (Requirement.takenExtensions env c.declared.capabilities reqs).foldl appendNew
        c.declared.extensions := by
  induction h with
  | nil => rfl
  | cons c req next rest c' hstep _ ih =>
      rw [ih]
      cases hstep with
      | known cap hcap => rw [Requirement.takenExtensions, if_pos hcap]
      | declare cap ext hcap hgate =>
          rw [Requirement.takenExtensions, if_neg hcap, Environment.enabler?_of_gate hgate,
            List.foldl_append, Declarations.capabilities_declare, appendNew_of_not_mem hcap,
            Declarations.extensions_declare]
      | settled | postpone | extension | nothing => rfl

/-- A run from nothing lists the plain capabilities of its stream, each where it comes first. -/
theorem Run.capabilities_eq_eraseDups {c : Collector} {reqs : List Requirement}
    (h : Run env empty reqs c) : c.declared.capabilities = (Requirement.plain reqs).eraseDups :=
  h.capabilities_eq.trans (foldl_appendNew_nil _)

/-- At the end of a run the picks of its stream are declared behind what was asked for. -/
theorem Run.finish_eq_declareAll {c : Collector} {reqs : List Requirement}
    (h : Run env empty reqs c) :
    c.finish env = env.declareAll c.declared (Requirement.picks env reqs) := by
  rw [h.finish_eq_sortedChoices, foldl_choose_eq_declareAll, h.capabilities_eq_eraseDups]
  rfl

/-- A run that succeeds ends with the declarations of its stream as a whole: a collector does so,
and so does a recorder, which takes and refuses the same streams. -/
theorem finish_eq_batch (env : Environment) (reqs : List Requirement) :
    (∀ c, empty.addAll env reqs = .ok c → c.finish env = Requirement.batch env reqs) ∧
      (Recorder.empty.addAll env reqs).map Recorder.finish =
        (empty.addAll env reqs).map (finish env) := by
  constructor
  · intro c h
    have hrun := addAll_eq_ok_iff.1 h
    have hcapabilities :
        (c.finish env).capabilities = (Requirement.batch env reqs).capabilities := by
      rw [hrun.finish_eq_declareAll, Environment.capabilities_declareAll,
        hrun.capabilities_eq_eraseDups]
      exact Environment.foldl_appendNew_scan _ _
    have hextensions : (c.finish env).extensions = (Requirement.batch env reqs).extensions := by
      rw [hrun.finish_eq_declareAll, Environment.extensions_declareAll, hrun.extensions_eq,
        ← List.foldl_append]
      exact foldl_appendNew_nil _
    exact congrArg₂ Declarations.mk hcapabilities hextensions
  · have hempty : Recorder.empty = empty.recorded env := rfl
    rw [hempty, Recorder.addAll_recorded]
    cases empty.addAll env reqs with
    | error e => rfl
    | ok c => exact congrArg Except.ok (Recorder.finish_recorded c)

end Collector

/-! ## Choices around a capability -/

/-- The choices of the two subgroup variables around a denormal mode, which settles a third one, and
an extension. -/
def Requirement.subgroupStream : List Requirement :=
  [.anyOf [.kernel, .groupNonUniform, .subgroupBallotKHR], .capability .denormPreserve,
    .anyOf [.denormPreserve, .denormFlushToZero],
    .anyOf [.subgroupBallotKHR, .groupNonUniformBallot], .extension .khrMultiview,
    .capability .denormPreserve]

namespace Collector

/-- The collector of that stream, which has dropped the third choice. -/
def subgroupStream : Collector :=
  ⟨⟨[.denormPreserve], [.khrFloatControls, .khrMultiview]⟩,
    [[.subgroupBallotKHR, .groupNonUniformBallot], [.kernel, .groupNonUniform, .subgroupBallotKHR]]⟩

theorem addAll_subgroupStream :
    empty.addAll .subgroups Requirement.subgroupStream = .ok subgroupStream := by
  rw [addAll_eq_ok_iff]
  exact .cons _ _ _ _ _ (.postpone _ (by decide) (Environment.offers_subgroupBallot (by simp)))
    (.cons _ _ _ _ _ (.declare _ (some .khrFloatControls) (by decide) rfl)
      (.cons _ _ _ _ _ (.settled _ (by decide))
        (.cons _ _ _ _ _ (.postpone _ (by decide) (Environment.offers_subgroupBallot (by simp)))
          (.cons _ _ _ _ _ (.extension _)
            (.cons _ _ _ _ _ (.known _ (by decide)) (.nil _))))))

/-- Seen as a whole, the stream picks for two of its three choices, and only the denormal mode
takes an extension besides the one asked for. -/
theorem finish_eq_batch_subgroups :
    empty.addAll .subgroups Requirement.subgroupStream = .ok subgroupStream ∧
      subgroupStream.finish .subgroups =
        ⟨[.denormPreserve, .groupNonUniform, .subgroupBallotKHR],
          [.khrFloatControls, .khrMultiview]⟩ ∧
      Requirement.batch .subgroups Requirement.subgroupStream =
        ⟨[.denormPreserve, .groupNonUniform, .subgroupBallotKHR],
          [.khrFloatControls, .khrMultiview]⟩ := by
  have hfinish : subgroupStream.finish .subgroups =
      ⟨[.denormPreserve, .groupNonUniform, .subgroupBallotKHR],
        [.khrFloatControls, .khrMultiview]⟩ := by
    rw [subgroupStream, finish_subgroups (by decide) (by decide)]
    rfl
  have hbatch := (finish_eq_batch .subgroups Requirement.subgroupStream).1 _ addAll_subgroupStream
  exact ⟨addAll_subgroupStream, hfinish, hbatch.symm.trans hfinish⟩

end Collector

end SpirvLegality
