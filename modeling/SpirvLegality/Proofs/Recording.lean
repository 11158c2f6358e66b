import SpirvLegality.Collector.Recorder
import SpirvLegality.Proofs.Choices

/-!
# Recorded candidates are those of the end

A target offers the same candidates when a choice comes and when it is made. So a recorder is at
every point a collector with the usable candidates filled in (`Collector.recorded`): it takes what
the collector takes, and refuses what the collector refuses (`Recorder.addAll_recorded`), and it
ends with the same declarations (`Recorder.finish_recorded`).
-/

namespace SpirvLegality

variable {env : Environment}

/-- A choice with the candidates that the target can use. -/
def Environment.openChoice (env : Environment) (candidates : List Capability) : OpenChoice :=
  ⟨candidates, env.usables candidates⟩

/-- A collector with the usable candidates of its choices, which come in the order of the stream. -/
def Collector.recorded (env : Environment) (c : Collector) : Recorder where
  declared := c.declared
  choices := c.choices.reverse.map env.openChoice

/-- What is picked is the first of the usable candidates. -/
theorem Environment.head?_usables (candidates : List Capability) :
    (env.usables candidates).head? = env.pick? candidates :=
  List.head?_filterMap

namespace Recorder

/-- A choice without usable candidates is one that the target cannot make. -/
theorem isEmpty_usables_iff {candidates : List Capability} :
    (env.usables candidates).isEmpty = true ↔ ¬ env.Offers candidates := by
  rw [← Environment.pick?_eq_none_iff, ← Environment.head?_usables, List.isEmpty_iff,
    List.head?_eq_none_iff]

/-- A recorder takes a choice like the collector that it records. -/
theorem addChoice_recorded (c : Collector) (candidates : List Capability) :
    (c.recorded env).addChoice env candidates =
      (c.addChoice env candidates).map (Collector.recorded env) := by
  unfold addChoice Collector.addChoice
  by_cases hsettled : c.declared.Settles candidates
  · rw [if_pos (Collector.any_declares_iff.2 hsettled)]
    exact if_pos (Declarations.any_contains_iff.2 hsettled)
  · rw [if_neg (mt Collector.any_declares_iff.1 hsettled)]
    refine (if_neg (mt Declarations.any_contains_iff.1 hsettled)).trans ?_
    by_cases hoffers : env.Offers candidates
    · rw [if_pos (Collector.any_usable_iff.2 hoffers),
        if_neg fun hempty => isEmpty_usables_iff.1 hempty hoffers]
      simp [Collector.recorded, Environment.openChoice, Except.map]
    · rw [if_neg (mt Collector.any_usable_iff.1 hoffers), if_pos (isEmpty_usables_iff.2 hoffers)]
      rfl

/-- A recorder takes a requirement like the collector that it records. -/
theorem add_recorded (c : Collector) (req : Requirement) :
    (c.recorded env).add env req = (c.add env req).map (Collector.recorded env) := by
  cases req with
  | capability cap =>
      simp only [add, Collector.add, Collector.addCapability, Collector.declares_eq_true_iff,
        Collector.recorded]
      by_cases hcap : cap ∈ c.declared.capabilities
      · simp only [if_pos hcap]
        rfl
      · simp only [if_neg hcap]
        cases env.gate cap.row <;> rfl
  | anyOf candidates => exact addChoice_recorded c candidates
  | extension ext => rfl
  | nothing => rfl

/-- A recorder takes a stream like the collector that it records. -/
theorem addAll_recorded (c : Collector) (reqs : List Requirement) :
    (c.recorded env).addAll env reqs = (c.addAll env reqs).map (Collector.recorded env) := by
  induction reqs generalizing c with
  | nil => rfl
  | cons req rest ih =>
      rw [addAll, Collector.addAll, add_recorded]
      cases c.add env req with
      | error e => rfl
      | ok next => exact ih next

/-- A recorded choice is made like the choice itself. -/
theorem choose_openChoice (d : Declarations) (candidates : List Capability) :
    choose d (env.openChoice candidates) = Collector.choose env d candidates := by
  unfold choose Collector.choose
  rw [← Environment.head?_usables]
  rfl

/-- Neighbours are dropped before or after a map, if it respects which of them are alike. -/
theorem eraseRepsBy_map {α β : Type} (f : α → β) (r : β → β → Bool) (l : List α) :
    (l.map f).eraseRepsBy r = (l.eraseRepsBy fun a b => r (f a) (f b)).map f := by
  have hloop (rest : List α) (last : α) (earlier : List α) :
      List.eraseRepsBy.loop r (f last) (rest.map f) (earlier.map f) =
        (List.eraseRepsBy.loop (fun a b => r (f a) (f b)) last rest earlier).map f := by
    induction rest generalizing last earlier with
    | nil => simp [List.eraseRepsBy.loop]
    | cons a rest ih =>
        rw [List.map_cons, List.eraseRepsBy.loop, List.eraseRepsBy.loop]
        cases r (f last) (f a) with
        | true => exact ih last earlier
        | false => exact ih a (last :: earlier)
  cases l with
  | nil => rfl
  | cons first rest => exact hloop rest first []

/-- A recorder ends with the declarations of the collector that it records. -/
theorem finish_recorded (c : Collector) : (c.recorded env).finish = c.finish env := by
  have hsorted : (c.choices.reverse.map env.openChoice).mergeSort
      (fun a b => Collector.precedes a.candidates b.candidates) =
        (c.choices.mergeSort Collector.precedes).map env.openChoice := by
    rw [Collector.mergeSort_precedes_eq_of_perm c.choices.reverse_perm.symm]
    refine (List.map_mergeSort ?_).symm
    exact fun _ _ _ _ => rfl
  rw [finish, Collector.recorded, hsorted, eraseRepsBy_map, List.foldl_map]
  simp only [choose_openChoice]
  rfl

end Recorder

end SpirvLegality
