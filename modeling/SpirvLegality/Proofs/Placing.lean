import SpirvLegality.Proofs.Blindness
import SpirvLegality.Listing.Reader

/-!
# Putting instructions into units

Instructions are placed in turn. Placing succeeds where the functions alternate with the ends of
functions (`UnitBuilder.exists_placeAll_iff`). It puts an instruction where its opcode says; the line
and the name of the result go into errors and the names of units only (`UnitBuilder.Alike.placeAll`).
-/

namespace SpirvLegality.Listing

/-- An instruction with what is needed to put it into its unit: its line and the name of its
result. -/
structure Placement where
  line : Nat
  name : Option String
  instruction : Instruction
deriving Repr

/-- Places some instructions in turn, up to the first error. -/
def UnitBuilder.placeAll (units : UnitBuilder) : List Placement → Except ReadError UnitBuilder
  | [] => .ok units
  | p :: rest =>
    match units.place p.line p.name p.instruction with
    | .error e => .error e
    | .ok units => placeAll units rest

/-! ## Functions and their ends -/

/-- The opcodes among some that begin or end functions. -/
def functionBounds (ops : List Opcode) : List Opcode :=
  ops.filter fun op => op = .function ∨ op = .functionEnd

/-- Functions and ends of functions in turn. -/
def functionPairs (n : Nat) : List Opcode :=
  (List.replicate n [Opcode.function, .functionEnd]).flatten

theorem functionPairs_succ (n : Nat) :
    functionPairs (n + 1) = .function :: .functionEnd :: functionPairs n := by
  simp [functionPairs, List.replicate_succ]

/-- Functions and ends of functions alternate, beginning with a function and ending with an end of
one, or there are none. -/
def FunctionsAlternate (ops : List Opcode) : Prop := ∃ n, functionBounds ops = functionPairs n

/-- A function is the first of a pair, whose second one is the end of the function. -/
theorem exists_function_cons_eq_iff {ops : List Opcode} :
    (∃ n, .function :: ops = functionPairs n) ↔ ∃ n, ops = .functionEnd :: functionPairs n := by
  constructor
  · intro h
    obtain ⟨n, h⟩ := h
    cases n with
    | zero => cases h
    | succ n =>
        rw [functionPairs_succ] at h
        exact ⟨n, (List.cons.inj h).2⟩
  · intro h
    obtain ⟨n, rfl⟩ := h
    exact ⟨n + 1, (functionPairs_succ n).symm⟩

/-- The end of a function begins no pair. -/
theorem functionEnd_cons_ne (ops : List Opcode) (n : Nat) :
    .functionEnd :: ops ≠ functionPairs n := by
  cases n with
  | zero => nofun
  | succ n =>
      rw [functionPairs_succ]
      nofun

namespace UnitBuilder

/-- The end that is due where a function is open. -/
def due (units : UnitBuilder) : List Opcode :=
  if units.opened.isSome then [.functionEnd] else []

theorem due_of_opened {units : UnitBuilder} {f : OpenFunction} (h : units.opened = some f) :
    units.due = [.functionEnd] := by
  rw [due, h]
  rfl

theorem due_of_not_opened {units : UnitBuilder} (h : units.opened = none) : units.due = [] := by
  rw [due, h]
  rfl

variable {units : UnitBuilder} {line : Nat} {name : Option String} {inst : Instruction}

/-- A function begins where none is open, and then its end is due. -/
theorem place_function (units : UnitBuilder) (line : Nat) (name : Option String)
    (h : inst.opcode = .function) :
    (∃ f, units.opened = some f ∧ ∃ e, units.place line name inst = .error e) ∨
      units.opened = none ∧
        ∃ next, units.place line name inst = .ok next ∧ next.due = [.functionEnd] := by
  cases hopened : units.opened with
  | some f => exact Or.inl ⟨f, rfl, _, by rw [place, h, hopened]⟩
  | none => exact Or.inr ⟨rfl, _, by rw [place, h, hopened], rfl⟩

/-- A function ends where one is open, and then no end is due. -/
theorem place_functionEnd (units : UnitBuilder) (line : Nat) (name : Option String)
    (h : inst.opcode = .functionEnd) :
    (units.opened = none ∧ ∃ e, units.place line name inst = .error e) ∨
      ∃ f, units.opened = some f ∧
        ∃ next, units.place line name inst = .ok next ∧ next.due = [] := by
  cases hopened : units.opened with
  | none => exact Or.inl ⟨rfl, _, by rw [place, h, hopened]⟩
  | some f => exact Or.inr ⟨f, rfl, _, by rw [place, h, hopened], rfl⟩

/-- Any other instruction goes outside the functions where none is open. -/
theorem place_of_not_opened (hfunction : inst.opcode ≠ .function)
    (hend : inst.opcode ≠ .functionEnd) (h : units.opened = none) :
    units.place line name inst = .ok { units with outside := inst :: units.outside } := by
  unfold place
  rw [h]
  split
  case h_6 => rfl
  all_goals contradiction

/-- Any other instruction goes into the function that is open. -/
theorem place_of_opened (hfunction : inst.opcode ≠ .function) (hend : inst.opcode ≠ .functionEnd)
    {f : OpenFunction} (h : units.opened = some f) :
    units.place line name inst =
      .ok { units with opened := some { f with instructions := inst :: f.instructions } } := by
  unfold place
  rw [h]
  split
  case h_5 heq _ _ =>
    cases heq
    rfl
  all_goals contradiction

/-- Any other instruction can be placed, and opens and closes nothing. -/
theorem place_of_ne (units : UnitBuilder) (line : Nat) (name : Option String)
    (hfunction : inst.opcode ≠ .function) (hend : inst.opcode ≠ .functionEnd) :
    ∃ next, units.place line name inst = .ok next ∧ next.due = units.due := by
  cases hopened : units.opened with
  | none => exact ⟨_, place_of_not_opened hfunction hend hopened, rfl⟩
  | some f => exact ⟨_, place_of_opened hfunction hend hopened, (due_of_opened hopened).symm⟩

/-- Instructions can be placed up to the end of a function where the functions among them, behind
the end that is due, alternate with their ends. -/
theorem exists_placeAll_iff (units : UnitBuilder) (placements : List Placement) :
    (∃ placed, units.placeAll placements = .ok placed ∧ placed.opened = none) ↔
      ∃ n, functionBounds (placements.map (·.instruction.opcode)) =
        units.due ++ functionPairs n := by
  induction placements generalizing units with
  | nil =>
      have hnil : (∃ placed, units.placeAll [] = .ok placed ∧ placed.opened = none) ↔
          units.opened = none := by simp [placeAll]
      rw [hnil]
      cases hopened : units.opened with
      | none =>
          rw [due_of_not_opened hopened]
          exact iff_of_true rfl ⟨0, rfl⟩
      | some f =>
          rw [due_of_opened hopened]
          exact iff_of_false nofun nofun
  | cons p rest ih =>
      rw [placeAll, List.map_cons]
      by_cases hfunction : p.instruction.opcode = .function
      · rw [hfunction]
        show _ ↔ ∃ n, .function :: functionBounds _ = _
        rcases units.place_function p.line p.name hfunction with
          ⟨f, hopened, e, hplace⟩ | ⟨hopened, next, hplace, hdue⟩
        · rw [hplace, due_of_opened hopened]
          exact iff_of_false nofun nofun
        · rw [hplace, due_of_not_opened hopened]
          simp only [List.nil_append]
          rw [exists_function_cons_eq_iff, ih next, hdue]
          rfl
      · by_cases hend : p.instruction.opcode = .functionEnd
        · rw [hend]
          show _ ↔ ∃ n, .functionEnd :: functionBounds _ = _
          rcases units.place_functionEnd p.line p.name hend with
            ⟨hopened, e, hplace⟩ | ⟨f, hopened, next, hplace, hdue⟩
          · rw [hplace, due_of_not_opened hopened]
            exact iff_of_false nofun fun ⟨n, h⟩ => functionEnd_cons_ne _ n h
          · rw [hplace, due_of_opened hopened]
            simp only [List.cons_append, List.nil_append, List.cons.injEq, true_and]
            rw [ih next, hdue]
            rfl
        · obtain ⟨next, hplace, hdue⟩ :=
            units.place_of_ne p.line p.name hfunction hend
          have hbounds : functionBounds (p.instruction.opcode :: rest.map (·.instruction.opcode)) =
              functionBounds (rest.map (·.instruction.opcode)) :=
            List.filter_cons_of_neg (by simp [hfunction, hend])
          rw [hbounds, hplace, ← hdue]
          exact ih next

/-- The units are finished where no function is open. -/
theorem exists_finish_iff : (∃ finished, units.finish = .ok finished) ↔ units.opened = none := by
  unfold finish
  cases units.opened <;> simp

end UnitBuilder

/-! ## Lines and names -/

/-- Both outcomes are errors, or both are results, and these are related. -/
inductive SameKind {ε α β : Type} (R : α → β → Prop) : Except ε α → Except ε β → Prop where
  | error (e e' : ε) : SameKind R (.error e) (.error e')
  | ok {a : α} {b : β} (h : R a b) : SameKind R (.ok a) (.ok b)

theorem SameKind.cases {ε α β : Type} {R : α → β → Prop} {x : Except ε α} {y : Except ε β}
    (h : SameKind R x y) : (∃ e e', x = .error e ∧ y = .error e') ∨
      ∃ a b, x = .ok a ∧ y = .ok b ∧ R a b := by
  cases h with
  | error e e' => exact Or.inl ⟨e, e', rfl, rfl⟩
  | ok h => exact Or.inr ⟨_, _, rfl, rfl, h⟩

/-- Going on from related results leads to outcomes of the same kind. -/
theorem SameKind.bind {ε α β γ δ : Type} {R : α → β → Prop} {S : γ → δ → Prop} {x : Except ε α}
    {y : Except ε β} {g : α → Except ε γ} {g' : β → Except ε δ} (h : SameKind R x y)
    (hg : ∀ a b, R a b → SameKind S (g a) (g' b)) : SameKind S (x.bind g) (y.bind g') := by
  cases h with
  | error e e' => exact .error e e'
  | ok h => exact hg _ _ h

theorem SameKind.map {ε α β γ δ : Type} {R : α → β → Prop} {S : γ → δ → Prop} {x : Except ε α}
    {y : Except ε β} {g : α → γ} {g' : β → δ} (h : SameKind R x y)
    (hg : ∀ a b, R a b → S (g a) (g' b)) : SameKind S (x.map g) (y.map g') := by
  cases h with
  | error e e' => exact .error e e'
  | ok h => exact .ok (hg _ _ h)

namespace UnitBuilder

/-- Units so far that differ in nothing but spans, lines and names. -/
structure Alike (units others : UnitBuilder) : Prop where
  outside : units.outside.map Instruction.withoutSpan = others.outside.map Instruction.withoutSpan
  functions : units.functions.map CodeUnit.body = others.functions.map CodeUnit.body
  opened : (units.opened.map fun f => f.instructions.map Instruction.withoutSpan) =
    others.opened.map fun f => f.instructions.map Instruction.withoutSpan

variable {units others : UnitBuilder} {inst other : Instruction}

/-- A function is open in both or in none of them. -/
theorem Alike.opened_cases (h : units.Alike others) :
    (units.opened = none ∧ others.opened = none) ∨
      ∃ g g', units.opened = some g ∧ others.opened = some g' ∧
        g.instructions.map Instruction.withoutSpan =
          g'.instructions.map Instruction.withoutSpan := by
  have hopened := h.opened
  cases hunits : units.opened with
  | none =>
      rw [hunits, Option.map_none, eq_comm, Option.map_eq_none_iff] at hopened
      exact Or.inl ⟨rfl, hopened⟩
  | some g =>
      rw [hunits, Option.map_some, eq_comm, Option.map_eq_some_iff] at hopened
      obtain ⟨g', hothers, hinstructions⟩ := hopened
      exact Or.inr ⟨g, g', rfl, hothers, hinstructions.symm⟩

/-- Placing instructions that differ in nothing but their spans does not look at lines and names. -/
theorem Alike.place (h : units.Alike others) (hinst : inst.withoutSpan = other.withoutSpan)
    (line line' : Nat) (name name' : Option String) :
    SameKind Alike (units.place line name inst) (others.place line' name' other) := by
  have hopcode : inst.opcode = other.opcode := (congrArg Instruction.opcode hinst :)
  rcases h.opened_cases with ⟨hunits, hothers⟩ | ⟨g, g', hunits, hothers, hinstructions⟩
  · by_cases hfunction : inst.opcode = .function
    · rw [UnitBuilder.place, UnitBuilder.place, ← hopcode, hfunction, hunits, hothers]
      exact .ok ⟨h.outside, h.functions, congrArg (fun inst => some [inst]) hinst⟩
    · by_cases hend : inst.opcode = .functionEnd
      · rw [UnitBuilder.place, UnitBuilder.place, ← hopcode, hend, hunits, hothers]
        exact .error _ _
      · rw [place_of_not_opened hfunction hend hunits,
          place_of_not_opened (hopcode ▸ hfunction) (hopcode ▸ hend) hothers]
        exact .ok ⟨congrArg₂ List.cons hinst h.outside, h.functions, h.opened⟩
  · have hadd : (inst :: g.instructions).map Instruction.withoutSpan =
        (other :: g'.instructions).map Instruction.withoutSpan :=
      congrArg₂ List.cons hinst hinstructions
    by_cases hfunction : inst.opcode = .function
    · rw [UnitBuilder.place, UnitBuilder.place, ← hopcode, hfunction, hunits, hothers]
      exact .error _ _
    · by_cases hend : inst.opcode = .functionEnd
      · rw [UnitBuilder.place, UnitBuilder.place, ← hopcode, hend, hunits, hothers]
        refine .ok ⟨h.outside, congrArg₂ List.cons ?_ h.functions, rfl⟩
        show (inst :: g.instructions).reverse.map _ = (other :: g'.instructions).reverse.map _
        rw [List.map_reverse, List.map_reverse, hadd]
      · rw [place_of_opened hfunction hend hunits,
          place_of_opened (hopcode ▸ hfunction) (hopcode ▸ hend) hothers]
        exact .ok ⟨h.outside, h.functions, congrArg some hadd⟩

/-- Placing several such instructions does not look at lines and names. -/
theorem Alike.placeAll (h : units.Alike others) {placements others' : List Placement}
    (hinsts : placements.map (·.instruction.withoutSpan) =
      others'.map (·.instruction.withoutSpan)) :
    SameKind Alike (units.placeAll placements) (others.placeAll others') := by
  induction placements generalizing units others others' with
  | nil =>
      rw [List.map_nil, eq_comm, List.map_eq_nil_iff] at hinsts
      rw [hinsts]
      exact .ok h
  | cons p rest ih =>
      rw [List.map_cons, eq_comm, List.map_eq_cons_iff] at hinsts
      obtain ⟨q, rest', rfl, hinst, hrest⟩ := hinsts
      have hplace := h.place hinst.symm p.line q.line p.name q.name
      rw [UnitBuilder.placeAll, UnitBuilder.placeAll]
      generalize units.place p.line p.name p.instruction = placed at hplace ⊢
      generalize others.place q.line q.name q.instruction = placed' at hplace ⊢
      cases hplace with
      | error e e' => exact .error e e'
      | ok hnext => exact ih hnext hrest.symm

/-- Finishing units that differ in nothing but spans, lines and names. -/
theorem Alike.finish (h : units.Alike others) :
    SameKind (fun finished finished' => finished.map CodeUnit.body = finished'.map CodeUnit.body)
      units.finish others.finish := by
  rw [UnitBuilder.finish, UnitBuilder.finish]
  rcases h.opened_cases with ⟨hunits, hothers⟩ | ⟨g, g', hunits, hothers, -⟩
  · rw [hunits, hothers]
    refine .ok ?_
    rw [List.map_cons, List.map_cons, List.map_reverse, List.map_reverse, h.functions]
    refine congrArg (· :: _) ?_
    show units.outside.reverse.map _ = others.outside.reverse.map _
    rw [List.map_reverse, List.map_reverse, h.outside]
  · rw [hunits, hothers]
    exact .error _ _

end UnitBuilder

end SpirvLegality.Listing
