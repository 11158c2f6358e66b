import Mathlib.Logic.Equiv.Basic
import SpirvLegality.Proofs.Blindness
import SpirvLegality.Proofs.Reading

/-!
# Names and layout do not matter

A listing is read as the sentences on its lines, and a sentence under other names is the same
instruction, because names are numbered in the order of their first appearance
(`Sentence.instruction_rename`). Placing looks at neither names nor lines except for the names of
units (`UnitBuilder.Alike.place`). So two texts that become equal after an injective renaming, up to
blank lines, are read as modules that differ in nothing but spans and names, and these resolve alike
(`parse_renamed`).
-/

namespace SpirvLegality.Listing

variable {f : String → String}

/-! ## Sentences under other names -/

/-- A token under another name, if it is one. -/
def TokenKind.rename (f : String → String) : TokenKind → TokenKind
  | .id name => .id (f name)
  | kind => kind

theorem TokenKind.rename_eq_newline_iff (kind : TokenKind) :
    kind.rename f = .newline ↔ kind = .newline := by
  cases kind <;> simp [rename]

/-- An argument under another name, if it is one. -/
def Argument.rename (f : String → String) : Argument → Argument
  | .id name => .id (f name)
  | arg => arg

theorem Argument.kind_rename (arg : Argument) : (arg.rename f).kind = arg.kind.rename f := by
  cases arg <;> rfl

theorem Argument.names_rename (arg : Argument) : (arg.rename f).names = arg.names.map f := by
  cases arg <;> rfl

/-- A renamed token is an argument only if the token itself is. -/
theorem Argument.exists_of_rename {arg : Argument} {kind : TokenKind}
    (h : kind.rename f = arg.kind) : ∃ old : Argument, kind = old.kind ∧ old.rename f = arg := by
  cases kind with
  | id name =>
      cases arg <;> cases h
      exact ⟨.id name, rfl, rfl⟩
  | integer value =>
      cases arg <;> cases h
      exact ⟨.integer value, rfl, rfl⟩
  | string text =>
      cases arg <;> cases h
      exact ⟨.string text, rfl, rfl⟩
  | stop | newline | equals | word | malformed => cases arg <;> cases h

namespace Sentence

/-- A sentence under other names. -/
def rename (f : String → String) (s : Sentence) : Sentence :=
  ⟨s.result.map f, s.opcode, s.arguments.map (Argument.rename f)⟩

theorem names_rename (s : Sentence) : (s.rename f).names = s.names.map f := by
  have hresult : (s.result.map f).toList = s.result.toList.map f := by cases s.result <;> rfl
  rw [names, names, List.map_append, ← hresult, List.map_flatMap]
  show _ ++ (s.arguments.map (Argument.rename f)).flatMap Argument.names = _
  rw [List.flatMap_map]
  simp only [Argument.names_rename]
  rfl

/-- The tokens of a sentence under other names. -/
theorem SpelledBy.rename {s : Sentence} {row : List TokenKind} (h : s.SpelledBy row) :
    (s.rename f).SpelledBy (row.map (TokenKind.rename f)) := by
  obtain ⟨word, hword, rfl⟩ := h
  refine ⟨word, hword, ?_⟩
  have hdefinition : (definition s.result).map (TokenKind.rename f) =
      definition (s.result.map f) := by cases s.result <;> rfl
  have harguments : (s.arguments.map Argument.kind).map (TokenKind.rename f) =
      (s.arguments.map (Argument.rename f)).map Argument.kind := by
    rw [List.map_map, List.map_map]
    exact List.map_congr_left fun arg _ => arg.kind_rename.symm
  rw [List.map_append, hdefinition, List.map_cons, harguments]
  rfl

/-- Renamed tokens that define a name do so before the renaming. -/
theorem exists_definition_of_rename {result : Option String} {kinds : List TokenKind}
    (h : kinds.map (TokenKind.rename f) = definition result) :
    ∃ old, kinds = definition old ∧ old.map f = result := by
  cases result with
  | none => exact ⟨none, List.map_eq_nil_iff.1 h, rfl⟩
  | some name =>
      obtain ⟨first, rest, rfl, hfirst, hrest⟩ := List.map_eq_cons_iff.1 h
      obtain ⟨second, rfl, hsecond⟩ := List.map_eq_singleton_iff.1 hrest
      cases first <;> cases hfirst
      cases second <;> cases hsecond
      exact ⟨some _, rfl, rfl⟩

/-- Renamed tokens that are arguments are so before the renaming. -/
theorem exists_arguments_of_rename {arguments : List Argument} {kinds : List TokenKind}
    (h : kinds.map (TokenKind.rename f) = arguments.map Argument.kind) :
    ∃ old : List Argument, kinds = old.map Argument.kind ∧
      old.map (Argument.rename f) = arguments := by
  induction kinds generalizing arguments with
  | nil =>
      rw [List.map_nil, eq_comm, List.map_eq_nil_iff] at h
      exact ⟨[], rfl, h.symm⟩
  | cons kind rest ih =>
      rw [List.map_cons, eq_comm, List.map_eq_cons_iff] at h
      obtain ⟨arg, others, rfl, hkind, hrest⟩ := h
      obtain ⟨old, rfl, hold⟩ := Argument.exists_of_rename hkind.symm
      obtain ⟨olds, rfl, holds⟩ := ih hrest.symm
      exact ⟨old :: olds, rfl, congrArg₂ List.cons hold holds⟩

/-- Renamed tokens that spell a sentence do so before the renaming. -/
theorem exists_of_spelledBy_rename {t : Sentence} {row : List TokenKind}
    (h : t.SpelledBy (row.map (TokenKind.rename f))) :
    ∃ s : Sentence, s.SpelledBy row ∧ s.rename f = t := by
  obtain ⟨result, opcode, arguments⟩ := t
  obtain ⟨word, hword, hrow⟩ := h
  obtain ⟨front, back, rfl, hfront, hback⟩ := List.map_eq_append_iff.1 hrow
  obtain ⟨kind, rest, rfl, hkind, hrest⟩ := List.map_eq_cons_iff.1 hback
  obtain ⟨result, rfl, rfl⟩ := exists_definition_of_rename hfront
  obtain ⟨arguments, rfl, rfl⟩ := exists_arguments_of_rename hrest
  have hkind : kind = .word word := by
    cases kind <;> cases hkind
    rfl
  exact ⟨⟨result, opcode, arguments⟩, ⟨word, hword, by rw [hkind]⟩, rfl⟩

/-- Rows that spell sentences spell them under other names too. -/
theorem forall₂_spelledBy_rename {sentences : List Sentence} {rows : List (List TokenKind)}
    (h : List.Forall₂ SpelledBy sentences rows) :
    List.Forall₂ SpelledBy (sentences.map (rename f))
      (rows.map (List.map (TokenKind.rename f))) := by
  rw [List.forall₂_map_left_iff, List.forall₂_map_right_iff]
  exact h.imp fun _ _ => SpelledBy.rename

/-- Renamed rows that spell sentences do so before the renaming. -/
theorem exists_of_forall₂_spelledBy_rename {sentences : List Sentence}
    {rows : List (List TokenKind)}
    (h : List.Forall₂ SpelledBy sentences (rows.map (List.map (TokenKind.rename f)))) :
    ∃ olds, List.Forall₂ SpelledBy olds rows ∧ olds.map (rename f) = sentences := by
  induction rows generalizing sentences with
  | nil =>
      cases h
      exact ⟨[], .nil, rfl⟩
  | cons row rest ih =>
      obtain ⟨s, others, hs, hothers, rfl⟩ := List.forall₂_cons_right_iff.1 h
      obtain ⟨old, hold, rfl⟩ := exists_of_spelledBy_rename hs
      obtain ⟨olds, holds, rfl⟩ := ih hothers
      exact ⟨old :: olds, .cons hold holds, rfl⟩

end Sentence

/-! ## Numbers under other names -/

section Numbers

variable {scope : Set String} {names : List String}

/-- Renaming the entries of a list without repetitions. -/
theorem appendNew_map (hf : scope.InjOn f) (hnames : ∀ name ∈ names, name ∈ scope) {name : String}
    (hname : name ∈ scope) : appendNew (names.map f) (f name) = (appendNew names name).map f := by
  by_cases h : name ∈ names
  · rw [appendNew_of_mem h, appendNew_of_mem (List.mem_map_of_mem h)]
  · have hmap : f name ∉ names.map f := by
      intro hmem
      obtain ⟨other, hother, heq⟩ := List.mem_map.1 hmem
      exact h (hf (hnames other hother) hname heq ▸ hother)
    rw [appendNew_of_not_mem h, appendNew_of_not_mem hmap, List.map_append]
    rfl

theorem foldl_appendNew_map (hf : scope.InjOn f) {news : List String}
    (hnames : ∀ name ∈ names, name ∈ scope) (hnews : ∀ name ∈ news, name ∈ scope) :
    (news.map f).foldl appendNew (names.map f) = (news.foldl appendNew names).map f := by
  induction news generalizing names with
  | nil => rfl
  | cons name rest ih =>
      rw [List.forall_mem_cons] at hnews
      rw [List.map_cons, List.foldl_cons, List.foldl_cons, appendNew_map hf hnames hnews.1]
      refine ih (fun other hother => ?_) hnews.2
      rcases mem_appendNew.1 hother with hother | rfl
      · exact hnames other hother
      · exact hnews.1

/-- A name has the same value under another name, because it has the same place. -/
theorem valueIn_map (hf : scope.InjOn f) (hnames : ∀ name ∈ names, name ∈ scope) {name : String}
    (hname : name ∈ scope) : valueIn (names.map f) (f name) = valueIn names name := by
  have hplace : (names.map f).idxOf (f name) = names.idxOf name := by
    induction names with
    | nil => rfl
    | cons first rest ih =>
        rw [List.forall_mem_cons] at hnames
        have hfirst : (f first == f name) = (first == name) := by
          rw [Bool.eq_iff_iff, beq_iff_eq, beq_iff_eq, hf.eq_iff hnames.1 hname]
        rw [List.map_cons, List.idxOf_cons, List.idxOf_cons, hfirst, ih hnames.2]
  rw [valueIn, hplace, valueIn]

/-- The names of some sentences are listed in the order of their first appearance. -/
theorem mem_of_mem_nameOrder {sentences : List Sentence}
    (h : ∀ s ∈ sentences, ∀ name ∈ s.names, name ∈ scope) :
    ∀ name ∈ nameOrder [] sentences, name ∈ scope := by
  intro name hname
  rcases mem_foldl_appendNew.1 hname with hname | hname
  · cases hname
  · obtain ⟨s, hs, hname⟩ := List.mem_flatMap.1 hname
    exact h s hs name hname

/-- The names of some sentences under other names, in the order of their first appearance. -/
theorem nameOrder_rename (hf : scope.InjOn f) {sentences : List Sentence}
    (h : ∀ s ∈ sentences, ∀ name ∈ s.names, name ∈ scope) :
    nameOrder [] (sentences.map (Sentence.rename f)) = (nameOrder [] sentences).map f := by
  have hnames : (sentences.map (Sentence.rename f)).flatMap Sentence.names =
      (sentences.flatMap Sentence.names).map f := by
    rw [List.flatMap_map, List.map_flatMap]
    simp only [Sentence.names_rename]
  have hnil : ∀ name ∈ ([] : List String), name ∈ scope := nofun
  rw [nameOrder, nameOrder, hnames]
  refine foldl_appendNew_map hf hnil fun name hname => ?_
  obtain ⟨s, hs, hname⟩ := List.mem_flatMap.1 hname
  exact h s hs name hname

/-- A sentence under other names is the same instruction. -/
theorem Sentence.instruction_rename (hf : scope.InjOn f) (hnames : ∀ name ∈ names, name ∈ scope)
    {s : Sentence} (hs : ∀ name ∈ s.names, name ∈ scope) (span : Span) :
    (s.rename f).instruction (names.map f) span = s.instruction names span := by
  have hvalue : (s.rename f).value? (names.map f) = s.value? names := by
    rw [Sentence.value?, rename, Option.map_map]
    refine Option.map_congr fun name hname => valueIn_map hf hnames (hs name ?_)
    exact List.mem_append_left _ (Option.mem_toList.2 hname)
  have harguments : (s.arguments.map (Argument.rename f)).map (Argument.operand (names.map f)) =
      s.arguments.map (Argument.operand names) := by
    rw [List.map_map]
    refine List.map_congr_left fun arg harg => ?_
    cases arg with
    | id name =>
        refine congrArg Operand.id (valueIn_map hf hnames (hs name ?_))
        exact List.mem_append_right _ (List.mem_flatMap.2 ⟨_, harg, List.mem_cons_self⟩)
    | integer | string => rfl
  rw [Sentence.instruction, Sentence.instruction, hvalue, ← harguments]
  rfl

/-- Sentences under other names define the same values. -/
theorem definedValues_rename (hf : scope.InjOn f) {sentences : List Sentence}
    (h : ∀ s ∈ sentences, ∀ name ∈ s.names, name ∈ scope) :
    definedValues (nameOrder [] (sentences.map (Sentence.rename f)))
        (sentences.map (Sentence.rename f)) =
      definedValues (nameOrder [] sentences) sentences := by
  have hdefined : definedNames (sentences.map (Sentence.rename f)) =
      (definedNames sentences).map f := by
    rw [definedNames, definedNames, List.filterMap_map, List.map_filterMap]
    rfl
  rw [nameOrder_rename hf h, definedValues, hdefined, List.map_map, definedValues]
  refine List.map_congr_left fun name hname => valueIn_map hf (mem_of_mem_nameOrder h) ?_
  obtain ⟨s, hs, hname⟩ := exists_names_of_mem_definedNames hname
  exact h s hs name hname

end Numbers

/-! ## Reading under other names -/

/-- The rows of a text under other names, up to blank lines. -/
theorem rows_of_renaming {text text' : String}
    (h : withoutLayout ((kinds text).map (TokenKind.rename f)) = withoutLayout (kinds text')) :
    rows (kinds text') = (rows (kinds text)).map (List.map (TokenKind.rename f)) := by
  rw [← rows_withoutLayout, ← h, rows_withoutLayout, rows_map TokenKind.rename_eq_newline_iff]

/-- A name in a sentence is a token of its line. -/
theorem Sentence.SpelledBy.id_mem {s : Sentence} {row : List TokenKind} (h : s.SpelledBy row)
    {name : String} (hname : name ∈ s.names) : .id name ∈ row := by
  obtain ⟨word, -, rfl⟩ := h
  rcases List.mem_append.1 hname with hresult | hargument
  · rw [Option.mem_toList] at hresult
    rw [hresult]
    exact List.mem_cons_self
  · obtain ⟨arg, harg, hname⟩ := List.mem_flatMap.1 hargument
    refine List.mem_append_right _ (List.mem_cons_of_mem _ (List.mem_map.2 ⟨arg, harg, ?_⟩))
    cases arg with
    | id other => rw [List.mem_singleton.1 hname, Argument.kind]
    | integer | string => cases hname

/-- The names in the sentences of some rows are among the tokens. -/
theorem id_mem_of_mem_names {kinds : List TokenKind} {sentences : List Sentence}
    (hspelled : List.Forall₂ Sentence.SpelledBy sentences (rows kinds)) :
    ∀ s ∈ sentences, ∀ name ∈ s.names, .id name ∈ kinds := by
  intro s hs name hname
  obtain ⟨i, hi, rfl⟩ := List.getElem_of_mem hs
  have hi' : i < (rows kinds).length := hspelled.length_eq ▸ hi
  have hmem := (hspelled.get hi hi').id_mem hname
  exact (exists_mem_rows_iff.1 ⟨_, List.getElem_mem hi', hmem⟩).1

/-- Sentences under other names are placed as the same instructions. -/
theorem map_withoutSpan_placements {text text' : String} {sentences : List Sentence}
    (hf : Set.InjOn f {name | .id name ∈ kinds text})
    (hspelled : List.Forall₂ Sentence.SpelledBy sentences (rows (kinds text)))
    (hspelled' : List.Forall₂ Sentence.SpelledBy (sentences.map (Sentence.rename f))
      (rows (kinds text'))) :
    (placements text sentences).map (·.instruction.withoutSpan) =
      (placements text' (sentences.map (Sentence.rename f))).map (·.instruction.withoutSpan) := by
  have hspan (names : List String) (line : Line) (s : Sentence) :
      (placement names line s).instruction.withoutSpan = s.instruction names {} := by
    rw [placement, Sentence.instruction, Sentence.instruction]
    cases s.value? names <;> rfl
  have hscope := id_mem_of_mem_names hspelled
  rw [map_placements hspelled _ _ (hspan _), map_placements hspelled' _ _ (hspan _), List.map_map,
    nameOrder_rename hf hscope]
  exact List.map_congr_left fun s hs =>
    (Sentence.instruction_rename hf (mem_of_mem_nameOrder hscope) (hscope s hs) {}).symm

/-- A text that spells sentences and its renaming are read alike. -/
theorem parse_alike_of_sentences {text text' : String}
    (hf : Set.InjOn f {name | .id name ∈ kinds text})
    (hrows : rows (kinds text') = (rows (kinds text)).map (List.map (TokenKind.rename f)))
    {sentences : List Sentence}
    (hspelled : List.Forall₂ Sentence.SpelledBy sentences (rows (kinds text)))
    (hdistinct : (definedValues (nameOrder [] sentences) sentences).Nodup) :
    SameKind (fun m m' => m.bodies = m'.bodies ∧ m'.names = m.names.map f)
      (Module.parse text) (Module.parse text') := by
  have hscope := id_mem_of_mem_names hspelled
  have hspelled' := Sentence.forall₂_spelledBy_rename (f := f) hspelled
  rw [← hrows] at hspelled'
  have hdistinct' := (definedValues_rename hf hscope).symm ▸ hdistinct
  rw [parse_eq hspelled hdistinct, parse_eq hspelled' hdistinct']
  have hplaced : SameKind UnitBuilder.Alike (UnitBuilder.placeAll {} (placements text sentences))
      (UnitBuilder.placeAll {} (placements text' (sentences.map (Sentence.rename f)))) :=
    UnitBuilder.Alike.placeAll ⟨rfl, rfl, rfl⟩
      (map_withoutSpan_placements hf hspelled hspelled')
  refine (hplaced.bind fun _ _ => UnitBuilder.Alike.finish).map fun _ _ hunits => ⟨hunits, ?_⟩
  exact nameOrder_rename hf hscope

/-- A text and its renaming are read alike. -/
theorem parse_alike {text text' : String} (hf : Set.InjOn f {name | .id name ∈ kinds text})
    (h : withoutLayout ((kinds text).map (TokenKind.rename f)) = withoutLayout (kinds text')) :
    SameKind (fun m m' => m.bodies = m'.bodies ∧ m'.names = m.names.map f)
      (Module.parse text) (Module.parse text') := by
  have hrows := rows_of_renaming h
  by_cases hsentences : ∃ sentences, List.Forall₂ Sentence.SpelledBy sentences
      (rows (kinds text)) ∧ (definedValues (nameOrder [] sentences) sentences).Nodup
  · obtain ⟨sentences, hspelled, hdistinct⟩ := hsentences
    exact parse_alike_of_sentences hf hrows hspelled hdistinct
  · -- Neither text spells sentences that define each value once.
    cases hm : Module.parse text with
    | ok m => exact absurd (exists_sentences_of_parse hm) hsentences
    | error e =>
        cases hm' : Module.parse text' with
        | error e' => exact .error e e'
        | ok m' =>
            obtain ⟨sentences', hspelled', hdistinct'⟩ := exists_sentences_of_parse hm'
            rw [hrows] at hspelled'
            obtain ⟨sentences, hspelled, rfl⟩ :=
              Sentence.exists_of_forall₂_spelledBy_rename hspelled'
            rw [definedValues_rename hf (id_mem_of_mem_names hspelled)] at hdistinct'
            exact absurd ⟨sentences, hspelled, hdistinct'⟩ hsentences

/-- Of two texts whose tokens become equal when different names in the first one are replaced by
different names, up to runs of line feeds and line feeds at the ends, either none is a listing, or
both are. Then their modules have the same units with the same instructions, apart from spans and
from the names of values and functions, and in every environment both have the same declarations, or
both fail at the same instruction of the same unit and for the same cause. -/
theorem parse_renamed {text text' : String} (hf : Set.InjOn f {name | .id name ∈ kinds text})
    (h : withoutLayout ((kinds text).map (TokenKind.rename f)) = withoutLayout (kinds text')) :
    (∃ e e', Module.parse text = .error e ∧ Module.parse text' = .error e') ∨
      ∃ m m', Module.parse text = .ok m ∧ Module.parse text' = .ok m' ∧
        m.bodies = m'.bodies ∧ m'.names = m.names.map f ∧
          m.units.head?.map (·.name) = m'.units.head?.map (·.name) ∧
            ∀ env, (∃ d, m.resolve env = .ok d ∧ m'.resolve env = .ok d) ∨
              ∃ u e name, m.resolve env = .error e ∧
                m'.resolve env = .error { e with unit := name } ∧
                  m.FailsAt env u e ∧ m'.FailsAt env u { e with unit := name } := by
  rcases (parse_alike hf h).cases with herror | ⟨m, m', hm, hm', hbodies, hnames⟩
  · exact Or.inl herror
  · have hfirst := (head?_units_of_parse hm).trans (head?_units_of_parse hm').symm
    refine Or.inr ⟨m, m', hm, hm', hbodies, hnames, hfirst, fun env => ?_⟩
    rcases Module.resolve_alike hbodies env with hok | ⟨u, e, name, hfails, hfails'⟩
    · exact Or.inl hok
    · exact Or.inr ⟨u, e, name, Module.resolve_eq_error_iff.2 ⟨u, hfails⟩,
        Module.resolve_eq_error_iff.2 ⟨u, hfails'⟩, hfails, hfails'⟩

/-- A type and a function. -/
def typedFunction : String :=
  "%a = OpTypeFloat 64 ; eight bytes\n\n%b = OpFunction %a\nOpFunctionEnd"

/-- The same with each name in the place of the other one. -/
def typedFunctionSwapped : String :=
  "\n%b = OpTypeFloat 0x40\n// the only function\n%a = OpFunction %b\n\n\nOpFunctionEnd\n"

theorem exists_parse_typedFunction : ∃ m, Module.parse typedFunction = .ok m := by
  have hrows : rows (kinds typedFunction) =
      [[.id "a", .equals, .word "OpTypeFloat", .integer 64],
        [.id "b", .equals, .word "OpFunction", .id "a"], [.word "OpFunctionEnd"]] := by
    decide +kernel
  have hspelled : List.Forall₂ Sentence.SpelledBy
      [⟨some "a", .typeFloat, [.integer 64]⟩, ⟨some "b", .function, [.id "a"]⟩,
        ⟨none, .functionEnd, []⟩] (rows (kinds typedFunction)) := by
    rw [hrows]
    exact .cons ⟨_, Or.inr rfl, rfl⟩ (.cons ⟨_, Or.inr rfl, rfl⟩ (.cons ⟨_, Or.inr rfl, rfl⟩ .nil))
  exact (exists_parse_iff hspelled (by decide)).2 ⟨1, by decide⟩

/-- Two names change places, and a module is read from both texts. -/
theorem parse_renamed_typedFunction :
    Set.InjOn (Equiv.swap "a" "b") {name | .id name ∈ kinds typedFunction} ∧
      withoutLayout ((kinds typedFunction).map (TokenKind.rename (Equiv.swap "a" "b"))) =
        withoutLayout (kinds typedFunctionSwapped) ∧
      ∃ m m', Module.parse typedFunction = .ok m ∧ Module.parse typedFunctionSwapped = .ok m' ∧
        m.bodies = m'.bodies ∧ m'.names = m.names.map (Equiv.swap "a" "b") ∧
          m.units.head?.map (·.name) = m'.units.head?.map (·.name) ∧
            ∀ env, (∃ d, m.resolve env = .ok d ∧ m'.resolve env = .ok d) ∨
              ∃ u e name, m.resolve env = .error e ∧
                m'.resolve env = .error { e with unit := name } ∧
                  m.FailsAt env u e ∧ m'.FailsAt env u { e with unit := name } := by
  have hinj : Set.InjOn (Equiv.swap "a" "b") {name | .id name ∈ kinds typedFunction} :=
    (Equiv.swap "a" "b").injective.injOn
  have hkinds : withoutLayout ((kinds typedFunction).map (TokenKind.rename (Equiv.swap "a" "b"))) =
      withoutLayout (kinds typedFunctionSwapped) := by decide +kernel
  refine ⟨hinj, hkinds, ?_⟩
  rcases parse_renamed hinj hkinds with ⟨e, -, herror, -⟩ | hread
  · obtain ⟨m, hm⟩ := exists_parse_typedFunction
    rw [herror] at hm
    cases hm
  · exact hread

end SpirvLegality.Listing
