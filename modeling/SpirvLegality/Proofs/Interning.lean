import SpirvLegality.Proofs.Partition

/-!
# Names and numbers

A module that is read lists the names among the tokens of its text, each once and in the order of
first appearance, and the number of a name is its place in this list, cut off to a word. So each
instruction has the numbers of the names in its line, and as long as there are no more names than
words it says what its line says when its numbers are read as names (`Module.Restores`). No two
instructions have the same result, because no value is defined twice (`Module.exists_interns`).
-/

namespace SpirvLegality

namespace Listing

/-- A result is operand 0. -/
theorem head?_operands_of_yields {names : List String} {lines : List Line}
    {source : List Instruction} (h : List.Forall₂ (Line.Yields names) lines source) :
    ∀ inst ∈ source, ∀ id ∈ inst.result, inst.operands.head? = some (.id id) := by
  induction h with
  | nil => exact List.forall_mem_nil _
  | cons hline _ ih =>
      refine List.forall_mem_cons.2 ⟨fun id hid => ?_, ih⟩
      obtain ⟨⟨result, opcode, arguments⟩, -, rfl⟩ := hline
      cases result with
      | none => cases hid
      | some name =>
          cases hid
          rfl

/-- The results of the instructions of sentences are the values that these define. -/
theorem filterMap_result_placements {text : String} {sentences : List Sentence}
    (hspelled : List.Forall₂ Sentence.SpelledBy sentences (rows (kinds text))) :
    ((placements text sentences).map (·.instruction)).filterMap (·.result) =
      definedValues (nameOrder [] sentences) sentences := by
  have hresult (line : Line) (s : Sentence) :
      (placement (nameOrder [] sentences) line s).instruction.result =
        s.value? (nameOrder [] sentences) := by
    obtain ⟨result, opcode, arguments⟩ := s
    cases result <;> rfl
  have hmap := map_placements hspelled (·.instruction.result)
    (Sentence.value? (nameOrder [] sentences)) hresult
  have hfilter := congrArg (List.filterMap id) hmap
  rw [List.filterMap_map, List.filterMap_map] at hfilter
  rw [List.filterMap_map, definedValues, definedNames, List.map_filterMap]
  exact hfilter

end Listing

open Listing

/-- The argument that an operand is, with its number read as a name. -/
def Module.argumentOf? (m : Module) : Operand → Option Argument
  | .id value => (m.nameOf? value).map .id
  | .imm word => some (.integer word)
  | .str text => some (.string text)

/-- An instruction says what a line says when its numbers are read as names: the name that it
defines, which is operand 0 as well, then its opcode and its arguments. -/
def Module.Restores (m : Module) (line : Line) (inst : Instruction) : Prop :=
  ∃ s : Sentence, s.SpelledBy line.kinds ∧ inst.opcode = s.opcode ∧
    inst.result.map m.nameOf? = s.result.map some ∧
    inst.operands.map m.argumentOf? = (s.result.toList.map Argument.id ++ s.arguments).map some

/-- An operand gives its argument back. -/
theorem Module.argumentOf?_operand {m : Module} (hfit : m.names.length ≤ 2 ^ 32) {arg : Argument}
    (h : arg.names ⊆ m.names) : m.argumentOf? (arg.operand m.names) = some arg := by
  cases arg with
  | id name =>
      exact congrArg (Option.map Argument.id) (nameIn?_valueIn hfit (h List.mem_cons_self))
  | integer | string => rfl

/-- The instruction of a sentence says the sentence. -/
theorem Module.restores_instruction {m : Module} (hfit : m.names.length ≤ 2 ^ 32) {line : Line}
    {s : Sentence} (hs : s.SpelledBy line.kinds) (hnames : s.names ⊆ m.names) :
    m.Restores line (s.instruction m.names line.span) := by
  have harguments : (s.arguments.map (Argument.operand m.names)).map m.argumentOf? =
      s.arguments.map some := by
    rw [List.map_map]
    refine List.map_congr_left fun arg harg => Module.argumentOf?_operand hfit ?_
    exact fun name hname => hnames (List.mem_append_right _ (List.mem_flatMap.2 ⟨arg, harg, hname⟩))
  refine ⟨s, hs, s.opcode_instruction line.span, ?_⟩
  obtain ⟨result, opcode, arguments⟩ := s
  cases result with
  | none => exact ⟨rfl, harguments⟩
  | some name =>
      have hname : m.nameOf? (valueIn m.names name) = some name :=
        nameIn?_valueIn hfit (hnames List.mem_cons_self)
      refine ⟨congrArg some hname, ?_⟩
      show m.argumentOf? (.id (valueIn m.names name)) :: _ = some (.id name) :: _
      rw [Module.argumentOf?, hname]
      exact congrArg (_ :: ·) harguments

/-- The numbers in a module stand for the names in a text: the names are listed in the order of
their first appearance, and each line yields the instruction in `source` that has the numbers of its
names. If there are no more names than words, the instruction gives the line back. A result is
operand 0, and no two instructions have the same one. -/
structure Module.Interns (m : Module) (text : String) (source : List Instruction) : Prop where
  names_eq : m.names = ((tokens text).filterMap (·.kind.name?)).eraseDups
  perm : m.instructions.Perm source
  yields : List.Forall₂ (Line.Yields m.names) (lines (tokens text)) source
  restores : m.names.length ≤ 2 ^ 32 → List.Forall₂ m.Restores (lines (tokens text)) source
  result_first : ∀ inst ∈ m.instructions, ∀ id ∈ inst.result, inst.operands.head? = some (.id id)
  results_distinct : (m.instructions.filterMap (·.result)).Nodup

/-- In a module that is read numbers stand for the names in its text. -/
theorem Module.exists_interns {text : String} {m : Module} (h : Module.parse text = .ok m) :
    ∃ source, m.Interns text source := by
  obtain ⟨sentences, outside, functions, hspelled, hdistinct, hnames, hyields, hsegmented,
    hunits⟩ := Module.exists_segmented_of_parse h
  have heq := hnames.trans (nameOrder_eq_eraseDups hspelled)
  have hperm := Module.perm_of_segmented hsegmented hunits
  refine ⟨_, heq, hperm, hyields, fun hfit => ?_, ?_, ?_⟩
  · have hsubset : ∀ line ∈ lines (tokens text),
        line.kinds.filterMap TokenKind.name? ⊆ m.names := by
      intro line hline name hname
      obtain ⟨kind, hkind, hname⟩ := List.mem_filterMap.1 hname
      have hrow : line.kinds ∈ rows (kinds text) :=
        map_kinds_lines text ▸ List.mem_map_of_mem hline
      rw [heq, filterMap_name?_tokens, List.mem_eraseDups]
      exact List.mem_filterMap.2 ⟨kind, List.mem_flatten.2 ⟨_, hrow, hkind⟩, hname⟩
    refine ((List.forall₂_and_left _ _).2 ⟨hsubset, hyields⟩).imp ?_
    rintro line inst ⟨hline, s, hs, rfl⟩
    exact Module.restores_instruction hfit hs (hs.filterMap_name? ▸ hline)
  · exact fun inst hinst => head?_operands_of_yields hyields inst (hperm.subset hinst)
  · rw [(hperm.filterMap _).nodup_iff, filterMap_result_placements hspelled, ← hnames]
    exact hdistinct

theorem Module.exists_interns_interleaved :
    ∃ m, Module.parse interleaved = .ok m ∧ m.names.length ≤ 2 ^ 32 ∧
      ∃ source, m.Interns interleaved source := by
  obtain ⟨m, hm⟩ := exists_parse_interleaved
  obtain ⟨source, hinterns⟩ := Module.exists_interns hm
  exact ⟨m, hm, hinterns.names_eq ▸ namesFit_interleaved, source, hinterns⟩

end SpirvLegality
