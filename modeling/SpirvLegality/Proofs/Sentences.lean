import Mathlib.Data.List.Nodup
import SpirvLegality.Proofs.Lines
import SpirvLegality.Proofs.Numbering
import SpirvLegality.Proofs.TableSearch

/-!
# What the lines of a listing say

A line says a `Sentence`: possibly the name that it defines, its opcode, and its arguments.
`Sentence.SpelledBy` is the grammar of a line. A line that spells a sentence is read as the
instruction of this sentence, unless it defines a name again (`readLine_eq`, `not_mem_of_readLine`),
and no other line can be read (`exists_spelledBy_of_readLine`).
-/

namespace SpirvLegality

/-! ## Opcodes by name -/

namespace Opcode

theorem nodup_bareNames : (values.map bareName).Nodup := by
  decide +kernel

/-- No name without the letters `Op` begins with them. -/
theorem stripOp_bareName (op : Opcode) : stripOp op.bareName = op.bareName := by
  have hstrip : ∀ op ∈ values, stripOp op.bareName = op.bareName := by decide +kernel
  exact hstrip op (mem_values op)

theorem stripOp_append (word : String) : stripOp ("Op" ++ word) = word := by
  simp [stripOp]

/-- A word without the letters `Op` in front is the word itself or what follows them. -/
theorem stripOp_cases (word : String) : word = stripOp word ∨ word = "Op" ++ stripOp word := by
  unfold stripOp
  split
  · next bare heq =>
      refine Or.inr (String.toList_inj.1 ?_)
      simp [heq]
  · exact Or.inl rfl

/-- A word names an opcode if it is the name of the opcode, with the letters `Op` or without. -/
theorem ofName?_eq_some_iff {word : String} {op : Opcode} :
    ofName? word = some op ↔ word = op.bareName ∨ word = op.mnemonic := by
  rw [ofName?, find?_eq_some_iff_of_nodup nodup_bareNames, and_iff_right (mem_values op)]
  constructor
  · intro h
    rw [mnemonic, h]
    exact stripOp_cases word
  · rintro (rfl | rfl)
    · exact (stripOp_bareName op).symm
    · exact (stripOp_append op.bareName).symm

end Opcode

namespace Listing

/-! ## Sentences -/

/-- An argument of an opcode, as it stands in a listing. -/
inductive Argument where
  | id (name : String)
  | integer (value : UInt32)
  | string (text : String)
deriving DecidableEq, Repr

namespace Argument

/-- The token of an argument. -/
def kind : Argument → TokenKind
  | .id name => .id name
  | .integer value => .integer value
  | .string text => .string text

/-- The names in an argument. -/
def names : Argument → List String
  | .id name => [name]
  | _ => []

/-- The operand that an argument is, where names have the values of a list. -/
def operand (names : List String) : Argument → Operand
  | .id name => .id (valueIn names name)
  | .integer value => .imm value
  | .string text => .str text

end Argument

/-- What a line of a listing says. -/
structure Sentence where
  result : Option String
  opcode : Opcode
  arguments : List Argument
deriving DecidableEq, Repr

namespace Sentence

/-- The tokens that define a name. -/
def definition : Option String → List TokenKind
  | some name => [.id name, .equals]
  | none => []

/-- The tokens of a line that says a sentence: possibly a name and an equals sign, then the opcode,
by its name with the letters `Op` or without, then the arguments. -/
def SpelledBy (s : Sentence) (row : List TokenKind) : Prop :=
  ∃ word, (word = s.opcode.bareName ∨ word = s.opcode.mnemonic) ∧
    row = definition s.result ++ .word word :: s.arguments.map Argument.kind

/-- The names in a sentence, in order. -/
def names (s : Sentence) : List String := s.result.toList ++ s.arguments.flatMap Argument.names

/-- The value that a sentence defines, where names have the values of a list. -/
def value? (names : List String) (s : Sentence) : Option ValueId := s.result.map (valueIn names)

/-- The name that this value stands for. -/
def valueName? (names : List String) (s : Sentence) : Option String :=
  (s.value? names).bind (nameIn? names)

/-- The instruction of a sentence, where names have the values of a list. -/
def instruction (names : List String) (span : Span) (s : Sentence) : Instruction :=
  .of s.opcode (s.value? names) (s.arguments.map (Argument.operand names)) span

end Sentence

/-! ## Reading one line -/

variable {table : NameTable} {names : List String} {defined : List ValueId}

/-- An operand keeps its value as further names appear. -/
theorem Argument.operand_of_isPrefix {arg : Argument} {longer : List String}
    (hnames : arg.names ⊆ names) (hlonger : names <+: longer) :
    arg.operand longer = arg.operand names := by
  cases arg with
  | id name =>
      exact congrArg Operand.id (valueIn_of_isPrefix (hnames List.mem_cons_self) hlonger)
  | integer | string => rfl

/-- The value that a sentence defines stays the same as further names appear. -/
theorem Sentence.value?_of_isPrefix {s : Sentence} {longer : List String} (hnames : s.names ⊆ names)
    (hlonger : names <+: longer) : s.value? longer = s.value? names := by
  refine Option.map_congr fun name hname => valueIn_of_isPrefix (hnames ?_) hlonger
  exact List.mem_append_left _ (Option.mem_toList.2 hname)

/-- The names of the arguments leave the value that a sentence defines as it is. -/
theorem Sentence.value?_foldl_names {s : Sentence} {name : String} (h : s.result = some name) :
    s.value? (s.names.foldl appendNew names) = some (valueIn (appendNew names name) name) := by
  obtain ⟨result, opcode, arguments⟩ := s
  cases h
  exact congrArg some
    (valueIn_of_isPrefix (mem_appendNew.2 (Or.inr rfl)) (prefix_foldl_appendNew _ _))

/-- Names that appear are listed from then on. -/
theorem subset_foldl_appendNew (entries news : List String) :
    news ⊆ news.foldl appendNew entries :=
  fun _ h => mem_foldl_appendNew.2 (Or.inr h)

/-- Reading an argument numbers its name, if it is one. -/
theorem readOperands_cons (h : table.Represents names defined) (line : Nat) (before : List Operand)
    {arg : Argument} {token : Token} (htoken : token.kind = arg.kind) (rest : List Token) :
    ∃ next, readOperands line table before (token :: rest) =
        readOperands line next (arg.operand (arg.names.foldl appendNew names) :: before) rest ∧
      next.Represents (arg.names.foldl appendNew names) defined := by
  rw [readOperands, htoken]
  cases arg with
  | id name =>
      obtain ⟨hid, hnext⟩ := h.intern name
      have hread := congrArg
        (fun id => readOperands line (table.intern name).2 (.id id :: before) rest) hid
      exact ⟨(table.intern name).2, hread, hnext⟩
  | integer value => exact ⟨table, rfl, h⟩
  | string text => exact ⟨table, rfl, h⟩

/-- Reading arguments numbers their names in order. -/
theorem readOperands_eq (h : table.Represents names defined) (line : Nat) (before : List Operand)
    {arguments : List Argument} {tokens : List Token}
    (htokens : tokens.map (·.kind) = arguments.map Argument.kind) :
    ∃ next, readOperands line table before tokens =
        .ok (next, before.reverse ++ arguments.map
          (Argument.operand ((arguments.flatMap Argument.names).foldl appendNew names))) ∧
      next.Represents ((arguments.flatMap Argument.names).foldl appendNew names) defined := by
  induction arguments generalizing table names before tokens with
  | nil =>
      rw [List.map_nil, List.map_eq_nil_iff] at htokens
      subst htokens
      exact ⟨table, by simp [readOperands], h⟩
  | cons arg rest ih =>
      obtain ⟨token, others, rfl, htoken, hothers⟩ := List.map_eq_cons_iff.1 htokens
      obtain ⟨next, hread, hnext⟩ := readOperands_cons h line before htoken others
      obtain ⟨last, hothers, hlast⟩ :=
        ih hnext (arg.operand (arg.names.foldl appendNew names) :: before) hothers
      rw [List.flatMap_cons, List.foldl_append]
      refine ⟨last, ?_, hlast⟩
      rw [hread, hothers, List.map_cons, List.reverse_cons, List.append_assoc,
        Argument.operand_of_isPrefix (subset_foldl_appendNew names arg.names)
          (prefix_foldl_appendNew _ _)]
      rfl

/-- Tokens that can be read as operands are arguments. -/
theorem exists_arguments_of_readOperands {line : Nat} {before : List Operand} {tokens : List Token}
    {r : NameTable × List Operand} (h : readOperands line table before tokens = .ok r) :
    ∃ arguments : List Argument, tokens.map (·.kind) = arguments.map Argument.kind := by
  induction tokens generalizing table before with
  | nil => exact ⟨[], rfl⟩
  | cons token rest ih =>
      rw [readOperands] at h
      split at h
      · next name hkind =>
          obtain ⟨arguments, harguments⟩ := ih h
          exact ⟨.id name :: arguments, by simp [hkind, harguments, Argument.kind]⟩
      · next value hkind =>
          obtain ⟨arguments, harguments⟩ := ih h
          exact ⟨.integer value :: arguments, by simp [hkind, harguments, Argument.kind]⟩
      · next text hkind =>
          obtain ⟨arguments, harguments⟩ := ih h
          exact ⟨.string text :: arguments, by simp [hkind, harguments, Argument.kind]⟩
      · cases h
      · cases h

/-- Reading an opcode and its arguments numbers the names of these. -/
theorem readOperation_eq (h : table.Represents names defined) (line : Nat) (terminator : Token)
    {word : String} {opcode : Opcode} (hword : Opcode.ofName? word = some opcode)
    {arguments : List Argument} {tokens : List Token}
    (htokens : tokens.map (·.kind) = .word word :: arguments.map Argument.kind) :
    ∃ next, readOperation line table terminator tokens =
        .ok (next, opcode, arguments.map
          (Argument.operand ((arguments.flatMap Argument.names).foldl appendNew names))) ∧
      next.Represents ((arguments.flatMap Argument.names).foldl appendNew names) defined := by
  obtain ⟨token, rest, rfl, htoken, hrest⟩ := List.map_eq_cons_iff.1 htokens
  obtain ⟨next, hread, hnext⟩ := readOperands_eq h line [] hrest
  refine ⟨next, ?_, hnext⟩
  simp only [readOperation, htoken, hword]
  rw [hread]
  rfl

/-- Tokens that can be read as an operation are an opcode and arguments. -/
theorem exists_operation_of_readOperation {line : Nat} {terminator : Token} {tokens : List Token}
    {r : NameTable × Opcode × List Operand}
    (h : readOperation line table terminator tokens = .ok r) :
    ∃ word opcode, Opcode.ofName? word = some opcode ∧ ∃ arguments : List Argument,
      tokens.map (·.kind) = .word word :: arguments.map Argument.kind := by
  cases tokens with
  | nil => cases h
  | cons token rest =>
      rw [readOperation] at h
      split at h
      · next word hkind =>
          split at h
          · cases h
          · next opcode hword =>
              split at h
              · cases h
              · next hread =>
                  obtain ⟨arguments, harguments⟩ := exists_arguments_of_readOperands hread
                  exact ⟨word, opcode, hword, arguments, by rw [List.map_cons, hkind, harguments]⟩
      · cases h

/-- The span of the instruction of a line. -/
def Line.span (line : Line) : Span := ⟨line.first.span.start, line.terminator.span.start⟩

/-- A line that spells a sentence and defines no value again is read as the instruction of the
sentence. -/
theorem readLine_eq (h : table.Represents names defined) {line : Line} {s : Sentence}
    (hs : s.SpelledBy line.kinds)
    (hvalue : ∀ id ∈ s.value? (s.names.foldl appendNew names), id ∉ defined) :
    ∃ next, readLine table line =
        .ok (next, s.instruction (s.names.foldl appendNew names) line.span,
          s.valueName? (s.names.foldl appendNew names)) ∧
      next.Represents (s.names.foldl appendNew names)
        ((s.value? (s.names.foldl appendNew names)).toList ++ defined) := by
  obtain ⟨result, opcode, arguments⟩ := s
  obtain ⟨word, hword, hrow⟩ := hs
  rw [← Opcode.ofName?_eq_some_iff] at hword
  cases result with
  | none =>
      obtain ⟨next, hread, hnext⟩ := readOperation_eq h line.first.line line.terminator hword hrow
      have hfirst : line.first.kind = .word word := (List.cons.inj hrow).1
      refine ⟨next, ?_, hnext⟩
      simp only [readLine, readResult, hfirst]
      rw [hread]
      rfl
  | some name =>
      have hsome := @Sentence.value?_foldl_names names ⟨some name, opcode, arguments⟩ name rfl
      obtain ⟨table', hdefine, htable'⟩ := h.define?_of_not_mem (hvalue _ hsome)
      have hfirst : line.first.kind = .id name := (List.cons.inj hrow).1
      obtain ⟨token, rest, hothers, htoken, hrest⟩ :=
        List.map_eq_cons_iff.1 (List.cons.inj hrow).2
      obtain ⟨next, hread, hnext⟩ :=
        readOperation_eq htable' line.first.line line.terminator hword hrest
      rw [Sentence.instruction, Sentence.valueName?, hsome]
      refine ⟨next, ?_, hnext⟩
      simp only [readLine, readResult, hfirst, hothers, htoken, if_true, hdefine]
      rw [hread]
      simp only [hnext.nameOf?_eq]
      rfl

/-- A line that defines a value again cannot be read. -/
theorem not_mem_of_readLine (h : table.Represents names defined) {line : Line} {s : Sentence}
    (hs : s.SpelledBy line.kinds) {r : NameTable × Instruction × Option String}
    (hread : readLine table line = .ok r) :
    ∀ id ∈ s.value? (s.names.foldl appendNew names), id ∉ defined := by
  intro id hid hdefined
  obtain ⟨name, hname, -⟩ := Option.map_eq_some_iff.1 hid
  rw [Sentence.value?_foldl_names hname] at hid
  cases hid
  obtain ⟨result, opcode, arguments⟩ := s
  obtain ⟨word, -, hrow⟩ := hs
  cases hname
  have hfirst : line.first.kind = .id name := (List.cons.inj hrow).1
  obtain ⟨token, rest, hothers, htoken, -⟩ := List.map_eq_cons_iff.1 (List.cons.inj hrow).2
  simp only [readLine, readResult, hfirst, hothers, htoken, if_true,
    h.define?_of_mem hdefined] at hread
  cases hread

/-- A line that can be read spells a sentence. -/
theorem exists_spelledBy_of_readLine {line : Line} {r : NameTable × Instruction × Option String}
    (h : readLine table line = .ok r) : ∃ s : Sentence, s.SpelledBy line.kinds := by
  rw [readLine] at h
  split at h
  · cases h
  · next table' result rest hresult =>
      split at h
      · cases h
      · next hoperation =>
          obtain ⟨word, opcode, hword, arguments, hrest⟩ :=
            exists_operation_of_readOperation hoperation
          rw [Opcode.ofName?_eq_some_iff] at hword
          rw [readResult] at hresult
          split at hresult
          · next name hfirst =>
              split at hresult
              · cases hresult
              · next token others hothers =>
                  split at hresult
                  · next htoken =>
                      split at hresult
                      · cases hresult
                      · cases hresult
                        refine ⟨⟨some name, opcode, arguments⟩, word, hword, ?_⟩
                        rw [Line.kinds, hothers, List.map_cons, List.map_cons, hfirst, htoken,
                          hrest]
                        rfl
                  · cases hresult
          · cases hresult
            exact ⟨⟨none, opcode, arguments⟩, word, hword, hrest⟩

end Listing

end SpirvLegality
