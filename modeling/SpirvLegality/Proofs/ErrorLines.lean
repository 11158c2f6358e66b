import Std.Data.String.ToNat
import SpirvLegality.Proofs.Partition
import SpirvLegality.Text.Word

/-!
# The lines that errors name

Each line of a listing stands in one row of its text, and the lines before it depend on the rows
before it only (`exists_isRow`). Lines are read in order, so the first one that cannot be read or
placed decides the error, which names it (`exists_line_of_readLines`). The wording of an error gives
its line back, since digits end where the next character is none (`line?_eq_some_of_message`).
Together these show which row an error points at, and that nothing behind this row changes it
(`Module.errors_name_lines`).
-/

namespace SpirvLegality

namespace Listing

/-! ## Rows -/

/-- A row is the one with a number, counted from one: in front of it stand rows that end with line
feeds, and behind it stands nothing or a line feed. -/
structure IsRow (text : List Char) (number : Nat) (before row after : List Char) : Prop where
  text_eq : text = before ++ row ++ after
  number_eq : number = before.count '\n' + 1
  before_ends : before = [] ∨ before.getLast? = some '\n'
  newline_not_mem : '\n' ∉ row
  after_begins : after = [] ∨ after.head? = some '\n'

/-- A line stands in a row: the lines before it are those of the text before the row, and it is the
same whatever stands behind the row and a line feed. -/
structure Line.InRow (line : Line) (p : Position) (before row after : List Char)
    (earlier later : List Line) : Prop where
  earlier_eq : lines (tokensAt p before) = earlier
  line_eq : line.first.line = (p.advance before).line
  kinds_eq : line.kinds = kindsFrom row
  later_eq : lines (tokensAt (p.advance (before ++ row)) after) = later
  stable : ∀ rest, after = '\n' :: rest → ∀ others, ∃ more,
    lines (tokensAt p (before ++ row ++ '\n' :: others)) = earlier ++ line :: more

/-- A row that has a line has no other. -/
theorem Line.ofWords_eq_append {words : List Token} {t : Token} {earlier later : List Line}
    {line : Line} (h : Line.ofWords words t = earlier ++ line :: later) :
    earlier = [] ∧ later = [] ∧ line.first ∈ words ∧ line.kinds = words.map (·.kind) := by
  cases words with
  | nil => exact absurd h.symm (List.append_ne_nil_of_right_ne_nil _ (List.cons_ne_nil _ _))
  | cons first others =>
      cases earlier with
      | nil =>
          cases h
          exact ⟨rfl, rfl, List.mem_cons_self, rfl⟩
      | cons other earlier =>
          have hnil := (List.cons.inj h).2
          exact absurd hnil.symm (List.append_ne_nil_of_right_ne_nil _ (List.cons_ne_nil _ _))

theorem lines_tokensAt_nil (p : Position) : lines (tokensAt p []) = [] := by
  rw [lines_of_not_mem p List.not_mem_nil, wordsAt_of_drop_eq_nil rfl]
  rfl

/-- A line feed begins no line. -/
theorem lines_tokensAt_newline (p : Position) (rest : List Char) :
    lines (tokensAt p ('\n' :: rest)) = lines (tokensAt (p.next '\n') rest) := by
  have hempty : '\n' ∉ ([] : List Char) := List.not_mem_nil
  have happend := lines_append_newline p hempty rest
  rw [wordsAt_of_drop_eq_nil rfl] at happend
  exact happend

/-- The first line of a text stands in its first row, unless this one is empty. -/
theorem inRow_first {p : Position} {row : List Char} (hrow : '\n' ∉ row) {t : Token} {line : Line}
    {earlier later : List Line} (h : Line.ofWords (wordsAt p row) t = earlier ++ line :: later) :
    earlier = [] ∧ later = [] ∧ line.first.line = p.line ∧ line.kinds = kindsFrom row := by
  obtain ⟨hearlier, hlater, hfirst, hkinds⟩ := Line.ofWords_eq_append h
  exact ⟨hearlier, hlater, (standsIn_of_mem_wordsAt hrow hfirst).line_eq,
    hkinds.trans (map_kind_wordsAt p row)⟩

/-- A row behind a line feed is a row. -/
theorem IsRow.behind {rest before row after : List Char} {number : Nat}
    (h : IsRow rest number before row after) (first : List Char) :
    IsRow (first ++ '\n' :: rest) ((first ++ '\n' :: before).count '\n' + 1)
      (first ++ '\n' :: before) row after where
  text_eq := by
    rw [h.text_eq, List.append_assoc, List.append_assoc, List.append_assoc, List.cons_append]
  number_eq := rfl
  before_ends := by
    rw [List.getLast?_append_cons, List.getLast?_cons]
    rcases h.before_ends with hnil | hlast
    · rw [hnil]
      exact Or.inr rfl
    · rw [hlast]
      exact Or.inr rfl
  newline_not_mem := h.newline_not_mem
  after_begins := h.after_begins

/-- A line behind the first row stands in the same row of the whole text. -/
theorem Line.InRow.behind {p : Position} {line : Line} {first before row after : List Char}
    {earlier later : List Line} (hfirst : '\n' ∉ first)
    (h : line.InRow ((p.advance first).next '\n') before row after earlier later) :
    line.InRow p (first ++ '\n' :: before) row after
      (Line.ofWords (wordsAt p first) (newlineAt (p.advance first)) ++ earlier) later := by
  have hlines := lines_append_newline p hfirst
  have hadvance (text : List Char) : p.advance (first ++ '\n' :: text) =
      ((p.advance first).next '\n').advance text := by
    rw [Position.advance_append, Position.advance_cons]
  refine ⟨?_, ?_, h.kinds_eq, ?_, fun after' hafter others => ?_⟩
  · rw [hlines, h.earlier_eq]
  · rw [hadvance]
    exact h.line_eq
  · rw [List.append_assoc, List.cons_append, hadvance]
    exact h.later_eq
  · obtain ⟨more, hmore⟩ := h.stable after' hafter others
    refine ⟨more, ?_⟩
    rw [List.append_assoc, List.append_assoc, List.cons_append, hlines, ← List.append_assoc,
      hmore, List.append_assoc]

/-- What stands in the middle of two lists in a row stands in one of them. -/
theorem append_cons_cases {first rest earlier later : List Line} {line : Line}
    (h : first ++ rest = earlier ++ line :: later) :
    (∃ between, earlier = first ++ between ∧ rest = between ++ line :: later) ∨
      ∃ more, first = earlier ++ line :: more ∧ later = more ++ rest := by
  rcases List.append_eq_append_iff.1 h with hbehind | ⟨more, hfirst, hmore⟩
  · exact Or.inl hbehind
  · cases more with
    | nil =>
        rw [List.append_nil] at hfirst
        exact Or.inl ⟨[], by rw [hfirst, List.append_nil], hmore.symm⟩
    | cons other more =>
        obtain ⟨rfl, rfl⟩ := List.cons.inj hmore
        exact Or.inr ⟨more, hfirst, rfl⟩

/-- Each line stands in a row. -/
theorem exists_isRow (p : Position) (text : List Char) {earlier later : List Line} {line : Line}
    (h : lines (tokensAt p text) = earlier ++ line :: later) :
    ∃ before row after, IsRow text (before.count '\n' + 1) before row after ∧
      line.InRow p before row after earlier later := by
  induction p, text using row_induction generalizing earlier with
  | last p row hrow =>
      rw [lines_of_not_mem p hrow] at h
      obtain ⟨rfl, rfl, hline, hkinds⟩ := inRow_first hrow h
      refine ⟨[], row, [], ⟨(List.append_nil row).symm, rfl, Or.inl rfl, hrow, Or.inl rfl⟩, ?_⟩
      exact ⟨lines_tokensAt_nil p, hline, hkinds, lines_tokensAt_nil _, nofun⟩
  | newline p row rest hrow ih =>
      have hlines := lines_append_newline p hrow
      rw [hlines] at h
      rcases append_cons_cases h with ⟨between, rfl, hrest⟩ | ⟨more, hfirst, rfl⟩
      · obtain ⟨before, inner, after, hisRow, hin⟩ := ih hrest
        exact ⟨_, inner, after, hisRow.behind row, hin.behind hrow⟩
      · obtain ⟨rfl, rfl, hline, hkinds⟩ := inRow_first hrow hfirst
        refine ⟨[], row, '\n' :: rest, ⟨rfl, rfl, Or.inl rfl, hrow, Or.inr rfl⟩,
          ⟨lines_tokensAt_nil p, hline, hkinds, lines_tokensAt_newline _ rest, ?_⟩⟩
        intro rest' _ others
        exact ⟨_, by rw [List.nil_append, hlines, hfirst]; rfl⟩

/-! ## The lines in errors -/

namespace ReadError

/-- The line with which the wording of an error begins. -/
def line? : ReadError → Option Nat
  | .missingEquals line _ _ | .redefined line _ | .unknownOpcode line _ | .missingOpcode line _
  | .malformedOperand line _ | .unexpectedOperand line _ | .nestedFunction line _ _
  | .strayFunctionEnd line => some line
  | .unclosedFunction _ _ => none

end ReadError

variable {names : NameTable} {units : UnitBuilder} {line : Line} {e : ReadError}

theorem line?_of_readOperands {number : Nat} {before : List Operand} {words : List Token}
    (h : readOperands number names before words = .error e) : e.line? = some number := by
  induction words generalizing names before with
  | nil => cases h
  | cons w words ih =>
      rw [readOperands] at h
      split at h
      · exact ih h
      · exact ih h
      · exact ih h
      · cases h
        rfl
      · cases h
        rfl

theorem line?_of_readOperation {number : Nat} {terminator : Token} {words : List Token}
    (h : readOperation number names terminator words = .error e) : e.line? = some number := by
  cases words with
  | nil =>
      cases h
      rfl
  | cons w words =>
      rw [readOperation] at h
      split at h
      · split at h
        · cases h
          rfl
        · split at h
          · next hread =>
              cases h
              exact line?_of_readOperands hread
          · cases h
      · cases h
        rfl

theorem line?_of_readResult (h : readResult names line = .error e) :
    e.line? = some line.first.line := by
  rw [readResult] at h
  split at h
  · split at h
    · cases h
      rfl
    · split at h
      · split at h
        · cases h
          rfl
        · cases h
      · cases h
        rfl
  · cases h

/-- An error on a line names the line. -/
theorem line?_of_readLine (h : readLine names line = .error e) :
    e.line? = some line.first.line := by
  rw [readLine] at h
  split at h
  · next hresult =>
      cases h
      exact line?_of_readResult hresult
  · split at h
    · next hoperation =>
        cases h
        exact line?_of_readOperation hoperation
    · cases h

theorem line?_of_place {number : Nat} {name : Option String} {inst : Instruction}
    (h : units.place number name inst = .error e) : e.line? = some number := by
  rw [UnitBuilder.place] at h
  split at h
  · cases h
    rfl
  · cases h
  · cases h
    rfl
  · cases h
  · cases h
  · cases h

/-- The first line that cannot be read or placed decides the error, which names this line. -/
theorem exists_line_of_readLines {lines : List Line} (h : readLines names units lines = .error e) :
    ∃ earlier line later r, lines = earlier ++ line :: later ∧
      readLines names units earlier = .ok r ∧ readLines r.1 r.2 [line] = .error e ∧
      e.line? = some line.first.line := by
  induction lines generalizing names units with
  | nil => cases h
  | cons line lines ih =>
      rw [readLines] at h
      cases hline : readLine names line with
      | error err =>
          rw [hline] at h
          cases h
          exact ⟨[], line, lines, (names, units), rfl, rfl, by rw [readLines, hline],
            line?_of_readLine hline⟩
      | ok r =>
          rw [hline] at h
          dsimp only at h
          cases hplace : units.place line.first.line r.2.2 r.2.1 with
          | error err =>
              rw [hplace] at h
              cases h
              refine ⟨[], line, lines, (names, units), rfl, rfl, ?_, line?_of_place hplace⟩
              rw [readLines, hline]
              dsimp only
              rw [hplace]
          | ok next =>
              rw [hplace] at h
              obtain ⟨earlier, failing, later, last, rfl, hearlier, hfailing, hnumber⟩ := ih h
              refine ⟨line :: earlier, failing, later, last, rfl, ?_, hfailing, hnumber⟩
              rw [readLines, hline]
              dsimp only
              rw [hplace]
              exact hearlier

/-! ## The wording of errors -/

namespace ReadError

/-- A number is written with digits only. -/
theorem isDigit_of_mem_toString {n : Nat} {c : Char} (h : c ∈ (toString n).toList) :
    c.isDigit = true := by
  have h : c ∈ n.repr.toList := h
  rw [Nat.toList_repr] at h
  exact Nat.isDigit_of_mem_toDigits (by decide) (by decide) h

/-- Digits are told apart from a character behind them that is no digit. -/
theorem digits_append_inj {digits digits' rest rest' : List Char} {c : Char}
    (hdigits : ∀ d ∈ digits, d.isDigit = true) (hdigits' : ∀ d ∈ digits', d.isDigit = true)
    (hc : c.isDigit = false) (h : digits ++ c :: rest = digits' ++ c :: rest') :
    digits = digits' ∧ rest = rest' := by
  have hstop : ∀ rest : List Char, ∀ a ∈ (c :: rest).head?, a.isDigit = false := by
    rintro rest a ⟨⟩
    exact hc
  obtain ⟨heq, hrest⟩ := Text.append_inj_of_kind hdigits hdigits' (hstop rest) (hstop rest') h
  exact ⟨heq, (List.cons.inj hrest).2⟩

theorem eq_of_toString_eq {n k : Nat} (h : (toString n).toList = (toString k).toList) : n = k :=
  Nat.repr_inj.1 (String.toList_inj.1 h)

/-- The wording of an error begins with its line. -/
theorem toList_message_of_line? {e : ReadError} {n : Nat} (h : e.line? = some n) :
    ∃ rest, e.message.toList = "line ".toList ++ ((toString n).toList ++ ':' :: rest) := by
  cases e with
  | unclosedFunction => cases h
  | missingEquals | redefined | unknownOpcode | missingOpcode | malformedOperand
  | unexpectedOperand | nestedFunction | strayFunctionEnd =>
      cases h
      exact ⟨_, by unfold message; simp only [String.toList_append, List.append_assoc]; rfl⟩

/-- The wording of a function without an end begins with no line. -/
theorem head?_message_unclosedFunction (name : String) (n : Nat) :
    (ReadError.unclosedFunction name n).message.toList.head? = some 'f' := by
  unfold message
  simp only [String.toList_append]
  rfl

/-- The wording of an error begins with a line where the error has it. -/
theorem line?_eq_some_of_message {e : ReadError} {n : Nat} {rest : String}
    (h : e.message = "line " ++ toString n ++ ": " ++ rest) : e.line? = some n := by
  have h := congrArg String.toList h
  simp only [String.toList_append, List.append_assoc] at h
  cases hline : e.line? with
  | none =>
      cases e <;> cases hline
      have hhead : _ = some 'l' := congrArg List.head? h
      rw [head?_message_unclosedFunction] at hhead
      exact absurd hhead (by decide)
  | some k =>
      obtain ⟨rest', hmessage⟩ := toList_message_of_line? hline
      rw [hmessage] at h
      obtain ⟨hdigits, -⟩ := digits_append_inj (fun d => isDigit_of_mem_toString)
        (fun d => isDigit_of_mem_toString) rfl (List.append_cancel_left h)
      rw [eq_of_toString_eq hdigits]

/-- The wording of a function without an end, from its end on. -/
theorem reverse_message_unclosedFunction (name : String) (n : Nat) :
    (ReadError.unclosedFunction name n).message.toList.reverse =
      " is missing OpFunctionEnd".toList.reverse ++ ((toString n).toList.reverse ++
        ' ' :: ("' opened at line".toList.reverse ++
          (name.toList.reverse ++ "function '".toList.reverse))) := by
  unfold message
  simp only [String.toList_append, List.reverse_append]
  rfl

/-- The wording of a function without an end says which one it is and where it begins. -/
theorem eq_unclosedFunction_of_message {e : ReadError} {name : String} {n : Nat}
    (h : e.message = (ReadError.unclosedFunction name n).message) :
    e = .unclosedFunction name n := by
  have h := congrArg String.toList h
  cases hline : e.line? with
  | some k =>
      obtain ⟨rest', hmessage⟩ := toList_message_of_line? hline
      rw [hmessage] at h
      have hhead : some 'l' = _ := congrArg List.head? h
      rw [head?_message_unclosedFunction] at hhead
      exact absurd hhead (by decide)
  | none =>
      cases e <;> cases hline
      next other k =>
        have h := congrArg List.reverse h
        rw [reverse_message_unclosedFunction, reverse_message_unclosedFunction] at h
        obtain ⟨hdigits, hrest⟩ := digits_append_inj
          (fun d hd => isDigit_of_mem_toString (List.mem_reverse.1 hd))
          (fun d hd => isDigit_of_mem_toString (List.mem_reverse.1 hd)) rfl
          (List.append_cancel_left h)
        have hname := List.append_cancel_right (List.append_cancel_left hrest)
        rw [eq_of_toString_eq (List.reverse_inj.1 hdigits),
          String.toList_inj.1 (List.reverse_inj.1 hname)]

end ReadError

/-! ## The function that is open -/

/-- A function that is open at the end was begun before or by one of the instructions, behind which
no function begins or ends. -/
theorem UnitBuilder.exists_last_function {units placed : UnitBuilder} {placements : List Placement}
    {f : OpenFunction} (h : units.placeAll placements = .ok placed)
    (hopened : placed.opened = some f) :
    ((∃ g, units.opened = some g ∧ g.line = f.line) ∧
        ∀ p ∈ placements, Ordinary p.instruction) ∨
      ∃ (earlier : List Placement) (p : Placement) (later : List Placement) (closed : UnitBuilder),
        placements = earlier ++ p :: later ∧ units.placeAll earlier = .ok closed ∧
          closed.opened = none ∧ p.instruction.opcode = .function ∧ p.line = f.line ∧
          ∀ q ∈ later, Ordinary q.instruction := by
  induction placements generalizing units with
  | nil =>
      cases h
      exact Or.inl ⟨⟨f, hopened, rfl⟩, List.forall_mem_nil _⟩
  | cons p placements ih =>
      obtain ⟨next, hplace, hnext⟩ := placeAll_cons_eq_ok_iff.1 h
      rcases ih hnext with ⟨⟨g, hg, hline⟩, hordinary⟩ |
        ⟨earlier, q, later, closed, rfl, hclosed, hlast⟩
      · rcases place_cases hplace with ⟨hfunction, hnone, first, hfirst, -, rfl⟩ |
          ⟨-, f, -, rfl⟩ | ⟨-, hnone, rfl⟩ | ⟨hp, begun, hbegun, rfl⟩
        · cases hg
          exact Or.inr ⟨[], p, placements, units, rfl, rfl, hnone, hfunction,
            hfirst.symm.trans hline, hordinary⟩
        · cases hg
        · rw [hnone] at hg
          cases hg
        · cases hg
          exact Or.inl ⟨⟨begun, hbegun, hline⟩, List.forall_mem_cons.2 ⟨hp, hordinary⟩⟩
      · exact Or.inr ⟨p :: earlier, q, later, closed, rfl,
          placeAll_cons_eq_ok_iff.2 ⟨next, hplace, hclosed⟩, hlast⟩

/-- A text is rejected because of one of its lines or because of a function without an end. -/
theorem parse_error_cases {text : String} {e : ReadError} (h : Module.parse text = .error e) :
    readLines {} {} (lines (tokens text)) = .error e ∨
      ∃ names placed f, readLines {} {} (lines (tokens text)) = .ok (names, placed) ∧
        placed.opened = some f ∧ e = .unclosedFunction f.name f.line := by
  rw [Module.parse] at h
  cases hread : readLines {} {} (lines (tokens text)) with
  | error err =>
      rw [hread] at h
      cases h
      exact Or.inl rfl
  | ok r =>
      rw [hread] at h
      have h : r.2.finish.map _ = .error e := h
      rw [UnitBuilder.finish] at h
      cases hopened : r.2.opened with
      | none =>
          rw [hopened] at h
          cases h
      | some f =>
          rw [hopened] at h
          cases h
          exact Or.inr ⟨r.1, r.2, f, rfl, hopened, rfl⟩

/-- A row opens a function that has no end: all rows spell sentences, which define each name once,
and behind the functions in front of the row, each with its end, it begins the last function. -/
structure OpensFunction (before row after : List Char) (earlier : List Sentence) (s : Sentence)
    (later : List Sentence) : Prop where
  earlier_spelled : List.Forall₂ Sentence.SpelledBy earlier (rows (kindsFrom before))
  spelled : s.SpelledBy (kindsFrom row)
  later_spelled : List.Forall₂ Sentence.SpelledBy later (rows (kindsFrom after))
  distinct : (definedNames (earlier ++ s :: later)).Nodup
  alternate : FunctionsAlternate (earlier.map Sentence.opcode)
  opcode_eq : s.opcode = .function
  later_ne : ∀ t ∈ later, t.opcode ≠ .function ∧ t.opcode ≠ .functionEnd

/-- Placements have the opcodes of the sentences. -/
theorem map_opcode_zipWith (names : List String) {lines : List Line} {sentences : List Sentence}
    (h : lines.length = sentences.length) :
    (List.zipWith (placement names) lines sentences).map (·.instruction.opcode) =
      sentences.map Sentence.opcode := by
  induction lines generalizing sentences with
  | nil =>
      rw [List.eq_nil_of_length_eq_zero h.symm]
      rfl
  | cons line lines ih =>
      cases sentences with
      | nil => cases h
      | cons s sentences =>
          rw [List.zipWith_cons_cons, List.map_cons, List.map_cons, ih (Nat.succ.inj h)]
          exact congrArg (· :: _) (s.opcode_instruction line.span)

/-- Lines that can be read spell sentences, whose instructions are placed in turn. -/
theorem exists_placeAll_of_readLines {lines : List Line} {names : NameTable} {placed : UnitBuilder}
    (hread : readLines {} {} lines = .ok (names, placed)) :
    ∃ sentences, List.Forall₂ Sentence.SpelledBy sentences (lines.map Line.kinds) ∧
      (definedNames sentences).Nodup ∧
      UnitBuilder.placeAll {} (List.zipWith (placement (nameOrder [] sentences)) lines sentences) =
        .ok placed := by
  obtain ⟨sentences, hspelled, hdistinct, hnew⟩ :=
    exists_sentences_of_readLines NameTable.represents_empty hread
  refine ⟨sentences, hspelled, hdistinct.of_map, ?_⟩
  have heq := readLines_eq NameTable.represents_empty {} hspelled hdistinct hnew
  rw [hread] at heq
  cases hall : UnitBuilder.placeAll {} (List.zipWith (placement (nameOrder [] sentences)) lines
      sentences) with
  | error e =>
      rw [hall] at heq
      cases heq
  | ok units =>
      rw [hall] at heq
      exact congrArg Except.ok (Prod.mk.inj (Except.ok.inj heq)).2.symm

/-- Sentences that are spelled by lines are spelled before, on and behind each line. -/
theorem spelledBy_append_cons {spoken following : List Sentence} {s : Sentence}
    {earlier later : List Line} {line : Line} (hlength : earlier.length = spoken.length)
    (h : List.Forall₂ Sentence.SpelledBy (spoken ++ s :: following)
      ((earlier ++ line :: later).map Line.kinds)) :
    List.Forall₂ Sentence.SpelledBy spoken (earlier.map Line.kinds) ∧ s.SpelledBy line.kinds ∧
      List.Forall₂ Sentence.SpelledBy following (later.map Line.kinds) := by
  rw [List.map_append] at h
  have hlength : spoken.length = (earlier.map Line.kinds).length := by
    rw [List.length_map, hlength]
  have hspoken := List.forall₂_take_append _ _ _ h
  have hunspoken := List.forall₂_drop_append _ _ _ h
  rw [← hlength, List.take_left] at hspoken
  rw [← hlength, List.drop_left] at hunspoken
  cases hunspoken with
  | cons hs hfollowing => exact ⟨hspoken, hs, hfollowing⟩

/-- A function that is not ended is the last one, and all lines can be read. -/
theorem exists_opensFunction {text : String} {names : NameTable} {placed : UnitBuilder}
    {f : OpenFunction} (hread : readLines {} {} (lines (tokens text)) = .ok (names, placed))
    (hopened : placed.opened = some f) :
    ∃ before row after earlier s later, IsRow text.toList f.line before row after ∧
      OpensFunction before row after earlier s later := by
  obtain ⟨sentences, hspelled, hdistinct, hplaced⟩ := exists_placeAll_of_readLines hread
  rcases UnitBuilder.exists_last_function hplaced hopened with ⟨⟨g, hg, -⟩, -⟩ |
    ⟨placements, p, others, closed, hzip, hclosed, hnone, hfunction, hline, hordinary⟩
  · cases hg
  obtain ⟨earlier, rest, spoken, unspoken, hlength, hlines, rfl, rfl, hrest⟩ :=
    List.zipWith_eq_append_iff.1 hzip
  obtain ⟨line, later, s, following, rfl, rfl, rfl, rfl⟩ := List.zipWith_eq_cons_iff.1 hrest.symm
  rw [hlines] at hspelled
  obtain ⟨hspoken, hs, hfollowing⟩ := spelledBy_append_cons hlength hspelled
  obtain ⟨before, row, after, hrow, hin⟩ := exists_isRow {} text.toList hlines
  have hnumber : f.line = before.count '\n' + 1 := by
    rw [← hline, Nat.add_comm]
    exact hin.line_eq.trans (Position.line_advance _ before)
  have hearlierOpcodes := map_opcode_zipWith (nameOrder [] (spoken ++ s :: following)) hlength
  have hlaterOpcodes := map_opcode_zipWith (nameOrder [] (spoken ++ s :: following))
    ((List.length_map _).symm.trans hfollowing.length_eq.symm)
  refine ⟨before, row, after, spoken, s, following, hnumber ▸ hrow, ?_, hin.kinds_eq ▸ hs, ?_,
    hdistinct, ?_, ?_, ?_⟩
  · rw [← map_kinds_lines_tokensAt {}, hin.earlier_eq]
    exact hspoken
  · rw [← map_kinds_lines_tokensAt, hin.later_eq]
    exact hfollowing
  · rw [FunctionsAlternate, ← hearlierOpcodes]
    exact (UnitBuilder.exists_placeAll_iff {} _).1 ⟨closed, hclosed, hnone⟩
  · rw [← s.opcode_instruction]
    exact hfunction
  · intro t ht
    have hmem := List.mem_map_of_mem (f := Sentence.opcode) ht
    rw [← hlaterOpcodes] at hmem
    obtain ⟨q, hq, hopcode⟩ := List.mem_map.1 hmem
    rw [← hopcode]
    exact hordinary q hq

/-! ## The row of an error -/

/-- A text whose lines can be read is a listing unless a function is open at its end. -/
theorem parse_of_readLines {text : String} {r : NameTable × UnitBuilder}
    (h : readLines {} {} (lines (tokens text)) = .ok r) :
    (∃ m, Module.parse text = .ok m) ∨
      ∃ name k, Module.parse text = .error (.unclosedFunction name k) := by
  rw [Module.parse, h]
  dsimp only
  rw [UnitBuilder.finish]
  cases r.2.opened with
  | none => exact Or.inl ⟨_, rfl⟩
  | some f => exact Or.inr ⟨_, _, rfl⟩

/-- An error in reading lines comes from the row that it names: the text before the row can be read,
and behind the row and a line feed nothing changes the error. -/
theorem exists_row_of_readLines {text : String} {e : ReadError} {n : Nat}
    (hread : readLines {} {} (lines (tokens text)) = .error e) (hline : e.line? = some n) :
    ∃ before row after, IsRow text.toList n before row after ∧
      (∃ r, readLines {} {} (lines (tokens (.ofList before))) = .ok r) ∧
      (after ≠ [] → ∀ others,
        Module.parse (.ofList (before ++ row ++ '\n' :: others)) = .error e) := by
  obtain ⟨earlier, line, later, r, hlines, hearlier, hfailing, hnumber⟩ :=
    exists_line_of_readLines hread
  obtain ⟨before, row, after, hrow, hin⟩ := exists_isRow {} text.toList hlines
  have hn : n = before.count '\n' + 1 := by
    rw [hnumber, hin.line_eq, Position.line_advance, Nat.add_comm] at hline
    exact (Option.some.inj hline).symm
  refine ⟨before, row, after, hn ▸ hrow, ⟨r, ?_⟩, fun hafter others => ?_⟩
  · rw [tokens_eq, String.toList_ofList, hin.earlier_eq, hearlier]
  · obtain ⟨rest', hrest⟩ := List.head?_eq_some_iff.1 (hrow.after_begins.resolve_left hafter)
    obtain ⟨more, hmore⟩ := hin.stable rest' hrest others
    have hothers : readLines {} {} (earlier ++ [line] ++ more) = .error e := by
      rw [readLines_append, readLines_append, hearlier]
      dsimp only [Except.bind]
      rw [hfailing]
    rw [Module.parse, tokens_eq, String.toList_ofList, hmore, List.append_cons, hothers]

end Listing

open Listing

/-- An error that names a line comes from this line: the text before it is read, up to a function
that may be open there, and if the line ends with a line feed, what is behind it does not matter. A
function without an end is named where the last function begins, and all lines can be read. -/
theorem Module.errors_name_lines {text : String} {e : ReadError}
    (h : Module.parse text = .error e) :
    (∀ n rest, e.message = "line " ++ toString n ++ ": " ++ rest →
      ∃ before row after, IsRow text.toList n before row after ∧
        ((∃ m, Module.parse (.ofList before) = .ok m) ∨
          ∃ name k, Module.parse (.ofList before) = .error (.unclosedFunction name k)) ∧
        (after ≠ [] → ∀ others,
          Module.parse (.ofList (before ++ row ++ '\n' :: others)) = .error e)) ∧
    ∀ name n, e.message = (ReadError.unclosedFunction name n).message →
      ∃ before row after earlier s later, IsRow text.toList n before row after ∧
        OpensFunction before row after earlier s later := by
  constructor
  · intro n rest hmessage
    have hline := ReadError.line?_eq_some_of_message hmessage
    rcases parse_error_cases h with hread | ⟨names, placed, f, -, -, rfl⟩
    · obtain ⟨before, row, after, hrow, ⟨r, hbefore⟩, hstable⟩ :=
        exists_row_of_readLines hread hline
      exact ⟨before, row, after, hrow, parse_of_readLines hbefore, hstable⟩
    · cases hline
  · intro name n hmessage
    cases ReadError.eq_unclosedFunction_of_message hmessage
    rcases parse_error_cases h with hread | ⟨names, placed, f, hread, hopened, hf⟩
    · obtain ⟨earlier, line, later, r, -, -, -, hnumber⟩ := exists_line_of_readLines hread
      cases hnumber
    · cases hf
      exact exists_opensFunction hread hopened

/-- A function whose second line has a stray character. -/
def strayCharacter : String := "OpFunction\nOpLabel ?\nOpFunctionEnd\n"

theorem parse_strayCharacter :
    Module.parse strayCharacter = .error (.malformedOperand 2 (.unexpected '?')) := by
  have hlines : lines (tokens strayCharacter) =
      [⟨⟨.word "OpFunction", ⟨0, 10⟩, 1⟩, [], ⟨.newline, ⟨10, 11⟩, 1⟩⟩,
        ⟨⟨.word "OpLabel", ⟨11, 18⟩, 2⟩, [⟨.malformed (.unexpected '?'), ⟨19, 20⟩, 2⟩],
          ⟨.newline, ⟨20, 21⟩, 2⟩⟩,
        ⟨⟨.word "OpFunctionEnd", ⟨21, 34⟩, 3⟩, [], ⟨.newline, ⟨34, 35⟩, 3⟩⟩] := by
    decide +kernel
  rw [Module.parse, hlines]
  rfl

/-- A function without an end, behind a comment and a blank line. -/
def endlessFunction : String := "; one

OpFunction
OpLabel"

theorem parse_endlessFunction :
    Module.parse endlessFunction = .error (.unclosedFunction "function0" 3) := by
  have hlines : lines (tokens endlessFunction) =
      [⟨⟨.word "OpFunction", ⟨7, 17⟩, 3⟩, [], ⟨.newline, ⟨17, 18⟩, 3⟩⟩,
        ⟨⟨.word "OpLabel", ⟨18, 25⟩, 4⟩, [], ⟨.stop, ⟨25, 25⟩, 4⟩⟩] := by
    decide +kernel
  rw [Module.parse, hlines]
  rfl

theorem Module.errors_name_lines_functions :
    (Module.parse strayCharacter = .error (.malformedOperand 2 (.unexpected '?')) ∧
      ∃ before row after, IsRow strayCharacter.toList 2 before row after ∧
        ((∃ m, Module.parse (.ofList before) = .ok m) ∨
          ∃ name k, Module.parse (.ofList before) = .error (.unclosedFunction name k)) ∧
        (after ≠ [] → ∀ others, Module.parse (.ofList (before ++ row ++ '\n' :: others)) =
          .error (.malformedOperand 2 (.unexpected '?')))) ∧
    Module.parse endlessFunction = .error (.unclosedFunction "function0" 3) ∧
      ∃ before row after earlier s later, IsRow endlessFunction.toList 3 before row after ∧
        OpensFunction before row after earlier s later :=
  ⟨⟨parse_strayCharacter, (Module.errors_name_lines parse_strayCharacter).1 2
      "unexpected character '?'" (by decide +kernel)⟩,
    parse_endlessFunction, (Module.errors_name_lines parse_endlessFunction).2 "function0" 3 rfl⟩

end SpirvLegality
